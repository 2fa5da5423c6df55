import DividendX.Sdk.TokenProfile
import DividendX.Standard

/-!
# What the controls fingerprint stands for

The fingerprint of a mint hashes one run of bytes: a label, the address, two optional authorities
and one section for every extension, in the order of the type numbers. Nothing in it is a length,
yet it can be read in one way only, since the section of a type always has the same size. So two
accepted mints have the same preimage exactly if they have the same controls
(`controlsPreimage_eq_iff`).

The display metadata, the multipliers and the order of the entries are no part of it.
-/

namespace DividendX

open LittleEndian

/-! ## The preimage -/

/-- The variables of the loop of `inspect_mint_inner` at its end. -/
def inspection (host : Host) (key : Pubkey) (mint : Mint) (unixTimestamp : Int64)
    (enforceFactorBounds : Bool) : Outcome Inspection :=
  mint.sortedTypes.foldlM (inspectExtension mint unixTimestamp enforceFactorBounds)
    { mask := 0, fingerprint := fingerprintBase host key mint, scale := none }

/-- The bytes that are hashed into the fingerprint. -/
def controlsPreimage (host : Host) (key : Pubkey) (mint : Mint) (unixTimestamp : Int64) :
    Outcome (List UInt8) := do
  let st ← inspection host key mint unixTimestamp false
  return st.fingerprint

variable {host : Host} {key key' : Pubkey} {mint mint' : Mint} {now now' : Int64} {bounds : Bool}
  {st st' : Inspection} {type : UInt16} {profile profile' : MintProfile}

/-- What the inspection accepts. -/
theorem inspectMintInner_eq_ok :
    inspectMintInner host key mint now bounds = .ok profile ↔
      mint.tokenProgram = .token2022 ∧ mint.isInitialized = true ∧
      (mint.decimals = 6 ∨ mint.decimals = 8 ∨ mint.decimals = 9) ∧
      mint.sortedTypes.IsChain (· ≠ ·) ∧
      ∃ st, inspection host key mint now bounds = .ok st ∧ ∃ scale, st.scale = some scale ∧
        { decimals := mint.decimals, extensionsMask := st.mask, scale := scale,
          controlsFingerprint := host.sha256 st.fingerprint } = profile := by
  simp only [inspectMintInner, inspection, Result.bind_eq_ok, Result.require_eq_ok,
    Result.exists_unit, Result.pure_eq_ok, Result.okOr_eq_ok]
  constructor
  · rintro ⟨hprogram, hinit, -, hrest⟩
    exact ⟨hprogram, hinit, hrest⟩
  · rintro ⟨hprogram, hinit, hrest⟩
    exact ⟨hprogram, hinit, hinit, hrest⟩

theorem controlsPreimage_eq_ok {bytes : List UInt8} :
    controlsPreimage host key mint now = .ok bytes ↔
      ∃ st, inspection host key mint now false = .ok st ∧ st.fingerprint = bytes := by
  simp only [controlsPreimage, Result.bind_eq_ok, Result.pure_eq_ok]

/-! ## Sections -/

/-- The payload of the first entry of a type. -/
def Mint.payload? (mint : Mint) (type : UInt16) : Option (List UInt8) :=
  (mint.extensions.find? fun e => e.type == type).map Extension.data

/-- The part of a payload that is a control. -/
def controlPart (type : UInt16) (data : List UInt8) : List UInt8 :=
  if type = SCALED_UI_AMOUNT ∨ type = METADATA_POINTER ∨ type = PAUSABLE then data.take 32
  else if type = TOKEN_METADATA then []
  else data

/-- The size of that part. -/
def controlSize (type : UInt16) : Nat :=
  if type = TOKEN_METADATA then 0
  else if type = DEFAULT_ACCOUNT_STATE then 1
  else if type = TRANSFER_HOOK then 64
  else if type = CONFIDENTIAL_TRANSFER_MINT then 65
  else 32

/-- The part of the preimage that comes from one extension. -/
def Mint.control (mint : Mint) (type : UInt16) : List UInt8 :=
  controlPart type ((mint.payload? type).getD [])

/-- An entry of a type the inspection understands, with a payload it accepts. Display metadata is
not looked at. -/
structure Fits (mint : Mint) (type : UInt16) (data : List UInt8) : Prop where
  payload : mint.payload? type = some data
  size : layoutSize type = some data.length
  initialized : type = DEFAULT_ACCOUNT_STATE → data = [1]
  unhooked : type = TRANSFER_HOOK → data.drop 32 = List.replicate 32 0
  running : type = PAUSABLE → data.drop 32 = [0]

/-- The scale tuple in a payload. -/
def scaleOf (data : List UInt8) (unixTimestamp : Int64) : ScaleTuple :=
  ⟨wordAt data 32, wordAt data 48, (wordAt data 40).toInt64,
    if (wordAt data 40).toInt64 ≤ unixTimestamp then wordAt data 48 else wordAt data 32⟩

/-- The loop variables after one turn. -/
def Inspection.turn (mint : Mint) (unixTimestamp : Int64) (st : Inspection) (type : UInt16) :
    Inspection where
  mask := st.mask ||| (1 <<< type.toUInt64)
  fingerprint := st.fingerprint ++ fixed 2 type.toNat ++ mint.control type
  scale :=
    if type = SCALED_UI_AMOUNT then some (scaleOf ((mint.payload? type).getD []) unixTimestamp)
    else st.scale

/-- A payload, by its type and size. -/
theorem getExtension_eq_payload {size : Nat} {data : List UInt8} :
    mint.getExtension type size = .ok data ↔ mint.payload? type = some data ∧
      data.length = size := by
  simp only [Mint.getExtension, Mint.payload?, Result.bind_eq_ok, Result.okOr_eq_ok,
    Result.require_eq_ok, Result.exists_unit, Result.pure_eq_ok, Option.map_eq_some_iff]
  constructor
  · rintro ⟨e, he, hlen, rfl⟩
    exact ⟨⟨e, he, rfl⟩, hlen⟩
  · rintro ⟨⟨e, he, rfl⟩, hlen⟩
    exact ⟨e, he, hlen, rfl⟩

/-- What a payload that fits says of its control. -/
theorem Fits.control {data : List UInt8} (h : Fits mint type data) :
    mint.control type = controlPart type data := by
  rw [Mint.control, h.payload, Option.getD_some]

/-- A payload of the right size that passes the check of its type fits. -/
theorem exists_fits_iff (size : Nat) (check : List UInt8 → Prop) (hother : type ≠ TOKEN_METADATA)
    (hsize : layoutSize type = some size)
    (hcheck : ∀ data, check data ↔ (type = DEFAULT_ACCOUNT_STATE → data = [1]) ∧
      (type = TRANSFER_HOOK → data.drop 32 = List.replicate 32 0) ∧
      (type = PAUSABLE → data.drop 32 = [0])) :
    (∃ data, mint.getExtension type size = .ok data ∧ check data ∧ st.turn mint now type = st') ↔
      (type = TOKEN_METADATA ∨ ∃ data, Fits mint type data) ∧ st.turn mint now type = st' := by
  constructor
  · rintro ⟨data, hget, hok, hst⟩
    obtain ⟨hpayload, hlen⟩ := getExtension_eq_payload.mp hget
    obtain ⟨hinit, hhook, hpause⟩ := (hcheck data).mp hok
    exact ⟨.inr ⟨data, hpayload, by rw [hsize, hlen], hinit, hhook, hpause⟩, hst⟩
  · rintro ⟨hmeta | ⟨data, hfits⟩, hst⟩
    · exact absurd hmeta hother
    · have hlen : data.length = size := Option.some.inj (hfits.size.symm.trans hsize)
      exact ⟨data, getExtension_eq_payload.mpr ⟨hfits.payload, hlen⟩,
        (hcheck data).mpr ⟨hfits.initialized, hfits.unhooked, hfits.running⟩, hst⟩

/-- **One turn of the exit inspection**: what it accepts and what it leaves. -/
theorem inspectExtension_eq_ok : inspectExtension mint now false st type = .ok st' ↔
    (type = TOKEN_METADATA ∨ ∃ data, Fits mint type data) ∧ st.turn mint now type = st' := by
  simp only [inspectExtension, Bool.false_eq_true, if_false, Result.bind_eq_ok,
    Result.require_eq_ok, Result.exists_unit]
  -- the loop variables, once the payload is known
  have hpush : ∀ {size : Nat} {data : List UInt8}, type ≠ SCALED_UI_AMOUNT →
      mint.getExtension type size = .ok data →
      Inspection.push (Inspection.push { st with mask := st.mask ||| 1 <<< type.toUInt64 }
        (fixed 2 type.toNat)) (controlPart type data) = st.turn mint now type := by
    intro size data hscale hget
    simp [Inspection.turn, Mint.control, Inspection.push,
      (getExtension_eq_payload.mp hget).1, hscale]
  split_ifs with h1 h2 h3 h4 h5 h6 h7 h8
  · subst h1
    rw [← exists_fits_iff 56 (fun _ => True) (by decide) rfl fun data => by
      simp [SCALED_UI_AMOUNT, DEFAULT_ACCOUNT_STATE, TRANSFER_HOOK, PAUSABLE]]
    simp only [Result.bind_eq_ok, Result.pure_eq_ok, show SCALED_UI_AMOUNT < 64 by decide, true_and]
    refine exists_congr fun data => and_congr_right fun hget => ?_
    simp [Inspection.turn, Mint.control, Inspection.push, controlPart, scaleOf,
      (getExtension_eq_payload.mp hget).1]
  · subst h2
    rw [← exists_fits_iff 64 (fun _ => True) (by decide) rfl fun data => by
      simp [METADATA_POINTER, DEFAULT_ACCOUNT_STATE, TRANSFER_HOOK, PAUSABLE]]
    simp only [Result.bind_eq_ok, Result.pure_eq_ok, show METADATA_POINTER < 64 by decide, true_and]
    refine exists_congr fun data => and_congr_right fun hget => ?_
    rw [← hpush h1 hget]
    rfl
  · subst h3
    simp [Inspection.turn, Mint.control, controlPart, Inspection.push, h1, h2,
      show TOKEN_METADATA < 64 by decide, show TOKEN_METADATA ≠ PAUSABLE by decide]
  · rw [← exists_fits_iff 32 (fun _ => True) h3 (by rcases h4 with rfl | rfl <;> rfl) fun data => by
      rcases h4 with rfl | rfl <;>
        simp [MINT_CLOSE_AUTHORITY, PERMANENT_DELEGATE, DEFAULT_ACCOUNT_STATE,
          TRANSFER_HOOK, PAUSABLE]]
    have hlt : type < 64 := by rcases h4 with rfl | rfl <;> decide
    simp only [Result.bind_eq_ok, Result.pure_eq_ok, hlt, true_and]
    refine exists_congr fun data => and_congr_right fun hget => ?_
    rw [← hpush h1 hget]
    rcases h4 with rfl | rfl <;> rfl
  · subst h5
    rw [← exists_fits_iff 1 (· = [1]) (by decide) rfl fun data => by
      simp [DEFAULT_ACCOUNT_STATE, TRANSFER_HOOK, PAUSABLE]]
    simp only [Result.bind_eq_ok, Result.pure_eq_ok, Result.require_eq_ok, Result.exists_unit,
      show DEFAULT_ACCOUNT_STATE < 64 by decide, true_and]
    refine exists_congr fun data => and_congr_right fun hget => ?_
    rw [← hpush h1 hget]
    rfl
  · subst h6
    rw [← exists_fits_iff 64 (fun data => data.drop 32 = List.replicate 32 0) (by decide) rfl
      fun data => by simp [DEFAULT_ACCOUNT_STATE, TRANSFER_HOOK, PAUSABLE]]
    simp only [Result.bind_eq_ok, Result.pure_eq_ok, Result.require_eq_ok, Result.exists_unit,
      show TRANSFER_HOOK < 64 by decide, true_and]
    refine exists_congr fun data => and_congr_right fun hget => ?_
    rw [← hpush h1 hget]
    rfl
  · subst h7
    rw [← exists_fits_iff 33 (fun data => data.drop 32 = [0]) (by decide) rfl fun data => by
      simp [DEFAULT_ACCOUNT_STATE, TRANSFER_HOOK, PAUSABLE]]
    simp only [Result.bind_eq_ok, Result.pure_eq_ok, Result.require_eq_ok, Result.exists_unit,
      show PAUSABLE < 64 by decide, true_and]
    refine exists_congr fun data => and_congr_right fun hget => ?_
    rw [← hpush h1 hget]
    rfl
  · subst h8
    rw [← exists_fits_iff 65 (fun _ => True) (by decide) rfl fun data => by
      simp [CONFIDENTIAL_TRANSFER_MINT, DEFAULT_ACCOUNT_STATE, TRANSFER_HOOK, PAUSABLE]]
    simp only [Result.bind_eq_ok, Result.pure_eq_ok, show CONFIDENTIAL_TRANSFER_MINT < 64 by decide,
      true_and]
    refine exists_congr fun data => and_congr_right fun hget => ?_
    rw [← hpush h1 hget]
    rfl
  · -- a type without a layout fits nothing
    have hlayout : layoutSize type = none := by
      simp only [not_or] at h4
      simp [layoutSize, h1, h2, h4, h5, h6, h7, h8]
    refine iff_of_false (fun h => by cases h.2) ?_
    rintro ⟨hmeta | ⟨data, hfits⟩, -⟩
    · exact h3 hmeta
    · cases hlayout.symm.trans hfits.size

/-! ## The whole loop -/

/-- A type the inspection passes over or whose entry fits. -/
def Passes (mint : Mint) (type : UInt16) : Prop := type = TOKEN_METADATA ∨ ∃ data,
  Fits mint type data

/-- The loop goes through where every type passes. -/
theorem foldlM_inspectExtension_eq_ok {types : List UInt16} :
    types.foldlM (inspectExtension mint now false) st = .ok st' ↔
      (∀ type ∈ types, Passes mint type) ∧ types.foldl (Inspection.turn mint now) st = st' := by
  induction types generalizing st with
  | nil => simp
  | cons type types ih =>
    simp only [List.foldlM_cons, Result.bind_eq_ok, inspectExtension_eq_ok,
      ih, List.forall_mem_cons, List.foldl_cons]
    constructor
    · rintro ⟨st₁, ⟨hfirst, rfl⟩, hrest, hst⟩
      exact ⟨⟨hfirst, hrest⟩, hst⟩
    · rintro ⟨⟨hfirst, hrest⟩, hst⟩
      exact ⟨_, ⟨hfirst, rfl⟩, hrest, hst⟩

/-- The section of a type: its number and its control. -/
def Mint.controlSection (mint : Mint) (type : UInt16) : List UInt8 :=
  fixed 2 type.toNat ++ mint.control type

/-- The fingerprint is the sections, one after the other. -/
theorem fingerprint_foldl_turn (types : List UInt16) :
    (types.foldl (Inspection.turn mint now) st).fingerprint
      = st.fingerprint ++ types.flatMap mint.controlSection := by
  induction types generalizing st with
  | nil => simp
  | cons type types ih => simp [ih, Inspection.turn, Mint.controlSection]

/-- **The preimage** of an accepted mint. -/
theorem controlsPreimage_of_accepted (h : inspectMintForExit host key mint now = .ok profile) :
    controlsPreimage host key mint now
      = .ok (fingerprintBase host key mint ++ mint.sortedTypes.flatMap mint.controlSection) := by
  obtain ⟨-, -, -, -, st, hloop, -⟩ := inspectMintInner_eq_ok.mp h
  rw [controlsPreimage_eq_ok]
  refine ⟨st, hloop, ?_⟩
  obtain ⟨-, rfl⟩ := foldlM_inspectExtension_eq_ok.mp hloop
  exact fingerprint_foldl_turn _

/-- Every type of an accepted mint passes. -/
theorem passes_of_accepted (h : inspectMintForExit host key mint now = .ok profile)
    (hmem : type ∈ mint.sortedTypes) : Passes mint type := by
  obtain ⟨-, -, -, -, st, hloop, -⟩ := inspectMintInner_eq_ok.mp h
  exact (foldlM_inspectExtension_eq_ok.mp hloop).1 type hmem

/-! ## Reading it back -/

/-- The types with a layout. -/
theorem layoutSize_cases {size : Nat} (h : layoutSize type = some size) :
    (type, size) ∈ [(SCALED_UI_AMOUNT, 56), (METADATA_POINTER, 64), (TRANSFER_HOOK, 64),
      (MINT_CLOSE_AUTHORITY, 32), (PERMANENT_DELEGATE, 32), (DEFAULT_ACCOUNT_STATE, 1),
      (PAUSABLE, 33), (CONFIDENTIAL_TRANSFER_MINT, 65)] := by
  simp only [layoutSize] at h
  split_ifs at h with h1 h2 h3 h4 h5 h6
  · cases h; subst h1; decide
  · cases h; rcases h2 with rfl | rfl <;> decide
  · cases h; rcases h3 with rfl | rfl <;> decide
  · cases h; subst h4; decide
  · cases h; subst h5; decide
  · cases h; subst h6; decide

/-- A control has the size of its type. -/
theorem Passes.length_control (h : Passes mint type) :
    (mint.control type).length = controlSize type := by
  rcases h with rfl | ⟨data, hfits⟩
  · rfl
  · rw [hfits.control]
    have hcases := layoutSize_cases hfits.size
    simp only [List.mem_cons, List.not_mem_nil, or_false, Prod.mk.injEq] at hcases
    rcases hcases with ⟨rfl, hlen⟩ | ⟨rfl, hlen⟩ | ⟨rfl, hlen⟩ | ⟨rfl, hlen⟩ | ⟨rfl, hlen⟩ |
      ⟨rfl, hlen⟩ | ⟨rfl, hlen⟩ | ⟨rfl, hlen⟩
    all_goals
      simp [controlPart, controlSize, hlen, SCALED_UI_AMOUNT, METADATA_POINTER,
        PAUSABLE, TOKEN_METADATA,
        TRANSFER_HOOK, MINT_CLOSE_AUTHORITY, PERMANENT_DELEGATE, DEFAULT_ACCOUNT_STATE,
        CONFIDENTIAL_TRANSFER_MINT]

/-- Sections of fixed sizes are told apart: the types are the same, and so are the controls. -/
theorem flatMap_controlSection_inj {types types' : List UInt16}
    (h : ∀ type ∈ types, Passes mint type)
    (h' : ∀ type ∈ types', Passes mint' type)
    (heq : types.flatMap mint.controlSection = types'.flatMap mint'.controlSection) :
    types = types' ∧ ∀ type ∈ types, mint.control type = mint'.control type := by
  induction types generalizing types' with
  | nil =>
    cases types' with
    | nil => exact ⟨rfl, by simp⟩
    | cons type' types' =>
      have hlen := congrArg List.length heq
      simp [Mint.controlSection] at hlen
      omega
  | cons type types ih =>
    cases types' with
    | nil =>
      have hlen := congrArg List.length heq
      simp [Mint.controlSection] at hlen
    | cons type' types' =>
      rw [List.forall_mem_cons] at h h'
      simp only [List.flatMap_cons, Mint.controlSection, List.append_assoc] at heq
      obtain ⟨hnumber, hrest⟩ := List.append_inj heq (by simp)
      have htype : type = type' := by
        have hlt : ∀ t : UInt16, t.toNat < 256 ^ 2 := fun t => t.toNat_lt
        exact UInt16.toNat_inj.mp (fixed_injective (hlt _) (hlt _) hnumber)
      subst htype
      obtain ⟨hcontrol, hrest⟩ := List.append_inj hrest
        (by rw [h.1.length_control, h'.1.length_control])
      obtain ⟨rfl, hall⟩ := ih h.2 h'.2 hrest
      exact ⟨rfl, List.forall_mem_cons.mpr ⟨hcontrol, hall⟩⟩

/-! ## Controls -/

/-- The issuer's controls over a mint. -/
structure IssuerControls where
  mintAuthority : Option Bytes32
  freezeAuthority : Option Bytes32
  scaleAuthority : Option (List UInt8)
  metadataPointerAuthority : Option (List UInt8)
  closeAuthority : Option (List UInt8)
  permanentDelegate : Option (List UInt8)
  defaultAccountState : Option (List UInt8)
  transferHookAuthority : Option (List UInt8)
  transferHookProgram : Option (List UInt8)
  pauseAuthority : Option (List UInt8)
  confidentialTransfer : Option (List UInt8)
  deriving DecidableEq

/-- The controls of a mint, each with the bytes of its field. -/
def Mint.controls (host : Host) (mint : Mint) : IssuerControls where
  mintAuthority := mint.mintAuthority.map host.addressBytes
  freezeAuthority := mint.freezeAuthority.map host.addressBytes
  scaleAuthority := (mint.payload? SCALED_UI_AMOUNT).map (·.take 32)
  metadataPointerAuthority := (mint.payload? METADATA_POINTER).map (·.take 32)
  closeAuthority := mint.payload? MINT_CLOSE_AUTHORITY
  permanentDelegate := mint.payload? PERMANENT_DELEGATE
  defaultAccountState := mint.payload? DEFAULT_ACCOUNT_STATE
  transferHookAuthority := (mint.payload? TRANSFER_HOOK).map (·.take 32)
  transferHookProgram := (mint.payload? TRANSFER_HOOK).map (·.drop 32)
  pauseAuthority := (mint.payload? PAUSABLE).map (·.take 32)
  confidentialTransfer := mint.payload? CONFIDENTIAL_TRANSFER_MINT

/-- The extension types of a mint. -/
def Mint.extensionTypes (mint : Mint) : Set UInt16 :=
  {type | type ∈ mint.extensions.map Extension.type}

/-- Sorting adds and drops no type. -/
theorem mem_sortedTypes : type ∈ mint.sortedTypes ↔ type ∈ mint.extensionTypes :=
  (List.perm_insertionSort _ _).mem_iff

theorem payload?_eq_none : mint.payload? type = none ↔ type ∉ mint.extensionTypes := by
  simp [Mint.payload?, Mint.extensionTypes]

/-- The bytes of an optional key say which key. -/
theorem coptionPubkeyBytes_inj {a a' : Option Pubkey}
    (h : coptionPubkeyBytes host a = coptionPubkeyBytes host a') :
    a.map host.addressBytes = a'.map host.addressBytes := by
  cases a with
  | none => cases a' with
    | none => rfl
    | some k' => simp [coptionPubkeyBytes] at h
  | some k => cases a' with
    | none => simp [coptionPubkeyBytes] at h
    | some k' =>
      simp only [coptionPubkeyBytes, List.cons.injEq, true_and] at h
      exact congrArg some (List.Vector.toList_injective h)

theorem length_coptionPubkeyBytes (a : Option Pubkey) :
    (coptionPubkeyBytes host a).length = 33 := by
  cases a <;> simp [coptionPubkeyBytes]

/-- The base of a preimage says whose it is. -/
theorem fingerprintBase_inj (h : fingerprintBase host key mint = fingerprintBase host key' mint') :
    host.addressBytes key = host.addressBytes key' ∧
      mint.mintAuthority.map host.addressBytes = mint'.mintAuthority.map host.addressBytes ∧
      mint.freezeAuthority.map host.addressBytes = mint'.freezeAuthority.map host.addressBytes := by
  simp only [fingerprintBase] at h
  obtain ⟨h, hfreeze⟩ := List.append_inj' h (by simp [length_coptionPubkeyBytes])
  obtain ⟨h, hmint⟩ := List.append_inj' h (by simp [length_coptionPubkeyBytes])
  obtain ⟨-, hkey⟩ := List.append_inj' h (by simp)
  exact ⟨List.Vector.toList_injective hkey, coptionPubkeyBytes_inj hmint,
    coptionPubkeyBytes_inj hfreeze⟩

theorem coptionPubkeyBytes_congr {a a' : Option Pubkey}
    (h : a.map host.addressBytes = a'.map host.addressBytes) :
    coptionPubkeyBytes host a = coptionPubkeyBytes host a' := by
  cases a <;> cases a' <;> simp_all [coptionPubkeyBytes]

/-- A payload is its first thirty-two bytes and the rest. -/
theorem map_take_drop_inj {a a' : Option (List UInt8)}
    (htake : a.map (·.take 32) = a'.map (·.take 32))
    (hdrop : a.map (·.drop 32) = a'.map (·.drop 32)) : a = a' := by
  cases a with
  | none => cases a' with
    | none => rfl
    | some d' => cases htake
  | some d => cases a' with
    | none => cases htake
    | some d' =>
      have hfirst : d.take 32 = d'.take 32 := Option.some.inj htake
      have hrest : d.drop 32 = d'.drop 32 := Option.some.inj hdrop
      rw [← List.take_append_drop 32 d, ← List.take_append_drop 32 d', hfirst, hrest]

/-- The control part of every extension with a layout, if it is there. -/
def Mint.part? (mint : Mint) (type : UInt16) : Option (List UInt8) :=
  (mint.payload? type).map (controlPart type)

/-- The controls are the authorities and the control parts of the extensions. -/
theorem controls_eq_iff : mint.controls host = mint'.controls host ↔
    mint.mintAuthority.map host.addressBytes = mint'.mintAuthority.map host.addressBytes ∧
    mint.freezeAuthority.map host.addressBytes = mint'.freezeAuthority.map host.addressBytes ∧
    ∀ type size, layoutSize type = some size → mint.part? type = mint'.part? type := by
  -- Of these extensions the whole payload is a control.
  have hwhole : ∀ (m : Mint) type, controlPart type = id → m.part? type = m.payload? type := by
    intro m type hid
    rw [Mint.part?, hid, Option.map_id, id]
  have hclose : controlPart MINT_CLOSE_AUTHORITY = id := rfl
  have hdelegate : controlPart PERMANENT_DELEGATE = id := rfl
  have hdefault : controlPart DEFAULT_ACCOUNT_STATE = id := rfl
  have hhook : controlPart TRANSFER_HOOK = id := rfl
  have hconfidential : controlPart CONFIDENTIAL_TRANSFER_MINT = id := rfl
  constructor
  · intro h
    obtain ⟨hmint, hfreeze, hscale, hpointer, hcloseEq, hdelegateEq,
      hdefaultEq, hhookAuthority, hhookProgram, hpause, hconfidentialEq⟩ := IssuerControls.mk.inj h
    refine ⟨hmint, hfreeze, fun type size hsize => ?_⟩
    have hcases := layoutSize_cases hsize
    simp only [List.mem_cons, List.not_mem_nil, or_false, Prod.mk.injEq] at hcases
    rcases hcases with ⟨rfl, -⟩ | ⟨rfl, -⟩ | ⟨rfl, -⟩ | ⟨rfl, -⟩ | ⟨rfl, -⟩
      | ⟨rfl, -⟩ | ⟨rfl, -⟩ | ⟨rfl, -⟩
    · exact hscale
    · exact hpointer
    · rw [hwhole _ _ hhook, hwhole _ _ hhook]
      exact map_take_drop_inj hhookAuthority hhookProgram
    · rw [hwhole _ _ hclose, hwhole _ _ hclose]
      exact hcloseEq
    · rw [hwhole _ _ hdelegate, hwhole _ _ hdelegate]
      exact hdelegateEq
    · rw [hwhole _ _ hdefault, hwhole _ _ hdefault]
      exact hdefaultEq
    · exact hpause
    · rw [hwhole _ _ hconfidential, hwhole _ _ hconfidential]
      exact hconfidentialEq
  · rintro ⟨hmint, hfreeze, hparts⟩
    have hpayload : ∀ type size, layoutSize type = some size → controlPart type = id →
        mint.payload? type = mint'.payload? type := by
      intro type size hsize hid
      rw [← hwhole _ _ hid, ← hwhole _ _ hid]
      exact hparts type size hsize
    have hhookEq := hpayload TRANSFER_HOOK 64 rfl hhook
    simp only [Mint.controls, IssuerControls.mk.injEq]
    exact ⟨hmint, hfreeze, hparts SCALED_UI_AMOUNT 56 rfl, hparts METADATA_POINTER 64 rfl,
      hpayload _ 32 rfl hclose, hpayload _ 32 rfl hdelegate, hpayload _ 1 rfl hdefault,
      by rw [hhookEq], by rw [hhookEq], hparts PAUSABLE 33 rfl, hpayload _ 65 rfl hconfidential⟩

/-- Where neighbours in sorted order differ, all differ. -/
theorem nodup_of_isChain_ne {types : List UInt16} (hsorted : types.Pairwise (· ≤ ·))
    (h : types.IsChain (· ≠ ·)) : types.Nodup := by
  induction types with
  | nil => exact List.nodup_nil
  | cons a types ih =>
    obtain ⟨hle, hsorted'⟩ := List.pairwise_cons.mp hsorted
    refine List.nodup_cons.mpr ⟨fun hmem => ?_, ih hsorted' h.tail⟩
    cases types with
    | nil => cases hmem
    | cons b types =>
      -- the first of the rest is above it, and so is all that follows
      have hne : a ≠ b := (List.isChain_cons_cons.mp h).1
      have hab : a ≤ b := hle b List.mem_cons_self
      have hba : b ≤ a := by
        rcases List.mem_cons.mp hmem with rfl | hmem
        · exact UInt16.le_refl a
        · exact (List.pairwise_cons.mp hsorted').1 a hmem
      exact hne (UInt16.le_antisymm hab hba)

theorem Mint.sortedTypes_sorted (mint : Mint) : mint.sortedTypes.Pairwise (· ≤ ·) :=
  List.pairwise_insertionSort _ _

/-- Two accepted mints with the same types visit them in the same order. -/
theorem sortedTypes_eq (h : mint.sortedTypes.IsChain (· ≠ ·))
    (h' : mint'.sortedTypes.IsChain (· ≠ ·))
    (htypes : mint.extensionTypes = mint'.extensionTypes) :
    mint.sortedTypes = mint'.sortedTypes := by
  have hperm : mint.sortedTypes.Perm mint'.sortedTypes := by
    rw [List.perm_ext_iff_of_nodup (nodup_of_isChain_ne mint.sortedTypes_sorted h)
      (nodup_of_isChain_ne mint'.sortedTypes_sorted h')]
    intro type
    rw [mem_sortedTypes, mem_sortedTypes, htypes]
  exact hperm.eq_of_pairwise (fun _ _ _ _ => UInt16.le_antisymm) mint.sortedTypes_sorted
    mint'.sortedTypes_sorted

/-- What is compared of a control is what is hashed. -/
theorem Passes.part? (h : Passes mint type) {size : Nat} (hsize : layoutSize type = some size) :
    mint.part? type = some (mint.control type) := by
  rcases h with rfl | ⟨data, hfits⟩
  · cases hsize
  · rw [Mint.part?, hfits.control, hfits.payload]
    rfl

/-- **The preimage stands for the controls**: two accepted mints have the same preimage exactly if
address, extension types and controls are the same. -/
theorem controlsPreimage_eq_iff (h : inspectMintForExit host key mint now = .ok profile)
    (h' : inspectMintForExit host key' mint' now' = .ok profile') :
    controlsPreimage host key mint now = controlsPreimage host key' mint' now' ↔
      host.addressBytes key = host.addressBytes key' ∧
      mint.extensionTypes = mint'.extensionTypes ∧ mint.controls host = mint'.controls host := by
  have hpasses := fun type (hmem : type ∈ mint.sortedTypes) => passes_of_accepted h hmem
  have hpasses' := fun type (hmem : type ∈ mint'.sortedTypes) => passes_of_accepted h' hmem
  rw [controlsPreimage_of_accepted h, controlsPreimage_of_accepted h',
    Except.ok.injEq, controls_eq_iff]
  constructor
  · intro heq
    -- The base has one length, so the sections of the extensions are compared on their own.
    have hlength : (fingerprintBase host key mint).length =
        (fingerprintBase host key' mint').length := by
      simp [fingerprintBase, length_coptionPubkeyBytes]
    obtain ⟨hbase, hsections⟩ := List.append_inj heq hlength
    obtain ⟨hkey, hmint, hfreeze⟩ := fingerprintBase_inj hbase
    obtain ⟨htypes, hcontrol⟩ := flatMap_controlSection_inj hpasses hpasses' hsections
    have hset : mint.extensionTypes = mint'.extensionTypes := by
      ext type
      rw [← mem_sortedTypes, ← mem_sortedTypes, htypes]
    refine ⟨hkey, hset, hmint, hfreeze, fun type size hsize => ?_⟩
    by_cases hmem : type ∈ mint.sortedTypes
    · rw [(hpasses type hmem).part? hsize, (hpasses' type (htypes ▸ hmem)).part? hsize,
        hcontrol type hmem]
    · -- neither has the extension
      rw [mem_sortedTypes] at hmem
      rw [Mint.part?, Mint.part?, payload?_eq_none.mpr hmem, payload?_eq_none.mpr (hset ▸ hmem)]
  · rintro ⟨hkey, hset, hmint, hfreeze, hparts⟩
    have hchain := (inspectMintInner_eq_ok.mp h).2.2.2.1
    have hchain' := (inspectMintInner_eq_ok.mp h').2.2.2.1
    have htypes := sortedTypes_eq hchain hchain' hset
    have hbase : fingerprintBase host key mint = fingerprintBase host key' mint' := by
      simp only [fingerprintBase, hkey, coptionPubkeyBytes_congr hmint,
        coptionPubkeyBytes_congr hfreeze]
    rw [hbase, ← htypes]
    refine congrArg _ (List.flatMap_congr fun type hmem => ?_)
    have hcontrol : mint.control type = mint'.control type := by
      rcases hpasses type hmem with rfl | ⟨data, hfits⟩
      · rfl
      · have hpart := hparts type _ hfits.size
        rw [(hpasses type hmem).part? hfits.size,
          (hpasses' type (htypes ▸ hmem)).part? hfits.size] at hpart
        exact Option.some.inj hpart
    rw [Mint.controlSection, Mint.controlSection, hcontrol]

/-- A mint with display metadata that can be paused, its multiplier 1. -/
def pausableMint : Mint :=
  { Sample.mint with
    extensions := Sample.mint.extensions ++ [⟨PAUSABLE, List.replicate 32 0x12 ++ [0]⟩,
      ⟨TOKEN_METADATA, [1, 2]⟩] }

/-- The same with other metadata, a multiplier 2 and the entries the other way round. -/
def shuffledMint : Mint :=
  { Sample.mint with
    extensions := [⟨TOKEN_METADATA, [3]⟩, ⟨PAUSABLE, List.replicate 32 0x12 ++ [0]⟩,
      ⟨SCALED_UI_AMOUNT, List.replicate 32 0x11
        ++ [0, 0, 0, 0, 0, 0, 0, 0x40] ++ List.replicate 8 1 ++ [0, 0, 0, 0, 0, 0, 0, 0x40]⟩] }

/-- Two mints that differ in display metadata, multipliers and the order of their entries have one
preimage. -/
theorem controlsPreimage_eq_iff_sample :
    controlsPreimage Sample.host Sample.mintKey pausableMint 0
      = controlsPreimage Sample.host Sample.mintKey shuffledMint 1 := by
  have haccepted : (inspectMintForExit Sample.host Sample.mintKey pausableMint 0).toOption.isSome =
      true := by
    decide +kernel
  have haccepted' : (inspectMintForExit Sample.host Sample.mintKey shuffledMint 1).toOption.isSome =
      true := by
    decide +kernel
  obtain ⟨profile, h⟩ := Option.isSome_iff_exists.mp haccepted
  obtain ⟨profile', h'⟩ := Option.isSome_iff_exists.mp haccepted'
  rw [Result.toOption_eq_some] at h h'
  refine (controlsPreimage_eq_iff h h').mpr ⟨rfl, ?_, by decide +kernel⟩
  ext type
  simp [Mint.extensionTypes, pausableMint, shuffledMint, Sample.mint]
  tauto

end DividendX
