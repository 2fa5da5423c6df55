import DividendX.Sdk.Arithmetic
import DividendX.Handlers

/-!
# The client's look at a mint

`token-profile.ts`: the client inspects the collateral mint in the snapshot it quotes from, with the
same fingerprint as the program, and remembers apart whether both multipliers are admissible.

`inspectMintProfile_agrees` is all that is used later: a mint the client accepts passes the
program's exit inspection with the same profile, and passes the full inspection exactly when the
client calls its factors supported.
-/

namespace DividendX

open LittleEndian Binary64

/-- The length of an extension with a fixed layout. -/
def layoutSize (type : UInt16) : Option Nat :=
  if type = SCALED_UI_AMOUNT then some 56
  else if type = METADATA_POINTER ∨ type = TRANSFER_HOOK then some 64
  else if type = MINT_CLOSE_AUTHORITY ∨ type = PERMANENT_DELEGATE then some 32
  else if type = DEFAULT_ACCOUNT_STATE then some 1
  else if type = PAUSABLE then some 33
  else if type = CONFIDENTIAL_TRANSFER_MINT then some 65
  else none

/-- Token-2022 stores an extension with the length of its layout. -/
def Mint.laidOut (m : Mint) : Bool :=
  m.extensions.all fun e => (layoutSize e.type).all fun size => e.data.length == size

namespace Sdk

/-! ## The inspection -/

/-- The clock sysvar as the client decodes it, as far as quotes read it. -/
structure ChainClock where
  slot : Int
  unixTimestamp : Int
  deriving DecidableEq

/-- `ScaleTuple`. -/
structure ScaleTuple where
  currentBits : Int
  pendingBits : Int
  pendingEffectiveTimestamp : Int
  activeBits : Int
  deriving DecidableEq

/-- `InspectedMintProfile`. -/
structure InspectedMintProfile where
  decimals : Int
  extensionsMask : Int
  scale : ScaleTuple
  controlsFingerprint : Bytes32
  accountingFactorsSupported : Bool
  deriving DecidableEq

/-- `ALLOWED`. -/
def ALLOWED : List UInt16 :=
  [SCALED_UI_AMOUNT, METADATA_POINTER, TOKEN_METADATA, MINT_CLOSE_AUTHORITY, PERMANENT_DELEGATE,
    DEFAULT_ACCOUNT_STATE, TRANSFER_HOOK, PAUSABLE, CONFIDENTIAL_TRANSFER_MINT]

/-- The variables of the loop of `inspectMintProfile`. -/
structure Scan where
  extensionsMask : Nat
  fingerprintParts : List UInt8
  scale : Option ScaleTuple
  accountingFactorsSupported : Bool

/-- `optionPublicKey`. -/
def optionPublicKey (host : Host) (value : Option Pubkey) : List UInt8 :=
  (if value.isSome then 1 else 0) ::
    (value.elim (List.replicate 32 0) fun key => (host.addressBytes key).toList)

/-- `extensionData`. -/
def extensionData (mint : Mint) (type : UInt16) : Thrown (List UInt8) := do
  let entry ← Result.okOr (mint.extensions.find? fun e => e.type == type)
    ⟨.rpcAccountMissing, "mint extension " ++ toString type ++ " data is missing"⟩
  return entry.data

/-- Both multipliers decode. -/
def factorsSupported (currentBits pendingBits : Int) : Bool :=
  match decodeCanonicalMultiplier currentBits, decodeCanonicalMultiplier pendingBits with
  | .ok _, .ok _ => true
  | _, _ => false

/-- The switch over the extension types: the scale, and the part of the data that is a control. -/
def scanData (clock : ChainClock) (st : Scan) (type : UInt16) (data : List UInt8) :
    Thrown Scan :=
  if type = SCALED_UI_AMOUNT then do
    invariant (data.length = 56) .invalidSeries "ScaledUiAmount extension length is invalid"
    let currentBits : Int := (wordAt data 32).toNat
    let pendingEffectiveTimestamp : Int := (wordAt data 40).toInt64.toInt
    let pendingBits : Int := (wordAt data 48).toNat
    return { st with
      accountingFactorsSupported := factorsSupported currentBits pendingBits
      scale := some
        { currentBits := currentBits, pendingBits := pendingBits,
          pendingEffectiveTimestamp := pendingEffectiveTimestamp,
          activeBits := if pendingEffectiveTimestamp ≤ clock.unixTimestamp then pendingBits
            else currentBits }
      fingerprintParts := st.fingerprintParts ++ data.take 32 }
  else if type = METADATA_POINTER ∨ type = PAUSABLE then
    return { st with fingerprintParts := st.fingerprintParts ++ data.take 32 }
  else if type = TOKEN_METADATA then
    return st
  else
    return { st with fingerprintParts := st.fingerprintParts ++ data }

/-- One turn of the loop of `inspectMintProfile`. -/
def scanExtension (mint : Mint) (clock : ChainClock) (st : Scan) (type : UInt16) :
    Thrown Scan := do
  invariant (type < 64 ∧ type ∈ ALLOWED) .invalidSeries
    ("unsupported collateral mint extension " ++ toString type)
  let st : Scan := { st with
    extensionsMask := st.extensionsMask ||| (1 <<< type.toNat)
    fingerprintParts := st.fingerprintParts ++ fixed 2 type.toNat }
  let data ← extensionData mint type
  let st ← scanData clock st type data
  Result.checkWhen (type = DEFAULT_ACCOUNT_STATE)
    (invariant (data = [1]) .invalidSeries "default token account state is not Initialized")
  Result.checkWhen (type = TRANSFER_HOOK)
    (invariant (data.length = 64 ∧ (data.drop 32).all (· = 0)) .invalidSeries
      "collateral mint has an active transfer hook")
  Result.checkWhen (type = PAUSABLE)
    (invariant (data.length = 33 ∧ data.getD 32 0 = 0) .invalidSeries "collateral mint is paused")
  return st

/-- `inspectMintProfile`. -/
def inspectMintProfile (host : Host) (address : Pubkey) (mint : Mint) (clock : ChainClock) :
    Thrown InspectedMintProfile := do
  invariant (mint.isInitialized = true) .invalidSeries "collateral mint is uninitialized"
  invariant (mint.decimals = 6 ∨ mint.decimals = 8 ∨ mint.decimals = 9) .invalidSeries
    "collateral mint decimals must be 6, 8 or 9"
  invariant mint.sortedTypes.Nodup .invalidSeries "collateral mint has duplicate extensions"
  let st ← mint.sortedTypes.foldlM (scanExtension mint clock)
    { extensionsMask := 0
      fingerprintParts := "dividendx:mint-controls:v1".toUTF8.data.toList
        ++ (host.addressBytes address).toList ++ optionPublicKey host mint.mintAuthority
        ++ optionPublicKey host mint.freezeAuthority
      scale := none
      accountingFactorsSupported := false }
  let scale ← Result.okOr st.scale ⟨.invalidSeries, "collateral mint lacks ScaledUiAmount"⟩
  return { decimals := mint.decimals.toNat, extensionsMask := st.extensionsMask, scale := scale,
           controlsFingerprint := host.sha256 st.fingerprintParts,
           accountingFactorsSupported := st.accountingFactorsSupported }

/-! ## One extension -/

/-- The program's scale, as the client writes it. -/
def ScaleTuple.ofProgram (scale : DividendX.ScaleTuple) : ScaleTuple :=
  { currentBits := scale.currentBits.toNat, pendingBits := scale.newBits.toNat,
    pendingEffectiveTimestamp := scale.effectiveTimestamp.toInt,
    activeBits := scale.activeBits.toNat }

theorem optionPublicKey_eq (host : Host) (value : Option Pubkey) :
    optionPublicKey host value = coptionPubkeyBytes host value := by
  cases value <;> rfl

theorem factorsSupported_iff {a b : UInt64} :
    factorsSupported a.toNat b.toNat = true ↔ Admissible a ∧ Admissible b := by
  have hok : ∀ x : UInt64, (∃ v, decodeCanonicalMultiplier x.toNat = .ok v) ↔ Admissible x :=
    fun x => ⟨fun ⟨v, hv⟩ => (decodeCanonicalMultiplier_eq_ok.mp hv).1,
      fun hx => ⟨_, decodeCanonicalMultiplier_eq_ok.mpr ⟨hx, rfl⟩⟩⟩
  rw [← hok a, ← hok b, factorsSupported]
  split
  · rename_i va vb ha hb
    exact iff_of_true rfl ⟨⟨va, ha⟩, ⟨vb, hb⟩⟩
  · rename_i hnot
    refine iff_of_false (by simp) ?_
    rintro ⟨⟨va, ha⟩, ⟨vb, hb⟩⟩
    exact hnot va vb ha hb

/-- The bit of an extension type in the mask. -/
theorem toNat_mask {mask : UInt64} {type : UInt16} (h : type < 64) :
    (mask ||| (1 <<< type.toUInt64)).toNat = mask.toNat ||| (1 <<< type.toNat) := by
  have ht : type.toNat < 64 := UInt16.lt_iff_toNat_lt.mp h
  have hpow : (1 : Nat) <<< type.toNat < 2 ^ 64 := by
    rw [Nat.one_shiftLeft]
    exact Nat.pow_lt_pow_right (by norm_num) ht
  rw [UInt64.toNat_or, UInt64.toNat_shiftLeft, UInt16.toNat_toUInt64, Nat.mod_eq_of_lt ht]
  congr 1
  exact Nat.mod_eq_of_lt hpow

theorem extensionData_eq_ok {mint : Mint} {type : UInt16} {data : List UInt8} :
    extensionData mint type = .ok data ↔
      ∃ e, mint.extensions.find? (fun e => e.type == type) = some e ∧ e.data = data := by
  simp only [extensionData, Result.bind_eq_ok, Result.okOr_eq_ok, Result.pure_eq_ok]

/-- Data of the right length is what the program reads. -/
theorem getExtension_of_extensionData {mint : Mint} {type : UInt16} {data : List UInt8} {size : Nat}
    (h : extensionData mint type = .ok data) (hlen : data.length = size) :
    mint.getExtension type size = .ok data := by
  obtain ⟨e, he, rfl⟩ := extensionData_eq_ok.mp h
  simp only [Mint.getExtension, Result.bind_eq_ok, Result.okOr_eq_ok, Result.require_eq_ok,
    Result.exists_unit, Result.pure_eq_ok]
  exact ⟨e, he, hlen, rfl⟩

/-- Data has the length of its layout. -/
theorem length_of_laidOut {mint : Mint} {type : UInt16} {data : List UInt8} {size : Nat}
    (hl : mint.laidOut = true) (h : extensionData mint type = .ok data)
    (hsize : layoutSize type = some size) : data.length = size := by
  obtain ⟨e, he, rfl⟩ := extensionData_eq_ok.mp h
  have hfound := List.find?_some he
  have htype : e.type = type := eq_of_beq hfound
  have hall := List.all_eq_true.mp hl e (List.mem_of_find?_eq_some he)
  rw [htype, hsize] at hall
  exact eq_of_beq hall

/-- The multipliers of a mint are admissible. -/
def FactorsOk (mint : Mint) : Prop :=
  ∃ data, mint.getExtension SCALED_UI_AMOUNT 56 = .ok data ∧ Admissible (wordAt data 32) ∧
    Admissible (wordAt data 48)

/-- The two loops carry the same values. -/
structure Scan.Matches (mint : Mint) (st : Scan) (ins : Inspection) : Prop where
  mask : ins.mask.toNat = st.extensionsMask
  fingerprint : ins.fingerprint = st.fingerprintParts
  scale : st.scale = ins.scale.map ScaleTuple.ofProgram
  factors : st.accountingFactorsSupported = true ↔ ins.scale.isSome = true ∧ FactorsOk mint

/-- The last byte of a payload of thirty-three. -/
theorem drop_eq_singleton {data : List UInt8} {b : UInt8} (hlen : data.length = 33)
    (hlast : data.getD 32 0 = b) : data.drop 32 = [b] := by
  have hlt : 32 < data.length := by omega
  rw [List.drop_eq_getElem_cons hlt, List.drop_of_length_le (by omega), ← hlast,
    List.getD_eq_getElem?_getD, List.getElem?_eq_getElem hlt, Option.getD_some]

section Step

variable {mint : Mint} {clock : ChainClock} {now : Int64} {st st' : Scan} {ins : Inspection}
  {type : UInt16} {data : List UInt8}

/-- The loop variables after the type number went into mask and fingerprint. -/
theorem Scan.Matches.enter (h : Scan.Matches mint st ins) (ht : type < 64) :
    Scan.Matches mint
      { st with extensionsMask := st.extensionsMask ||| (1 <<< type.toNat)
                fingerprintParts := st.fingerprintParts ++ fixed 2 type.toNat }
      { ins with mask := ins.mask ||| (1 <<< type.toUInt64)
                 fingerprint := ins.fingerprint ++ fixed 2 type.toNat } := by
  refine ⟨?_, ?_, h.scale, h.factors⟩
  · rw [toNat_mask ht, h.mask]
  · rw [h.fingerprint]

/-- Control bytes go into both fingerprints. -/
theorem Scan.Matches.push (h : Scan.Matches mint st ins) (bytes : List UInt8) :
    Scan.Matches mint { st with fingerprintParts := st.fingerprintParts ++ bytes }
      (ins.push bytes) := by
  refine ⟨h.mask, ?_, h.scale, h.factors⟩
  rw [Inspection.push, h.fingerprint]

/-- The scale goes into both, and the client notes whether its multipliers are admissible. -/
theorem Scan.Matches.scaled (h : Scan.Matches mint st ins)
    (hclock : clock.unixTimestamp = now.toInt)
    (hget : mint.getExtension SCALED_UI_AMOUNT 56 = .ok data) :
    Scan.Matches mint
      { st with
        accountingFactorsSupported :=
          factorsSupported (wordAt data 32).toNat (wordAt data 48).toNat
        scale := some
          { currentBits := (wordAt data 32).toNat, pendingBits := (wordAt data 48).toNat,
            pendingEffectiveTimestamp := (wordAt data 40).toInt64.toInt,
            activeBits := if (wordAt data 40).toInt64.toInt ≤ clock.unixTimestamp
              then (wordAt data 48).toNat else (wordAt data 32).toNat }
        fingerprintParts := st.fingerprintParts ++ data.take 32 }
      (Inspection.push { ins with
        scale := some
          ⟨wordAt data 32, wordAt data 48, (wordAt data 40).toInt64,
            if (wordAt data 40).toInt64 ≤ now then wordAt data 48 else wordAt data 32⟩ }
        (data.take 32)) := by
  refine ⟨h.mask, ?_, ?_, ?_⟩
  · rw [Inspection.push, h.fingerprint]
  · have hactive : ((wordAt data 40).toInt64.toInt ≤ clock.unixTimestamp) ↔
        (wordAt data 40).toInt64 ≤ now := by
      rw [hclock]
      exact Int64.le_iff_toInt_le.symm
    change some _ = some (ScaleTuple.ofProgram _)
    rw [ScaleTuple.ofProgram, if_congr hactive rfl rfl]
    by_cases hle : (wordAt data 40).toInt64 ≤ now
    · rw [if_pos hle, if_pos hle]
    · rw [if_neg hle, if_neg hle]
  · change factorsSupported _ _ = true ↔ true = true ∧ FactorsOk mint
    rw [factorsSupported_iff]
    constructor
    · intro hboth
      exact ⟨rfl, data, hget, hboth⟩
    · rintro ⟨-, data', hget', hboth⟩
      cases hget.symm.trans hget'
      exact hboth

/-- **One extension**: what the client accepts the program accepts, with the same values. -/
theorem scanExtension_agrees (hclock : clock.unixTimestamp = now.toInt)
    (hl : mint.laidOut = true) (hm : Scan.Matches mint st ins)
    (h : scanExtension mint clock st type = .ok st') :
    ∃ ins', inspectExtension mint now false ins type = .ok ins' ∧ Scan.Matches mint st' ins' := by
  simp only [scanExtension, Result.bind_eq_ok, Result.exists_unit, Result.pure_eq_ok,
    invariant_eq_ok, Result.checkWhen_eq_ok] at h
  obtain ⟨⟨ht, hallowed⟩, data, hdata, st₁, hscan, hdefault, hhook, hpause, rfl⟩ := h
  have henter := hm.enter ht
  have hread : ∀ size, layoutSize type = some size → mint.getExtension type size = .ok data :=
    fun size hsize => getExtension_of_extensionData hdata (length_of_laidOut hl hdata hsize)
  simp only [inspectExtension, Result.bind_eq_ok, Result.require_eq_ok, Result.exists_unit]
  simp only [ALLOWED, List.mem_cons, List.not_mem_nil, or_false] at hallowed
  rcases hallowed with rfl | rfl | rfl | rfl | rfl | rfl | rfl | rfl | rfl
  · -- the scale
    rw [scanData, if_pos rfl] at hscan
    simp only [Result.bind_eq_ok, invariant_eq_ok, Result.exists_unit, Result.pure_eq_ok] at hscan
    obtain ⟨-, rfl⟩ := hscan
    have hget := hread 56 (by decide)
    refine ⟨_, ⟨ht, ?_⟩, henter.scaled hclock hget⟩
    rw [if_pos rfl]
    exact Result.bind_eq_ok.mpr ⟨data, hget, rfl⟩
  · rw [scanData, if_neg (by decide), if_pos (by decide)] at hscan
    cases hscan
    refine ⟨_, ⟨ht, ?_⟩, henter.push (data.take 32)⟩
    rw [if_neg (by decide), if_pos rfl]
    exact Result.bind_eq_ok.mpr ⟨data, hread 64 (by decide), rfl⟩
  · rw [scanData, if_neg (by decide), if_neg (by decide), if_pos rfl] at hscan
    cases hscan
    refine ⟨_, ⟨ht, ?_⟩, henter⟩
    rw [if_neg (by decide), if_neg (by decide), if_pos rfl]
    rfl
  · rw [scanData, if_neg (by decide), if_neg (by decide), if_neg (by decide)] at hscan
    cases hscan
    refine ⟨_, ⟨ht, ?_⟩, henter.push data⟩
    rw [if_neg (by decide), if_neg (by decide), if_neg (by decide), if_pos (by decide)]
    exact Result.bind_eq_ok.mpr ⟨data, hread 32 (by decide), rfl⟩
  · rw [scanData, if_neg (by decide), if_neg (by decide), if_neg (by decide)] at hscan
    cases hscan
    refine ⟨_, ⟨ht, ?_⟩, henter.push data⟩
    rw [if_neg (by decide), if_neg (by decide), if_neg (by decide), if_pos (by decide)]
    exact Result.bind_eq_ok.mpr ⟨data, hread 32 (by decide), rfl⟩
  · rw [scanData, if_neg (by decide), if_neg (by decide), if_neg (by decide)] at hscan
    cases hscan
    refine ⟨_, ⟨ht, ?_⟩, henter.push data⟩
    rw [if_neg (by decide), if_neg (by decide), if_neg (by decide), if_neg (by decide), if_pos rfl]
    refine Result.bind_eq_ok.mpr ⟨data, hread 1 (by decide), Result.bind_eq_ok.mpr ⟨(), ?_, rfl⟩⟩
    exact Result.require_eq_ok.mpr (hdefault rfl)
  · rw [scanData, if_neg (by decide), if_neg (by decide), if_neg (by decide)] at hscan
    cases hscan
    refine ⟨_, ⟨ht, ?_⟩, henter.push data⟩
    rw [if_neg (by decide), if_neg (by decide), if_neg (by decide), if_neg (by decide),
      if_neg (by decide), if_pos rfl]
    refine Result.bind_eq_ok.mpr ⟨data, hread 64 (by decide), Result.bind_eq_ok.mpr ⟨(), ?_, rfl⟩⟩
    obtain ⟨hlen, hzero⟩ := hhook rfl
    simp only [List.all_eq_true, decide_eq_true_eq] at hzero
    refine Result.require_eq_ok.mpr (List.eq_replicate_iff.mpr ⟨?_, hzero⟩)
    rw [List.length_drop, hlen]
  · rw [scanData, if_neg (by decide), if_pos (by decide)] at hscan
    cases hscan
    refine ⟨_, ⟨ht, ?_⟩, henter.push (data.take 32)⟩
    rw [if_neg (by decide), if_neg (by decide), if_neg (by decide), if_neg (by decide),
      if_neg (by decide), if_neg (by decide), if_pos rfl]
    refine Result.bind_eq_ok.mpr ⟨data, hread 33 (by decide), Result.bind_eq_ok.mpr ⟨(), ?_, rfl⟩⟩
    obtain ⟨hlen, hzero⟩ := hpause rfl
    exact Result.require_eq_ok.mpr (drop_eq_singleton hlen hzero)
  · rw [scanData, if_neg (by decide), if_neg (by decide), if_neg (by decide)] at hscan
    cases hscan
    refine ⟨_, ⟨ht, ?_⟩, henter.push data⟩
    rw [if_neg (by decide), if_neg (by decide), if_neg (by decide), if_neg (by decide),
      if_neg (by decide), if_neg (by decide), if_neg (by decide), if_pos rfl]
    exact Result.bind_eq_ok.mpr ⟨data, hread 65 (by decide), rfl⟩

/-- Over any list of types the program follows the client. -/
theorem foldlM_scanExtension_agrees (hclock : clock.unixTimestamp = now.toInt)
    (hl : mint.laidOut = true) {types : List UInt16} (hm : Scan.Matches mint st ins)
    (h : types.foldlM (scanExtension mint clock) st = .ok st') :
    ∃ ins', types.foldlM (inspectExtension mint now false) ins = .ok ins' ∧
      Scan.Matches mint st' ins' := by
  induction types generalizing st ins with
  | nil =>
    cases h
    exact ⟨ins, rfl, hm⟩
  | cons type types ih =>
    rw [List.foldlM_cons, Result.bind_eq_ok] at h
    obtain ⟨st₁, hfirst, hrest⟩ := h
    obtain ⟨ins₁, hins₁, hm₁⟩ := scanExtension_agrees hclock hl hm hfirst
    obtain ⟨ins', hins', hm'⟩ := ih hm₁ hrest
    rw [List.foldlM_cons]
    exact ⟨ins', Result.bind_eq_ok.mpr ⟨ins₁, hins₁, hins'⟩, hm'⟩

/-! ## The bounds on the multipliers -/

/-- The full inspection asks for nothing but admissible multipliers beyond the exit inspection. -/
theorem inspectExtension_bounds {ins' : Inspection} :
    inspectExtension mint now true ins type = .ok ins' ↔
      inspectExtension mint now false ins type = .ok ins' ∧
        (type = SCALED_UI_AMOUNT → FactorsOk mint) := by
  by_cases hscale : type = SCALED_UI_AMOUNT
  · subst hscale
    simp only [inspectExtension, if_true, Bool.false_eq_true, if_false, Result.bind_eq_ok,
      Result.require_eq_ok, Result.exists_unit, Result.pure_eq_ok, FactorsOk, forall_const]
    constructor
    · rintro ⟨ht, data, hget, f, hf, g, hg, rfl⟩
      exact ⟨⟨ht, data, hget, rfl⟩, data, hget, (decodeMultiplier_eq_ok.mp hf).1,
        (decodeMultiplier_eq_ok.mp hg).1⟩
    · rintro ⟨⟨ht, data, hget, rfl⟩, data', hget', h0, h1⟩
      cases hget.symm.trans hget'
      obtain ⟨f, hf⟩ := exists_decodeMultiplier.mpr h0
      obtain ⟨g, hg⟩ := exists_decodeMultiplier.mpr h1
      exact ⟨ht, data, hget, f, hf, g, hg, rfl⟩
  · simp only [inspectExtension, hscale, if_false, false_imp_iff, and_true]

theorem foldlM_inspectExtension_bounds {types : List UInt16} {ins' : Inspection} :
    types.foldlM (inspectExtension mint now true) ins = .ok ins' ↔
      types.foldlM (inspectExtension mint now false) ins = .ok ins' ∧
        (SCALED_UI_AMOUNT ∈ types → FactorsOk mint) := by
  induction types generalizing ins with
  | nil => simp only [List.foldlM_nil, List.not_mem_nil, false_imp_iff, and_true]
  | cons type types ih =>
    simp only [List.foldlM_cons, Result.bind_eq_ok, inspectExtension_bounds, ih, List.mem_cons]
    constructor
    · rintro ⟨ins₁, ⟨hfirst, hscale⟩, hrest, hlater⟩
      refine ⟨⟨ins₁, hfirst, hrest⟩, ?_⟩
      rintro (htype | hmem)
      · exact hscale htype.symm
      · exact hlater hmem
    · rintro ⟨⟨ins₁, hfirst, hrest⟩, hfactors⟩
      exact ⟨ins₁, ⟨hfirst, fun htype => hfactors (.inl htype.symm)⟩, hrest,
        fun hmem => hfactors (.inr hmem)⟩

theorem scale_scanExtension (h : scanExtension mint clock st type = .ok st')
    (hne : type ≠ SCALED_UI_AMOUNT) : st'.scale = st.scale := by
  simp only [scanExtension, scanData, hne, if_false, Result.bind_eq_ok, Result.exists_unit,
    Result.pure_eq_ok, invariant_eq_ok, Result.checkWhen_eq_ok] at h
  obtain ⟨-, data, -, st₁, hscan, -, -, -, rfl⟩ := h
  split at hscan
  · cases hscan
    rfl
  · split at hscan <;>
    · cases hscan
      rfl

/-- Without the scale extension no scale is found. -/
theorem mem_of_scale {types : List UInt16}
    (h : types.foldlM (scanExtension mint clock) st = .ok st')
    (hsome : st'.scale ≠ st.scale) : SCALED_UI_AMOUNT ∈ types := by
  induction types generalizing st with
  | nil =>
    cases h
    exact absurd rfl hsome
  | cons type types ih =>
    rw [List.foldlM_cons, Result.bind_eq_ok] at h
    obtain ⟨st₁, hfirst, hrest⟩ := h
    by_cases htype : type = SCALED_UI_AMOUNT
    · rw [htype]
      exact List.mem_cons_self
    · rw [← scale_scanExtension hfirst htype] at hsome
      exact List.mem_cons_of_mem type (ih hrest hsome)

end Step

/-! ## The whole mint -/

/-- The client's profile is the program's. -/
structure InspectedMintProfile.Matches (p : InspectedMintProfile) (profile : MintProfile) :
    Prop where
  decimals : p.decimals = profile.decimals.toNat
  extensionsMask : p.extensionsMask = profile.extensionsMask.toNat
  scale : p.scale = ScaleTuple.ofProgram profile.scale
  controlsFingerprint : p.controlsFingerprint = profile.controlsFingerprint

/-- **The inspections agree.** -/
theorem inspectMintProfile_agrees {host : Host} {key : Pubkey} {mint : Mint} {clock : ChainClock}
    {now : Int64} {p : InspectedMintProfile} (hclock : clock.unixTimestamp = now.toInt)
    (hprogram : mint.tokenProgram = .token2022) (hl : mint.laidOut = true)
    (h : inspectMintProfile host key mint clock = .ok p) :
    ∃ profile, p.Matches profile ∧ inspectMintForExit host key mint now = .ok profile ∧
      (p.accountingFactorsSupported = true ↔ ∃ q, inspectMint host key mint now = .ok q) ∧
      ∀ q, inspectMint host key mint now = .ok q → q = profile := by
  simp only [inspectMintProfile, Result.bind_eq_ok, Result.exists_unit, Result.pure_eq_ok,
    invariant_eq_ok, Result.okOr_eq_ok] at h
  obtain ⟨hinit, hdecimals, hnodup, st, hscan, scale, hscale, rfl⟩ := h
  have hstart : Scan.Matches mint
      { extensionsMask := 0
        fingerprintParts := "dividendx:mint-controls:v1".toUTF8.data.toList
          ++ (host.addressBytes key).toList ++ optionPublicKey host mint.mintAuthority
          ++ optionPublicKey host mint.freezeAuthority
        scale := none
        accountingFactorsSupported := false }
      { mask := 0, fingerprint := fingerprintBase host key mint, scale := none } := by
    refine ⟨rfl, ?_, rfl, by simp⟩
    rw [optionPublicKey_eq, optionPublicKey_eq]
    rfl
  obtain ⟨ins, hins, hm⟩ := foldlM_scanExtension_agrees hclock hl hstart hscan
  have hmem : SCALED_UI_AMOUNT ∈ mint.sortedTypes := by
    refine mem_of_scale hscan ?_
    rw [hscale]
    exact Option.some_ne_none scale
  obtain ⟨scale', hscale', rfl⟩ := Option.map_eq_some_iff.mp (hm.scale.symm.trans hscale)
  -- both inspections of the program differ in their loop only
  have hinner : ∀ bounds q, inspectMintInner host key mint now bounds = .ok q ↔
      ∃ ins', mint.sortedTypes.foldlM (inspectExtension mint now bounds)
        { mask := 0, fingerprint := fingerprintBase host key mint, scale := none } = .ok ins' ∧
        ∃ scale, ins'.scale = some scale ∧
          { decimals := mint.decimals, extensionsMask := ins'.mask, scale := scale,
            controlsFingerprint := host.sha256 ins'.fingerprint } = q := by
    intro bounds q
    have hchain : mint.sortedTypes.IsChain (· ≠ ·) := List.Pairwise.isChain hnodup
    simp only [inspectMintInner, Result.bind_eq_ok, Result.require_eq_ok, Result.exists_unit,
      Result.pure_eq_ok, Result.okOr_eq_ok, hprogram, hinit, hdecimals, hchain, true_and]
  have hfull : ∀ q, inspectMint host key mint now = .ok q ↔
      FactorsOk mint ∧ inspectMintForExit host key mint now = .ok q := by
    intro q
    rw [inspectMint, inspectMintForExit, hinner, hinner]
    simp only [foldlM_inspectExtension_bounds, hmem, forall_const]
    constructor
    · rintro ⟨ins', ⟨hins', hfactors⟩, hq⟩
      exact ⟨hfactors, ins', hins', hq⟩
    · rintro ⟨hfactors, ins', hins', hq⟩
      exact ⟨ins', ⟨hins', hfactors⟩, hq⟩
  have hexit := (hinner false _).mpr ⟨ins, hins, scale', hscale', rfl⟩
  refine ⟨_, ⟨rfl, ?_, rfl, ?_⟩, hexit, ?_, ?_⟩
  · change (st.extensionsMask : Int) = _
    rw [← hm.mask]
  · change host.sha256 _ = host.sha256 _
    rw [hm.fingerprint]
  · simp only [hfull]
    rw [hm.factors, hscale']
    constructor
    · exact fun hboth => ⟨_, hboth.2, hexit⟩
    · rintro ⟨_, hfactors, _⟩
      exact ⟨rfl, hfactors⟩
  · intro q hq
    exact Except.ok.inj ((((hfull q).mp hq).2).symm.trans hexit)

/-- An accepted mint is not paused. -/
theorem not_isPaused {host : Host} {key : Pubkey} {mint : Mint} {clock : ChainClock}
    {p : InspectedMintProfile} (h : inspectMintProfile host key mint clock = .ok p) :
    mint.isPaused = false := by
  simp only [inspectMintProfile, Result.bind_eq_ok, Result.exists_unit, invariant_eq_ok] at h
  obtain ⟨-, -, hnodup, st, hscan, -⟩ := h
  have hperm : mint.sortedTypes.Perm (mint.extensions.map Extension.type) :=
    List.perm_insertionSort _ _
  rw [Mint.isPaused, List.any_eq_false]
  intro e he
  rw [Bool.and_eq_true, beq_iff_eq, not_and]
  intro htype
  -- the loop visited the entry, and it is the only one of its type
  have hmem : PAUSABLE ∈ mint.sortedTypes := by
    rw [hperm.mem_iff, ← htype]
    exact List.mem_map_of_mem he
  obtain ⟨st₁, st₂, hstep⟩ := Result.foldlM_ok_of_mem hscan hmem
  simp only [scanExtension, Result.bind_eq_ok, Result.exists_unit, invariant_eq_ok,
    Result.checkWhen_eq_ok, extensionData_eq_ok] at hstep
  obtain ⟨-, _, ⟨e', hfind, rfl⟩, _, -, -, -, hpause, -⟩ := hstep
  have hfound := List.find?_some hfind
  have htype' : e'.type = PAUSABLE := eq_of_beq hfound
  obtain rfl : e = e' := List.inj_on_of_nodup_map (hperm.nodup_iff.mp hnodup) he
    (List.mem_of_find?_eq_some hfind) (htype.trans htype'.symm)
  rw [(hpause trivial).2]
  decide

end Sdk

end DividendX
