import DividendX.Granted
import DividendX.Standard

/-!
# Ways out of a series

Recombination and redemption look at the collateral mint only for its shape: which extensions it
has, how large they are and whether it is paused or hooked. Everything the issuer may turn
otherwise, and everything about a review, is left aside by `World.Agrees`, and two worlds that
agree treat an exit alike. The mint's authorities, its metadata and its multipliers are among what
is left aside, whatever their bits.

The token programs are asked to be no more curious (`Host.IssuerBlind`): a transfer or a burn that
the owner signed is judged by the accounts it moves between. Every exact host is like that.
-/

namespace DividendX

/-! ## Agreement -/

/-- The extensions that hold authorities, metadata and multipliers. -/
def issuerTypes : List UInt16 :=
  [MINT_CLOSE_AUTHORITY, CONFIDENTIAL_TRANSFER_MINT, PERMANENT_DELEGATE, TRANSFER_HOOK,
    METADATA_POINTER, TOKEN_METADATA, SCALED_UI_AMOUNT, PAUSABLE]

/-- Two entries of one type and size, with the same hook program or pause flag. Only display
metadata may also differ in size. -/
structure Extension.Agrees (e e' : Extension) : Prop where
  type : e'.type = e.type
  size : e.type ≠ TOKEN_METADATA → e'.data.length = e.data.length
  switch : e.type = TRANSFER_HOOK ∨ e.type = PAUSABLE → e'.data.drop 32 = e.data.drop 32
  other : e.type ∉ issuerTypes → e'.data = e.data

/-- Two versions of one mint. A mint of the older token program has nothing to turn. -/
structure Mint.Agrees (m m' : Mint) : Prop where
  tokenProgram : m'.tokenProgram = m.tokenProgram
  supply : m'.supply = m.supply
  decimals : m'.decimals = m.decimals
  isInitialized : m'.isInitialized = m.isInitialized
  claim : m.tokenProgram = .token → m' = m
  extensions : List.Forall₂ Extension.Agrees m.extensions m'.extensions

/-- The same accounts and versions of the same mints. -/
structure Bank.Agrees (b b' : Bank) : Prop where
  tokens : b'.tokens = b.tokens
  mints : ∀ {key m}, b.mints key = some m → ∃ m', b'.mints key = some m' ∧ m.Agrees m'
  none : ∀ {key}, b.mints key = none → b'.mints key = none

/-- A policy without admission, review and observation. -/
def AssetPolicy.core (p : AssetPolicy) : AssetPolicy :=
  { p with
    extensionsMask := 0
    admissionEnabled := false
    reviewedCurrentMultiplierBits := 0
    reviewedNewMultiplierBits := 0
    reviewedNewMultiplierEffectiveTimestamp := 0
    reviewedActiveMultiplierBits := 0
    reviewedControlsFingerprint := zero32
    observedSlot := 0
    observationValidUntil := 0
    observationEvidenceDigest := zero32 }

/-- Two worlds that differ in reviews, in what issuers control and in the clock. -/
structure World.Agrees (w w' : World) : Prop where
  config : w'.config = w.config
  policies : ∀ key, (w'.policies key).map AssetPolicy.core = (w.policies key).map AssetPolicy.core
  series : w'.series = w.series
  accumulators : w'.accumulators = w.accumulators
  heads : w'.heads = w.heads
  revisions : w'.revisions = w.revisions
  bank : w.bank.Agrees w'.bank

theorem Extension.Agrees.symm {e e' : Extension} (h : e.Agrees e') : e'.Agrees e := by
  refine ⟨h.type.symm, fun ht => ?_, fun ht => ?_, fun ht => ?_⟩
  · rw [h.type] at ht
    exact (h.size ht).symm
  · rw [h.type] at ht
    exact (h.switch ht).symm
  · rw [h.type] at ht
    exact (h.other ht).symm

theorem Mint.Agrees.symm {m m' : Mint} (h : m.Agrees m') : m'.Agrees m := by
  refine ⟨h.tokenProgram.symm, h.supply.symm, h.decimals.symm, h.isInitialized.symm,
    fun ht => ?_, ?_⟩
  · rw [h.tokenProgram] at ht
    exact (h.claim ht).symm
  · exact h.extensions.flip.imp fun _ _ he => he.symm

theorem Mint.Agrees.refl (m : Mint) : m.Agrees m := by
  refine ⟨rfl, rfl, rfl, rfl, fun _ => rfl, ?_⟩
  exact List.forall₂_same.mpr fun e _ => ⟨rfl, fun _ => rfl, fun _ => rfl, fun _ => rfl⟩

theorem Bank.Agrees.symm {b b' : Bank} (h : b.Agrees b') : b'.Agrees b := by
  refine ⟨h.tokens.symm, @fun key m' hm' => ?_, @fun key hnone => ?_⟩
  · cases hm : b.mints key with
    | none => cases (h.none hm).symm.trans hm'
    | some m =>
      obtain ⟨m'', hm'', hagrees⟩ := h.mints hm
      cases hm''.symm.trans hm'
      exact ⟨m, rfl, hagrees.symm⟩
  · cases hm : b.mints key with
    | none => rfl
    | some m =>
      obtain ⟨m', hm', -⟩ := h.mints hm
      cases hm'.symm.trans hnone

theorem World.Agrees.symm {w w' : World} (h : w.Agrees w') : w'.Agrees w :=
  ⟨h.config.symm, fun key => (h.policies key).symm, h.series.symm,
    h.accumulators.symm, h.heads.symm, h.revisions.symm, h.bank.symm⟩

/-! ## The inspection of a mint on the way out -/

section Inspection

variable {m m' : Mint} {now : Int64} (now' : Int64) {st st' st₁ : Inspection} {type : UInt16}

/-- Two inspections under way, of mints that agree. -/
def Inspection.Agrees (st st' : Inspection) : Prop :=
  st'.mask = st.mask ∧ st'.scale.isSome = st.scale.isSome

/-- The first entry of a type is found on both sides. -/
theorem find_agrees {es es' : List Extension} (h : List.Forall₂ Extension.Agrees es es')
    {e : Extension} (hfind : es.find? (fun e => e.type == type) = some e) :
    ∃ e', es'.find? (fun e => e.type == type) = some e' ∧ e.Agrees e' := by
  induction h with
  | nil => cases hfind
  | @cons a b es es' hab _ ih =>
    rw [List.find?_cons] at hfind ⊢
    rw [hab.type]
    cases htype : a.type == type with
    | true =>
      rw [htype] at hfind
      cases hfind
      exact ⟨b, rfl, hab⟩
    | false =>
      rw [htype] at hfind
      exact ih hfind

/-- A payload is read if it has the size asked for. -/
theorem getExtension_eq_ok {size : Nat} {data : List UInt8} :
    m.getExtension type size = .ok data ↔ ∃ e,
      m.extensions.find? (fun e => e.type == type) = some e ∧ e.data.length = size ∧
        e.data = data := by
  simp only [Mint.getExtension, Result.bind_eq_ok, Result.okOr_eq_ok, Result.require_eq_ok,
    Result.exists_unit, Result.pure_eq_ok]

/-- An entry the first mint shows in its size, the second shows too. -/
theorem getExtension_agrees (h : m.Agrees m') {size : Nat} {data : List UInt8}
    (hdata : m.getExtension type size = .ok data) (hsize : type ≠ TOKEN_METADATA) :
    ∃ data', m'.getExtension type size = .ok data' ∧
      (type = TRANSFER_HOOK ∨ type = PAUSABLE → data'.drop 32 = data.drop 32) ∧
      (type ∉ issuerTypes → data' = data) := by
  obtain ⟨e, hfind, hlength, rfl⟩ := getExtension_eq_ok.mp hdata
  have htype : e.type = type := by simpa using List.find?_some hfind
  subst htype
  obtain ⟨e', hfind', he⟩ := find_agrees h.extensions hfind
  exact ⟨e'.data, getExtension_eq_ok.mpr ⟨e', hfind', (he.size hsize).trans hlength, rfl⟩,
    he.switch, he.other⟩

/-- Mints that agree have the same types in the same order. -/
theorem types_agrees {es es' : List Extension} (h : List.Forall₂ Extension.Agrees es es') :
    es'.map Extension.type = es.map Extension.type := by
  induction h with
  | nil => rfl
  | cons hab _ ih => rw [List.map_cons, List.map_cons, ih, hab.type]

/-- So they are visited in the same order. -/
theorem sortedTypes_agrees (h : m.Agrees m') : m'.sortedTypes = m.sortedTypes := by
  rw [Mint.sortedTypes, Mint.sortedTypes, types_agrees h.extensions]

/-- **One turn of the loop** succeeds on both mints or on none. -/
theorem inspectExtension_agrees (h : m.Agrees m') (hst : st.Agrees st')
    (hturn : inspectExtension m now false st type = .ok st₁) :
    ∃ st₁', inspectExtension m' now' false st' type = .ok st₁' ∧ st₁.Agrees st₁' := by
  obtain ⟨hmask, hscale⟩ := hst
  have hmask' : st'.mask ||| 1 <<< type.toUInt64 = st.mask ||| 1 <<< type.toUInt64 := by rw [hmask]
  simp only [inspectExtension, Result.bind_eq_ok, Result.require_eq_ok, Result.exists_unit,
    Bool.false_eq_true, if_false] at hturn ⊢
  obtain ⟨hbound, hturn⟩ := hturn
  have hget : ∀ {size data}, m.getExtension type size = .ok data → type ≠ TOKEN_METADATA → _ :=
    fun hdata hsize => getExtension_agrees h hdata hsize
  simp only [hbound, true_and]
  split_ifs at hturn ⊢ with h1 h2 h3 h4 h5 h6 h7 h8
  · -- the multipliers are read, whatever they are
    simp only [Result.bind_eq_ok, Result.pure_eq_ok] at hturn ⊢
    obtain ⟨data, hdata, rfl⟩ := hturn
    obtain ⟨data', hdata', -, -⟩ := hget hdata (by rw [h1]; decide)
    exact ⟨_, ⟨data', hdata', rfl⟩, hmask', rfl⟩
  · simp only [Result.bind_eq_ok, Result.pure_eq_ok] at hturn ⊢
    obtain ⟨data, hdata, rfl⟩ := hturn
    obtain ⟨data', hdata', -, -⟩ := hget hdata (by rw [h2]; decide)
    exact ⟨_, ⟨data', hdata', rfl⟩, hmask', hscale⟩
  · simp only [Result.pure_eq_ok] at hturn ⊢
    subst hturn
    exact ⟨_, rfl, hmask', hscale⟩
  · simp only [Result.bind_eq_ok, Result.pure_eq_ok] at hturn ⊢
    obtain ⟨data, hdata, rfl⟩ := hturn
    obtain ⟨data', hdata', -, -⟩ := hget hdata h3
    exact ⟨_, ⟨data', hdata', rfl⟩, hmask', hscale⟩
  · simp only [Result.bind_eq_ok, Result.require_eq_ok, Result.exists_unit,
      Result.pure_eq_ok] at hturn ⊢
    obtain ⟨data, hdata, hinitialized, rfl⟩ := hturn
    obtain ⟨data', hdata', -, hsame⟩ := hget hdata h3
    have hkept : data' = data := hsame (by rw [h5]; decide)
    exact ⟨_, ⟨data', hdata', by rw [hkept]; exact hinitialized, rfl⟩, hmask', hscale⟩
  · simp only [Result.bind_eq_ok, Result.require_eq_ok, Result.exists_unit,
      Result.pure_eq_ok] at hturn ⊢
    obtain ⟨data, hdata, hunhooked, rfl⟩ := hturn
    obtain ⟨data', hdata', hswitch, -⟩ := hget hdata h3
    exact ⟨_, ⟨data', hdata', by rw [hswitch (.inl h6)]; exact hunhooked, rfl⟩, hmask', hscale⟩
  · simp only [Result.bind_eq_ok, Result.require_eq_ok, Result.exists_unit,
      Result.pure_eq_ok] at hturn ⊢
    obtain ⟨data, hdata, hrunning, rfl⟩ := hturn
    obtain ⟨data', hdata', hswitch, -⟩ := hget hdata h3
    exact ⟨_, ⟨data', hdata', by rw [hswitch (.inr h7)]; exact hrunning, rfl⟩, hmask', hscale⟩
  · simp only [Result.bind_eq_ok, Result.pure_eq_ok] at hturn ⊢
    obtain ⟨data, hdata, rfl⟩ := hturn
    obtain ⟨data', hdata', -, -⟩ := hget hdata h3
    exact ⟨_, ⟨data', hdata', rfl⟩, hmask', hscale⟩

/-- The exit inspection goes the same way over both. -/
theorem foldlM_inspectExtension_agrees (h : m.Agrees m') {types : List UInt16} (hst : st.Agrees st')
    (hfold : types.foldlM (inspectExtension m now false) st = .ok st₁) :
    ∃ st₁', types.foldlM (inspectExtension m' now' false) st' = .ok st₁' ∧ st₁.Agrees st₁' := by
  induction types generalizing st st' with
  | nil =>
    cases hfold
    exact ⟨st', rfl, hst⟩
  | cons type types ih =>
    rw [List.foldlM_cons, Result.bind_eq_ok] at hfold
    obtain ⟨st₂, hturn, hrest⟩ := hfold
    obtain ⟨st₂', hturn', hst₂⟩ := inspectExtension_agrees now' h hst hturn
    obtain ⟨st₁', hrest', hst₁⟩ := ih hst₂ hrest
    refine ⟨st₁', ?_, hst₁⟩
    rw [List.foldlM_cons, Result.bind_eq_ok]
    exact ⟨st₂', hturn', hrest'⟩

/-- **On the way out** one mint passes the inspection if the other does, at any two times. -/
theorem inspectMintForExit_agrees {host : Host} {key : Pubkey} (h : m.Agrees m')
    {profile : MintProfile} (hpass : inspectMintForExit host key m now = .ok profile) :
    ∃ profile', inspectMintForExit host key m' now' = .ok profile' := by
  simp only [inspectMintForExit, inspectMintInner, Result.bind_eq_ok, Result.require_eq_ok,
    Result.exists_unit, Result.okOr_eq_ok, Result.pure_eq_ok] at hpass ⊢
  obtain ⟨hprogram, hinit, -, hdecimals, hchain, st, hfold, scale, hscale, -⟩ := hpass
  have hstart : Inspection.Agrees ⟨0, fingerprintBase host key m, none⟩
      ⟨0, fingerprintBase host key m', none⟩ := ⟨rfl, rfl⟩
  obtain ⟨st', hfold', -, hsome⟩ := foldlM_inspectExtension_agrees now' h hstart hfold
  rw [hscale] at hsome
  obtain ⟨scale', hscale'⟩ := Option.isSome_iff_exists.mp hsome
  rw [h.tokenProgram, h.isInitialized, h.decimals, sortedTypes_agrees h]
  exact ⟨_, hprogram, hinit, hinit, hdecimals, hchain, st', hfold', scale', hscale', rfl⟩

end Inspection

/-! ## The token programs -/

/-- What an exit asks of a token program. -/
def TokenInstruction.isExit : TokenInstruction → Bool
  | transferChecked _ _ _ _ _ _ => true
  | burn _ _ _ _ => true
  | _ => false

/-- The verdict on a transfer or burn signed by the owner does not depend on what issuers
control. -/
def Host.IssuerBlind (host : Host) : Prop :=
  ∀ b b' ix, b.Agrees b' → ix.isExit = true → ix.SignedByOwner b → host.accepts b ix = .ok () →
    host.accepts b' ix = .ok ()

/-- The pause flag is part of what agrees. -/
theorem paused_agrees {es es' : List Extension} (h : List.Forall₂ Extension.Agrees es es') :
    es'.any (fun e => e.type == PAUSABLE && e.data.getD 32 0 != 0) =
      es.any fun e => e.type == PAUSABLE && e.data.getD 32 0 != 0 := by
  induction h with
  | nil => rfl
  | @cons a b es es' hab _ ih =>
    rw [List.any_cons, List.any_cons, ih, hab.type]
    by_cases hpausable : a.type = PAUSABLE
    · have hflag : b.data[32]? = a.data[32]? := by
        have hdrop := congrArg (fun bytes => bytes[0]?) (hab.switch (.inr hpausable))
        simpa using hdrop
      rw [List.getD_eq_getElem?_getD, List.getD_eq_getElem?_getD, hflag]
    · rw [beq_false_of_ne hpausable, Bool.false_and, Bool.false_and]

/-- Agreement covers what a transfer or burn needs. -/
theorem Bank.Agrees.requires {b b' : Bank} {ix : TokenInstruction} (h : b.Agrees b')
    (hix : ix.isExit = true) (hr : ix.Requires b) : ix.Requires b' := by
  cases ix with
  | transferChecked source mint destination authority amount decimals =>
    obtain ⟨src, dst, m, hsrc, hdst, hm, hsm, hdm, hss, hds, hpaused, hdecimals, hamount⟩ := hr
    obtain ⟨m', hm', hagrees⟩ := h.mints hm
    refine ⟨src, dst, m', ?_, ?_, hm', hsm, hdm, hss, hds, ?_, ?_, hamount⟩
    · rw [h.tokens]
      exact hsrc
    · rw [h.tokens]
      exact hdst
    · rw [Mint.isPaused, paused_agrees hagrees.extensions]
      exact hpaused
    · rw [hagrees.decimals]
      exact hdecimals
  | burn mint source authority amount =>
    obtain ⟨src, m, hsrc, hm, hsm, hss, hamount, hsupply⟩ := hr
    obtain ⟨m', hm', hagrees⟩ := h.mints hm
    refine ⟨src, m', ?_, hm', hsm, hss, hamount, ?_⟩
    · rw [h.tokens]
      exact hsrc
    · rw [hagrees.supply]
      exact hsupply
  | mintTo mint destination authority amount => cases hix
  | revokeMintAuthority mint authority => cases hix

/-- Whoever signs on one side signs on the other. -/
theorem Bank.Agrees.signedByOwner {b b' : Bank} {ix : TokenInstruction} (h : b.Agrees b')
    (hs : ix.SignedByOwner b) : ix.SignedByOwner b' := by
  cases ix with
  | transferChecked source mint destination authority amount decimals =>
    rw [TokenInstruction.SignedByOwner, h.tokens]
    exact hs
  | burn mint source authority amount =>
    rw [TokenInstruction.SignedByOwner, h.tokens]
    exact hs
  | mintTo mint destination authority amount => trivial
  | revokeMintAuthority mint authority => trivial

/-- An exact host looks at nothing but the requirements. -/
theorem Host.Exact.issuerBlind {host : Host} (h : host.Exact) : host.IssuerBlind := by
  intro b b' ix hagrees hix hsigned haccepts
  exact h b' ix (hagrees.requires hix (host.accepts_requires b ix haccepts))
    (hagrees.signedByOwner hsigned)

/-- The same change of amounts keeps the agreement. -/
theorem Bank.Agrees.modifyToken {b b' : Bank} (h : b.Agrees b') (key : Pubkey)
    (f : TokenAccount → TokenAccount) : (b.modifyToken key f).Agrees (b'.modifyToken key f) := by
  refine ⟨?_, h.mints, h.none⟩
  simp only [Bank.modifyToken, h.tokens]

/-- And so does the same change of supplies. -/
theorem Bank.Agrees.modifyMint {b b' : Bank} (h : b.Agrees b') (key : Pubkey) {f : Mint → Mint}
    (hf : ∀ {m m'}, m.Agrees m' → (f m).Agrees (f m')) :
    (b.modifyMint key f).Agrees (b'.modifyMint key f) := by
  refine ⟨h.tokens, @fun key' m hm => ?_, @fun key' hnone => ?_⟩
  · by_cases hk : key' = key
    · subst hk
      cases hold : b.mints key' with
      | none =>
        simp only [Bank.modifyMint, hold, Function.update_self, Option.map_none] at hm
        cases hm
      | some m₁ =>
        obtain ⟨m₁', hm₁', hagrees⟩ := h.mints hold
        rw [Bank.modifyMint_self hold] at hm
        cases hm
        exact ⟨f m₁', Bank.modifyMint_self hm₁', hf hagrees⟩
    · rw [Bank.modifyMint_of_ne hk] at hm ⊢
      exact h.mints hm
  · by_cases hk : key' = key
    · subst hk
      simp only [Bank.modifyMint, Function.update_self, Option.map_eq_none_iff] at hnone ⊢
      exact h.none hnone
    · rw [Bank.modifyMint_of_ne hk] at hnone ⊢
      exact h.none hnone

/-- The same burn keeps the agreement. -/
theorem Mint.Agrees.burned {m m' : Mint} (h : m.Agrees m') (amount : UInt64) :
    Mint.Agrees { m with supply := m.supply - amount }
      { m' with supply := m'.supply - amount } := by
  refine ⟨h.tokenProgram, ?_, h.decimals, h.isInitialized, fun htoken => ?_, h.extensions⟩
  · change m'.supply - amount = m.supply - amount
    rw [h.supply]
  · rw [h.claim htoken]

/-- **A transfer or burn that the first bank accepts** the second accepts too, to the same
effect. -/
theorem Host.IssuerBlind.invoke {host : Host} (hblind : host.IssuerBlind) {b b' b₁ : Bank}
    {ix : TokenInstruction} (h : b.Agrees b') (hx : host.invoke b ix = .ok b₁)
    (hix : ix.isExit = true) (hsigned : ix.SignedByOwner b) :
    ∃ b₁', host.invoke b' ix = .ok b₁' ∧ b₁.Agrees b₁' := by
  obtain ⟨haccepts, rfl⟩ := Host.invoke_eq_ok.mp hx
  refine ⟨_, Host.invoke_eq_ok.mpr ⟨hblind b b' ix h hix hsigned haccepts, rfl⟩, ?_⟩
  cases ix with
  | transferChecked source mint destination authority amount decimals =>
    exact (h.modifyToken _ _).modifyToken _ _
  | burn mint source authority amount =>
    exact (h.modifyToken _ _).modifyMint _ fun hm => hm.burned amount
  | mintTo mint destination authority amount => cases hix
  | revokeMintAuthority mint authority => cases hix

/-! ## Recombination and redemption -/

namespace World

variable {host : Host} {w w' u : World} {amount : UInt64} {guard : Guard}

/-- A policy is there on both sides, the same but for admission. -/
theorem Agrees.policy (h : w.Agrees w') {key : Pubkey} {p : AssetPolicy}
    (hp : w.policies key = some p) : ∃ p', w'.policies key = some p' ∧ p'.core = p.core := by
  have hcore := h.policies key
  rw [hp, Option.map_some] at hcore
  exact Option.map_eq_some_iff.mp hcore

/-- Banks that agree and one series, written on both sides. -/
theorem Agrees.put (h : w.Agrees w') {b b' : Bank} (hb : b.Agrees b') (k : Pubkey) (s : Series) :
    ((w.setBank b).putSeries k s).Agrees ((w'.setBank b').putSeries k s) := by
  refine ⟨h.config, h.policies, ?_, h.accumulators, h.heads, h.revisions, hb⟩
  change Function.update w'.series k _ = Function.update w.series k _
  rw [h.series]

/-- The exit checks of the accounts read nothing else of policy and mint. -/
theorem exitValid_agrees {k pk mk vk : Pubkey} {s : Series} {p p' : AssetPolicy} {m m' : Mint}
    {v : TokenAccount} (h : ExitValid k s pk p mk m vk v) (hp : p'.core = p.core)
    (hm : m.Agrees m') : ExitValid k s pk p' mk m' vk v := by
  have hdigest : p'.core.policyDigest = p.core.policyDigest := congrArg AssetPolicy.policyDigest hp
  exact { h with
    policyDigest := h.policyDigest.trans hdigest.symm
    mintProgram := hm.tokenProgram.trans h.mintProgram }

/-- The guard is judged by the series and the expiry. -/
theorem checkGuard_agrees {s : Series} {clock clock' : Clock} {out : UInt64}
    (h : checkGuard s guard clock out = .ok ())
    (hclock : clock'.unixTimestamp ≤ guard.expiryUnixTimestamp) :
    checkGuard s guard clock' out = .ok () := by
  obtain ⟨hversion, -, hout⟩ := checkGuard_eq_ok.mp h
  exact checkGuard_eq_ok.mpr ⟨hversion, hclock, hout⟩

/-- An account keeps its owner through accepted token instructions. -/
theorem owner_of_alike {b b' : Bank} (h : b.Alike b') {key owner : Pubkey} {t : TokenAccount}
    (ht : b.tokens key = some t) (howner : t.owner = owner) :
    ∃ t', b'.tokens key = some t' ∧ t'.owner = owner := by
  obtain ⟨t', ht', hframe⟩ := h.token ht
  have hsame : t'.frame.owner = t.frame.owner := congrArg TokenAccount.owner hframe
  exact ⟨t', ht', hsame.trans howner⟩

/-- **A recombination** that goes through on one side goes through on the other. -/
theorem recombine_agrees (hblind : host.IssuerBlind) (h : w.Agrees w') {acc : PairAccounts}
    (hclock : w'.clock.unixTimestamp ≤ guard.expiryUnixTimestamp)
    (hx : recombine host w acc amount guard = .ok u) :
    ∃ u', recombine host w' acc amount guard = .ok u' ∧ u.Agrees u' := by
  obtain ⟨L, hL, hp, b₁, b₂, b₃, hb₁, hb₂, hb₃, nominal, v, hn, hv, rfl⟩ := recombine_eq_ok.mp hx
  obtain ⟨p', hpolicy, hcore⟩ := h.policy hL.asset
  obtain ⟨m', hmint, hagrees⟩ := h.bank.mints hL.mint.1
  obtain ⟨pt', hpt, hptAgrees⟩ := h.bank.mints hL.ptMint.1.1
  obtain ⟨dr', hdr, hdrAgrees⟩ := h.bank.mints hL.drMint.1.1
  cases hptAgrees.claim hL.ptMint.2
  cases hdrAgrees.claim hL.drMint.2
  obtain ⟨profile, hinspected⟩ := hp.inspected
  -- the three token instructions are signed by the owners of the accounts they debit
  have halike₁ := (Host.invoke_burn hb₁).alike
  have halike₂ := halike₁.trans (Host.invoke_burn hb₂).alike
  obtain ⟨b₁', hb₁', hagrees₁⟩ := hblind.invoke h.bank hb₁ rfl
    ⟨L.holderPt, hL.holderPt.1.1, hp.holderPt.owner⟩
  obtain ⟨b₂', hb₂', hagrees₂⟩ := hblind.invoke hagrees₁ hb₂ rfl
    (owner_of_alike halike₁ hL.holderDr.1.1 hp.holderDr.owner)
  obtain ⟨b₃', hb₃', hagrees₃⟩ := hblind.invoke hagrees₂ hb₃ rfl
    (owner_of_alike halike₂ hL.vault.1 hp.accounts.exit.vaultOwner)
  refine ⟨_, recombine_eq_ok.mpr ⟨{ L with asset := p', mint := m' }, ?_, ?_, b₁', b₂', b₃', hb₁',
    hb₂', hb₃', nominal, v, hn, hv, rfl⟩, h.put hagrees₃ _ _⟩
  · have hseries : w'.series acc.series = some L.series := by rw [h.series]; exact hL.series
    have htokens := h.bank.tokens
    exact ⟨hpolicy, hseries, ⟨hmint, hagrees.isInitialized.trans hL.mint.2⟩,
      by rw [htokens]; exact hL.vault, by rw [htokens]; exact hL.holderCollateral,
      ⟨⟨hpt, hL.ptMint.1.2⟩, hL.ptMint.2⟩, ⟨⟨hdr, hL.drMint.1.2⟩, hL.drMint.2⟩,
      by rw [htokens]; exact hL.holderPt, by rw [htokens]; exact hL.holderDr, hL.hasOne⟩
  · exact { hp with
      guarded := checkGuard_agrees hp.guarded hclock
      inspected := inspectMintForExit_agrees w'.clock.unixTimestamp hagrees hinspected
      accounts := { hp.accounts with exit := exitValid_agrees hp.accounts.exit hcore hagrees } }

/-- **A redemption** that goes through on one side goes through on the other. -/
theorem redeem_agrees (hblind : host.IssuerBlind) (h : w.Agrees w') {acc : RedeemAccounts}
    {side : RedeemSide} {allowZero : Bool}
    (hclock : w'.clock.unixTimestamp ≤ guard.expiryUnixTimestamp)
    (hx : redeem host w acc side amount allowZero guard = .ok u) :
    ∃ u', redeem host w' acc side amount allowZero guard = .ok u' ∧ u.Agrees u' := by
  obtain ⟨L, payout, hL, hp, b₁, b₂, hb₁, hb₂, r, paid, v, hr, hpaid, hv, rfl⟩ := redeem_eq_ok.mp hx
  obtain ⟨p', hpolicy, hcore⟩ := h.policy hL.asset
  obtain ⟨m', hmint, hagrees⟩ := h.bank.mints hL.mint.1
  obtain ⟨claim', hclaim, hclaimAgrees⟩ := h.bank.mints hL.claimMint.1.1
  cases hclaimAgrees.claim hL.claimMint.2
  obtain ⟨profile, hinspected⟩ := hp.inspected
  have halike := (Host.invoke_burn hb₁).alike
  obtain ⟨b₁', hb₁', hagrees₁⟩ := hblind.invoke h.bank hb₁ rfl
    ⟨L.holderClaim, hL.holderClaim.1.1, hp.holderClaim.owner⟩
  -- A payout of nothing is not transferred, on either side.
  have hpays : ∃ b₂', (if 0 < payout then host.invoke b₁' (.transferChecked acc.vault
      acc.collateralMint acc.holderCollateral acc.series payout L.series.decimals)
      else pure b₁') = .ok b₂' ∧ b₂.Agrees b₂' := by
    split at hb₂
    · rename_i hpositive
      rw [if_pos hpositive]
      exact hblind.invoke hagrees₁ hb₂ rfl
        (owner_of_alike halike hL.vault.1 hp.accounts.vaultOwner)
    · rename_i hzero
      rw [if_neg hzero]
      cases hb₂
      exact ⟨b₁', rfl, hagrees₁⟩
  obtain ⟨b₂', hb₂', hagrees₂⟩ := hpays
  refine ⟨_, redeem_eq_ok.mpr ⟨{ L with asset := p', mint := m' }, payout, ?_, ?_, b₁', b₂', hb₁',
    hb₂', r, paid, v, hr, hpaid, hv, rfl⟩, h.put hagrees₂ _ _⟩
  · have hseries : w'.series acc.series = some L.series := by rw [h.series]; exact hL.series
    have htokens := h.bank.tokens
    exact ⟨hpolicy, hseries, ⟨hmint, hagrees.isInitialized.trans hL.mint.2⟩,
      by rw [htokens]; exact hL.vault, by rw [htokens]; exact hL.holderCollateral,
      ⟨⟨hclaim, hL.claimMint.1.2⟩, hL.claimMint.2⟩, by rw [htokens]; exact hL.holderClaim,
        hL.hasOne⟩
  · exact { hp with
      guarded := checkGuard_agrees hp.guarded hclock
      inspected := inspectMintForExit_agrees w'.clock.unixTimestamp hagrees hinspected
      accounts := exitValid_agrees hp.accounts hcore hagrees }

/-- What an exit leaves alone: policies and the mints of issuers. -/
structure Spares (w u : World) : Prop where
  policies : u.policies = w.policies
  clock : u.clock = w.clock
  mints : ∀ {key m}, w.bank.mints key = some m → m.tokenProgram = .token2022 →
    u.bank.mints key = some m

/-- A burn of claims does not touch another kind of mint, and a transfer touches none. -/
theorem spared_of_burn {b b₁ : Bank} {mint source authority : Pubkey} {claim : Mint}
    (hx : host.invoke b (.burn mint source authority amount) = .ok b₁)
    (hclaim : b.mints mint = some claim) (htoken : claim.tokenProgram = .token) {key : Pubkey}
    {m : Mint} (hm : b.mints key = some m) (hprogram : m.tokenProgram = .token2022) :
    b₁.mints key = some m := by
  obtain ⟨-, rfl⟩ := Host.invoke_eq_ok.mp hx
  have hne : key ≠ mint := by
    rintro rfl
    cases hclaim.symm.trans hm
    cases htoken.symm.trans hprogram
  rw [TokenInstruction.effect, Bank.modifyMint_of_ne hne]
  exact hm

/-- A transfer moves no supply. -/
theorem mints_of_transfer {b b₁ : Bank} {source mint destination authority : Pubkey}
    {decimals : UInt8} (hx : host.invoke b
      (.transferChecked source mint destination authority amount decimals) = .ok b₁) :
    b₁.mints = b.mints := by
  obtain ⟨-, rfl⟩ := Host.invoke_eq_ok.mp hx
  rfl

/-- A recombination leaves the clock, the policies and the mints of issuers. -/
theorem recombine_spares {acc : PairAccounts} (hx : recombine host w acc amount guard = .ok u) :
    w.Spares u := by
  obtain ⟨L, hL, hp, b₁, b₂, b₃, hb₁, hb₂, hb₃, nominal, v, hn, hv, rfl⟩ := recombine_eq_ok.mp hx
  refine ⟨rfl, rfl, @fun key m hm hprogram => ?_⟩
  change b₃.mints key = some m
  obtain ⟨dr, hdr, hframe⟩ := (Host.invoke_burn hb₁).alike.mint hL.drMint.1.1
  have htoken : dr.tokenProgram = .token := (Mint.frame_decimals hframe).1.trans hL.drMint.2
  rw [mints_of_transfer hb₃]
  exact spared_of_burn hb₂ hdr htoken (spared_of_burn hb₁ hL.ptMint.1.1 hL.ptMint.2 hm hprogram)
    hprogram

/-- So does a redemption. -/
theorem redeem_spares {acc : RedeemAccounts} {side : RedeemSide} {allowZero : Bool}
    (hx : redeem host w acc side amount allowZero guard = .ok u) : w.Spares u := by
  obtain ⟨L, payout, hL, hp, b₁, b₂, hb₁, hb₂, r, paid, v, hr, hpaid, hv, rfl⟩ := redeem_eq_ok.mp hx
  refine ⟨rfl, rfl, @fun key m hm hprogram => ?_⟩
  change b₂.mints key = some m
  have hmints : b₂.mints = b₁.mints := by
    split at hb₂
    · exact mints_of_transfer hb₂
    · cases hb₂
      rfl
  rw [hmints]
  exact spared_of_burn hb₁ hL.claimMint.1.1 hL.claimMint.2 hm hprogram

/-- Two outcomes of one exit: both fail, or the worlds after them agree again, with policies and
collateral mints as they were in each. -/
def SameExit (w w' : World) (r r' : Outcome World) : Prop :=
  (∃ e e', r = .error e ∧ r' = .error e') ∨
    ∃ u u', r = .ok u ∧ r' = .ok u' ∧ u.Agrees u' ∧ w.Spares u ∧ w'.Spares u'

/-- If each outcome carries over to the other world, the two are the same exit. -/
theorem sameExit_of {r r' : Outcome World}
    (hforth : ∀ u, r = .ok u → w.Spares u ∧ ∃ u', r' = .ok u' ∧ u.Agrees u')
    (hback : ∀ u', r' = .ok u' → w'.Spares u' ∧ ∃ u, r = .ok u) : SameExit w w' r r' := by
  cases hr : r with
  | ok u =>
    obtain ⟨hspares, u', hu', hagrees⟩ := hforth u hr
    exact .inr ⟨u, u', rfl, hu', hagrees, hspares, (hback u' hu').1⟩
  | error e =>
    cases hr' : r' with
    | ok u' =>
      obtain ⟨-, u, hu⟩ := hback u' hr'
      cases hr.symm.trans hu
    | error e' => exact .inl ⟨e, e', rfl, rfl⟩

/-- **Exits do not depend on admission or multipliers.** In two worlds that differ in reviews and
admission, in the authorities, metadata and multipliers of collateral mints and in a clock that
has not passed the guard, recombination and redemption both fail or both succeed, and then they
pay the same and change the same. -/
theorem exits_independent (hblind : host.IssuerBlind) (h : w.Agrees w')
    (hclock : w.clock.unixTimestamp ≤ guard.expiryUnixTimestamp)
    (hclock' : w'.clock.unixTimestamp ≤ guard.expiryUnixTimestamp) :
    (∀ acc amount, SameExit w w' (w.execute host (.recombine acc amount guard))
      (w'.execute host (.recombine acc amount guard))) ∧
    ∀ acc side amount allowZero, SameExit w w'
      (w.execute host (.redeem acc side amount allowZero guard))
      (w'.execute host (.redeem acc side amount allowZero guard)) := by
  refine ⟨fun acc amount => ?_, fun acc side amount allowZero => ?_⟩
  · refine sameExit_of (fun u hu => ?_) (fun u' hu' => ?_)
    · exact ⟨recombine_spares hu, recombine_agrees hblind h hclock' hu⟩
    · obtain ⟨u, hu, -⟩ := recombine_agrees hblind h.symm hclock hu'
      exact ⟨recombine_spares hu', u, hu⟩
  · refine sameExit_of (fun u hu => ?_) (fun u' hu' => ?_)
    · exact ⟨redeem_spares hu, redeem_agrees hblind h hclock' hu⟩
    · obtain ⟨u, hu, -⟩ := redeem_agrees hblind h.symm hclock hu'
      exact ⟨redeem_spares hu', u, hu⟩

end World

namespace Sample

/-- The collateral mint after a rotation, with multipliers that are not numbers. -/
def turnedMint : Mint :=
  { mint with
    mintAuthority := none
    extensions := [⟨SCALED_UI_AMOUNT, List.replicate 56 0xff⟩] }

/-- The sample with admission off, a stale review, a later clock and the mint turned. -/
def turned (n : Nat) : World :=
  { world n with
    clock := ⟨30, 1899999999⟩
    policies := fun key => ((world n).policies key).map fun p =>
      { p with admissionEnabled := false, observationValidUntil := 0 }
    bank := { (world n).bank with
      mints := Function.update (world n).bank.mints mintKey (some turnedMint) } }

/-- The turned mint differs in what exits do not read. -/
theorem turnedMint_agrees : mint.Agrees turnedMint := by
  refine ⟨rfl, rfl, rfl, rfl, fun htoken => (by cases htoken), .cons ?_ .nil⟩
  exact ⟨rfl, fun _ => by decide, fun hswitch => by revert hswitch; decide,
    fun hother => absurd hother (by decide)⟩

/-- So does its world. -/
theorem turned_agrees {n : Nat} (hmint : (world n).bank.mints mintKey = some mint) :
    (world n).Agrees (turned n) := by
  refine ⟨rfl, fun key => ?_, rfl, rfl, rfl, rfl, rfl, @fun key m hm => ?_, @fun key hnone => ?_⟩
  · change (((world n).policies key).map _).map _ = _
    rw [Option.map_map]
    rfl
  · change ∃ m', Function.update (world n).bank.mints mintKey (some turnedMint) key = some m' ∧ _
    by_cases hk : key = mintKey
    · subst hk
      cases hmint.symm.trans hm
      exact ⟨turnedMint, Function.update_self .., turnedMint_agrees⟩
    · rw [Function.update_of_ne hk]
      exact ⟨m, hm, .refl m⟩
  · change Function.update (world n).bank.mints mintKey (some turnedMint) key = none
    have hk : key ≠ mintKey := by
      rintro rfl
      cases hmint.symm.trans hnone
    rw [Function.update_of_ne hk]
    exact hnone

end Sample

/-- The recombination of the sample succeeds just as well with admission off and the mint
turned. -/
theorem World.exits_independent_sample : ∃ u u',
    (Sample.world 13).execute Sample.host (.recombine Sample.pair 1000 (Sample.guard 4)) = .ok u ∧
    (Sample.turned 13).execute Sample.host (.recombine Sample.pair 1000 (Sample.guard 4)) = .ok u' ∧
    u.Agrees u' := by
  have hmint : (Sample.world 13).bank.mints Sample.mintKey = some Sample.mint := by decide +kernel
  have hclock : (Sample.world 13).clock.unixTimestamp ≤ (Sample.guard 4).expiryUnixTimestamp := by
    decide +kernel
  have hstep := @Sample.step 13 (.instruction (.recombine Sample.pair 1000 (Sample.guard 4))) rfl
  simp only [World.act, Result.toOption_eq_some] at hstep
  obtain ⟨hrecombine, -⟩ := exits_independent Sample.host_exact.issuerBlind
    (Sample.turned_agrees hmint) hclock (by decide)
  rcases hrecombine Sample.pair 1000 with ⟨e, e', he, -⟩ | ⟨u, u', hu, hu', hagrees, -⟩
  · cases hstep.symm.trans he
  · exact ⟨u, u', hu, hu', hagrees⟩

end DividendX
