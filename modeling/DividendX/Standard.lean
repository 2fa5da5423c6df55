import DividendX.Lib.Sha256
import DividendX.Simulation

/-!
# The standard host

A host that accepts exactly the token instructions whose documented requirements hold and that the
owner signed. It is exact, and it runs: on it, histories can be evaluated.

The module ends with the life of one series on the standard host, from the configuration of the
program to redemptions on both sides. Later modules take their inhabited instances from it.
-/

namespace DividendX

/-! ## Deciding requirements -/

namespace TokenInstruction

/-- The requirements and the owner's signature, as a test. -/
def check (b : Bank) : TokenInstruction → Bool
  | transferChecked source mint destination authority amount decimals =>
    match b.tokens source, b.tokens destination, b.mints mint with
    | some src, some dst, some m =>
      decide (src.mint = mint ∧ dst.mint = mint ∧ src.state = .initialized ∧
        dst.state = .initialized ∧ m.isPaused = false ∧ m.decimals = decimals ∧
        amount.toNat ≤ src.amount.toNat ∧
        (source ≠ destination → dst.amount.toNat + amount.toNat < 2 ^ 64) ∧ src.owner = authority)
    | _, _, _ => false
  | mintTo mint destination authority amount =>
    match b.tokens destination, b.mints mint with
    | some dst, some m =>
      decide (dst.mint = mint ∧ dst.state = .initialized ∧ m.mintAuthority = some authority ∧
        m.supply.toNat + amount.toNat < 2 ^ 64 ∧ dst.amount.toNat + amount.toNat < 2 ^ 64)
    | _, _ => false
  | burn mint source authority amount =>
    match b.tokens source, b.mints mint with
    | some src, some m =>
      decide (src.mint = mint ∧ src.state = .initialized ∧ amount.toNat ≤ src.amount.toNat ∧
        amount.toNat ≤ m.supply.toNat ∧ src.owner = authority)
    | _, _ => false
  | revokeMintAuthority mint authority =>
    match b.mints mint with
    | some m => decide (m.mintAuthority = some authority)
    | none => false

theorem check_iff {b : Bank} {ix : TokenInstruction} :
    ix.check b = true ↔ ix.Requires b ∧ ix.SignedByOwner b := by
  cases ix with
  | transferChecked source mint destination authority amount decimals =>
    simp only [check, Requires, SignedByOwner]
    cases hsrc : b.tokens source <;> cases hdst : b.tokens destination <;>
      cases hm : b.mints mint <;> simp
    tauto
  | mintTo mint destination authority amount =>
    simp only [check, Requires, SignedByOwner]
    cases hdst : b.tokens destination <;> cases hm : b.mints mint <;> simp
  | burn mint source authority amount =>
    simp only [check, Requires, SignedByOwner]
    cases hsrc : b.tokens source <;> cases hm : b.mints mint <;> simp
    tauto
  | revokeMintAuthority mint authority =>
    simp only [check, Requires, SignedByOwner]
    cases hm : b.mints mint <;> simp

end TokenInstruction

/-- The token programs to the letter, a hash function and a table of addresses. The error code of a
refused instruction is `InsufficientFunds`. -/
def standardHost (sha256 : List UInt8 → Bytes32) (addressBytes : Pubkey → Bytes32) : Host where
  sha256 := sha256
  addressBytes := addressBytes
  accepts b ix := if ix.check b then .ok () else .error 1
  accepts_requires b ix h := by
    split at h
    · rename_i hcheck
      exact (TokenInstruction.check_iff.mp hcheck).1
    · cases h

theorem standardHost_exact (sha256 : List UInt8 → Bytes32) (addressBytes : Pubkey → Bytes32) :
    (standardHost sha256 addressBytes).Exact := by
  intro b ix hrequires hsigned
  simp only [standardHost]
  rw [if_pos (TokenInstruction.check_iff.mpr ⟨hrequires, hsigned⟩)]

/-! ## Prefixes of a run -/

/-- The state after the first `n` labels, or the start if one was refused. -/
def stateAfter {σ α : Type} (step : σ → α → Option σ) (s : σ) (tr : List α) (n : Nat) : σ :=
  (runAll step s (tr.take n)).getD s

/-- Where the whole list is accepted, so is every prefix of it. -/
theorem run_stateAfter {σ α : Type} {step : σ → α → Option σ} {s : σ} {tr : List α}
    (h : (runAll step s tr).isSome = true) (n : Nat) :
    Run step s (tr.take n) (stateAfter step s tr n) := by
  obtain ⟨t, ht⟩ := Option.isSome_iff_exists.mp h
  rw [runAll_eq_some, ← List.take_append_drop n tr] at ht
  obtain ⟨m, hm, -⟩ := ht.split
  rw [stateAfter, runAll_eq_some.mpr hm]
  exact hm

/-! ## The life of one series -/

namespace Sample

/-- Thirty-two equal bytes. -/
def fill (b : UInt8) : Bytes32 := List.Vector.replicate 32 b

def admin : Bytes32 := fill 0x11
def attestor : Bytes32 := fill 0x12
def holder : Bytes32 := fill 0x13
def mintKey : Pubkey := .wallet (fill 0x14)
def issuerId : Bytes32 := fill 0x15
def evidence : Bytes32 := fill 0x16
def assetKey : Pubkey := .asset issuerId mintKey
def seriesKey : Pubkey := .series assetKey 2027
def vaultKey : Pubkey := .ata seriesKey mintKey
def holderCollateral : Pubkey := .wallet (fill 0x17)
def holderPt : Pubkey := .wallet (fill 0x18)
def holderDr : Pubkey := .wallet (fill 0x19)
def eventId : Bytes32 := fill 0x1a

/-- The derived address of the series, bump 255. -/
def seriesAddress : Bytes32 :=
  ⟨[161, 255, 111, 251, 213, 217, 246, 74, 102, 48, 161, 117, 47, 137, 209, 169, 34, 17, 214, 32,
    190, 133, 88, 155, 228, 210, 175, 155, 233, 116, 154, 231], rfl⟩

/-- The bytes of the addresses that are hashed in this history. -/
def addressBytes : Pubkey → Bytes32
  | .wallet bytes => bytes
  | .series _ _ => seriesAddress
  | _ => zero32

/-- The patterns of `1.0` and `1.25`. -/
def one : UInt64 := 0x3ff0000000000000
def fiveQuarters : UInt64 := 0x3ff4000000000000

/-- Collateral with six decimals and the scale extension. -/
def mint : Mint :=
  { tokenProgram := .token2022, mintAuthority := some (.wallet admin), supply := 1000000,
    decimals := 6, isInitialized := true, freezeAuthority := none,
    extensions := [⟨SCALED_UI_AMOUNT, List.replicate 32 0x11
      ++ [0, 0, 0, 0, 0, 0, 0xf0, 0x3f] ++ List.replicate 8 0 ++ [0, 0, 0, 0, 0, 0, 0xf0, 0x3f]⟩] }

/-- The holder's collateral account. -/
def collateral : TokenAccount :=
  { tokenProgram := .token2022, mint := mintKey, owner := .wallet holder, amount := 1000000,
    delegate := none, state := .initialized, closeAuthority := none }

/-- The world before the program was configured, on the last day of 2026. -/
def genesis : World :=
  { clock := ⟨10, 1798675200⟩
    bank :=
      { tokens := fun key => if key = holderCollateral then some collateral else none
        mints := fun key => if key = mintKey then some mint else none }
    upgradeAuthority := some (.wallet admin), config := none, policies := fun _ => none,
    series := fun _ => none, accumulators := fun _ => none, heads := fun _ => none,
    revisions := fun _ => none }

def pair : PairAccounts :=
  { holder := holder, assetPolicy := assetKey, series := seriesKey, collateralMint := mintKey,
    vault := vaultKey, holderCollateral := holderCollateral, ptMint := .pt seriesKey,
    drMint := .dr seriesKey, holderPt := holderPt, holderDr := holderDr }

def redemption (side : RedeemSide) : RedeemAccounts :=
  { holder := holder, assetPolicy := assetKey, series := seriesKey, collateralMint := mintKey,
    vault := vaultKey, holderCollateral := holderCollateral,
    claimMint := claimMintOf seriesKey side,
    holderClaim := match side with | .pt => holderPt | .dr => holderDr }

def guard (version : UInt64) : Guard := ⟨version, 1900000000, 1⟩

/-- A dividend in June 2027 that multiplies the scale by five quarters. -/
def event : EventInput :=
  { eventId := eventId, revision := 1, exDate := 20270615, status := STATUS_QUALIFIED,
    m0Bits := one, m1Bits := fiveQuarters, sourceFinal := true,
    originalEffectiveTime := 1798675200, sourcePaymentDate := 0, observedSlot := 10,
    evidenceDigest := evidence }

def headKey : Pubkey := .event seriesKey eventId

/-! The four messages hashed in this history, with their digests. -/

def controlsMessage : List UInt8 :=
  "dividendx:mint-controls:v1".toUTF8.data.toList ++ List.replicate 32 0x14
    ++ 1 :: List.replicate 32 0x11 ++ 0 :: List.replicate 32 0 ++ [25, 0] ++ List.replicate 32 0x11

def controlsDigest : Bytes32 :=
  ⟨[77, 39, 218, 86, 254, 238, 176, 49, 16, 40, 85, 8, 203, 206, 213, 135, 89, 158, 166, 212, 119,
    128, 180, 143, 156, 244, 161, 83, 26, 115, 22, 49], rfl⟩

def genesisMessage : List UInt8 :=
  "dividendx:journal-genesis:v1".toUTF8.data.toList ++ seriesAddress.toList ++ evidence.toList

def genesisDigest : Bytes32 :=
  ⟨[123, 36, 2, 243, 187, 67, 129, 156, 157, 68, 48, 129, 190, 211, 178, 158, 185, 105, 235, 26, 77,
    56, 30, 168, 88, 183, 42, 23, 37, 231, 155, 120], rfl⟩

def recordMessage : List UInt8 :=
  "dividendx:event-revision:v1".toUTF8.data.toList ++ seriesAddress.toList ++ zero32.toList
    ++ event.serialize

def recordDigest : Bytes32 :=
  ⟨[139, 194, 64, 229, 127, 64, 111, 102, 183, 219, 96, 147, 99, 179,
    28, 199, 113, 99, 116, 53, 140, 76, 109, 228, 143, 155, 87, 202, 109, 78, 68, 246], rfl⟩

def historyMessage : List UInt8 :=
  "dividendx:journal-history:v1".toUTF8.data.toList ++ genesisDigest.toList ++ recordDigest.toList

/-- The journal hash after the event. -/
def journalHash : Bytes32 :=
  ⟨[253, 149, 118, 180, 49, 198, 121, 103, 91, 179, 88, 1, 119, 168,
    133, 48, 193, 253, 217, 179, 236, 220, 99, 57, 213, 202, 68, 151, 114, 139, 239, 229], rfl⟩

/-- SHA-256, with the four digests looked up. -/
def sha256 (bytes : List UInt8) : Bytes32 :=
  if bytes = controlsMessage then controlsDigest
  else if bytes = genesisMessage then genesisDigest
  else if bytes = recordMessage then recordDigest
  else if bytes = historyMessage then journalHash
  else Sha256.hash bytes

theorem sha256_eq_hash (bytes : List UInt8) : sha256 bytes = Sha256.hash bytes := by
  have hcontrols : Sha256.hash controlsMessage = controlsDigest := by decide +kernel
  have hgenesis : Sha256.hash genesisMessage = genesisDigest := by decide +kernel
  have hrecord : Sha256.hash recordMessage = recordDigest := by decide +kernel
  have hhistory : Sha256.hash historyMessage = journalHash := by decide +kernel
  rw [sha256]
  split_ifs with h1 h2 h3 h4
  · rw [h1, hcontrols]
  · rw [h2, hgenesis]
  · rw [h3, hrecord]
  · rw [h4, hhistory]
  · rfl

def host : Host := standardHost sha256 addressBytes

theorem host_exact : host.Exact := standardHost_exact sha256 addressBytes

def stage : BeginFinalizationAccounts :=
  { attestor := attestor, assetPolicy := assetKey, series := seriesKey,
    accumulator := .accumulator seriesKey, collateralMint := mintKey, vault := vaultKey,
    ptMint := .pt seriesKey, drMint := .dr seriesKey }

def finish : CompleteFinalizationAccounts :=
  { keeper := holder, assetPolicy := assetKey, series := seriesKey,
    accumulator := .accumulator seriesKey, collateralMint := mintKey, vault := vaultKey,
    ptMint := .pt seriesKey, drMint := .dr seriesKey }

def fold : AccumulateEventAccounts :=
  { keeper := holder, series := seriesKey, accumulator := .accumulator seriesKey,
    eventHead := headKey, revision := .revision headKey 1 }

/-- Configuration, a deposit and a donation before the year; one dividend; finalization in stages
with a recombination in between; a direct burn and redemptions on both sides. -/
def actions : List Action :=
  [.instruction (.initializeConfig admin evidence),
   .instruction (.registerAsset ⟨admin, mintKey⟩ issuerId "XS" (.wallet attestor) evidence),
   .instruction (.refreshObservation ⟨attestor, assetKey, mintKey⟩ evidence 1798761600),
   .instruction (.createSeries ⟨assetKey, mintKey⟩ 2027),
   .open holderPt (.pt seriesKey) (.wallet holder),
   .open holderDr (.dr seriesKey) (.wallet holder),
   .instruction (.deposit pair 100000 (guard 0)),
   .donate vaultKey 777,
   .instruction (.upsertEvent ⟨attestor, assetKey, seriesKey⟩ event),
   .tick ⟨20, 1830297600⟩,
   .instruction (.refreshObservation ⟨attestor, assetKey, mintKey⟩ evidence 1830297700),
   .instruction (.beginFinalization stage 1 journalHash evidence),
   .instruction (.accumulateEvent fold),
   .instruction (.recombine pair 1000 (guard 4)),
   .instruction (.completeFinalization finish),
   .burn (.pt seriesKey) holderPt (.wallet holder) 5,
   .instruction (.redeem (redemption .dr) .dr 40000 false (guard 6)),
   .instruction (.redeem (redemption .pt) .pt 7 false (guard 7))]

/-- The world after the first `n` actions. -/
def world (n : Nat) : World := stateAfter (World.act host) genesis actions n

theorem genesis_genesis : genesis.Genesis := by
  refine ⟨rfl, fun _ => rfl, fun _ => rfl, fun _ => rfl, fun _ => rfl,
    fun _ => rfl, ?_, ?_, by decide⟩
  · intro key m hm
    simp only [genesis, Option.ite_none_right_eq_some] at hm
    rw [hm.1]
    rfl
  · intro key t ht
    simp only [genesis, Option.ite_none_right_eq_some, Option.some.injEq] at ht
    rw [← ht.2]
    rfl

/-- All of it is accepted. -/
theorem accepted : (runAll (World.act host) genesis actions).isSome = true := by decide +kernel

theorem history (n : Nat) : World.History host genesis (actions.take n) (world n) :=
  ⟨genesis_genesis, run_stateAfter accepted n⟩

/-- One action leads from each world to the next. -/
theorem step {n : Nat} {a : Action} (h : actions[n]? = some a) :
    (world n).act host a = some (world (n + 1)) := by
  have hnext := (history (n + 1)).2
  rw [List.take_add_one, h, Option.toList_some] at hnext
  obtain ⟨w, hw, hstep⟩ := hnext.unsnoc
  cases hw.functional (history n).2
  exact hstep

/-- The actions in between lead from each world to any later one. -/
theorem between {n m : Nat} (h : n ≤ m) :
    Run (World.act host) (world n) ((actions.take m).drop n) (world m) := by
  have hall := (history m).2
  rw [← List.take_append_drop n (actions.take m), List.take_take, Nat.min_eq_left h] at hall
  obtain ⟨w, hw, hrest⟩ := hall.split
  cases hw.functional (history n).2
  exact hrest

/-- What evaluation finds true of the series after `n` actions. -/
theorem series_of_any {n : Nat} {p : Series → Bool}
    (h : ((world n).series seriesKey).any p = true) :
    ∃ s, (world n).series seriesKey = some s ∧ p s = true := by
  cases hs : (world n).series seriesKey with
  | none =>
    rw [hs] at h
    cases h
  | some s =>
    rw [hs] at h
    exact ⟨s, rfl, h⟩

end Sample

end DividendX
