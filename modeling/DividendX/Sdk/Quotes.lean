import DividendX.Sdk.TokenProfile
import DividendX.Granted

/-!
# Quotes

`quotes.ts` and the snapshot of `accounts.ts` it works on. From one coherent read of the chain the
client decides whether a deposit, a recombination or a redemption would go through, what it would
give, and which guard to send along.

An address of the snapshot that holds no account of the expected kind counts as missing here: the
client tells a missing account, a wrong owner and a failed decoding apart by the error it throws,
and gives no snapshot in any of these cases. The IDL it decodes with is the program's own, and the
addresses it prints into an error are left out of the text.
-/

namespace DividendX

namespace Sdk

/-! ## Snapshots -/

/-- `SeriesSnapshot`, as far as quotes read it. -/
structure SeriesSnapshot where
  address : Pubkey
  assetPolicy : Pubkey
  collateralMint : Pubkey
  ptMint : Pubkey
  drMint : Pubkey
  vault : Pubkey
  stateVersion : Int
  startUnixTimestamp : Int
  maturityUnixTimestamp : Int
  phase : SeriesPhase
  accountableRaw : Int
  unresolvedCount : Int
  inYearQualifiedCount : Int
  sealedCoverageDigest : Bytes32
  finalSupplyRaw : Int
  finalPtPoolRaw : Int
  finalDrPoolRaw : Int
  redeemedPtClaimsRaw : Int
  redeemedDrClaimsRaw : Int
  ptPaidRaw : Int
  drPaidRaw : Int

/-- `normalizeSeriesAccount`. -/
def normalizeSeriesAccount (address : Pubkey) (s : Series) : SeriesSnapshot :=
  { address := address
    assetPolicy := s.assetPolicy
    collateralMint := s.collateralMint
    ptMint := s.ptMint
    drMint := s.drMint
    vault := s.vault
    stateVersion := s.stateVersion.toNat
    startUnixTimestamp := s.startTimestamp.toInt
    maturityUnixTimestamp := s.maturityTimestamp.toInt
    phase := s.phase
    accountableRaw := s.nominalBacking.toNat
    unresolvedCount := s.unresolvedCount.toNat
    inYearQualifiedCount := s.inYearQualifiedCount.toNat
    sealedCoverageDigest := s.sealedCoverageDigest
    finalSupplyRaw := s.finalSupply.toNat
    finalPtPoolRaw := s.ptPool.toNat
    finalDrPoolRaw := s.drPool.toNat
    redeemedPtClaimsRaw := s.ptRedeemedNominal.toNat
    redeemedDrClaimsRaw := s.drRedeemedNominal.toNat
    ptPaidRaw := s.ptPaid.toNat
    drPaidRaw := s.drPaid.toNat }

/-- `AssetPolicySnapshot`. -/
structure AssetPolicySnapshot where
  address : Pubkey
  collateralMint : Pubkey
  decimals : Int
  extensionsMask : Int
  enabled : Bool
  observedSlot : Int
  observationValidUntil : Int
  observationEvidenceDigest : Bytes32
  observedScale : ScaleTuple
  controlsFingerprint : Bytes32
  mintProfileMatchesReviewed : Bool

/-- `normalizeAssetPolicyAccount`. -/
def normalizeAssetPolicyAccount (address : Pubkey) (p : AssetPolicy)
    (mintProfileMatchesReviewed : Bool) : AssetPolicySnapshot :=
  { address := address
    collateralMint := p.collateralMint
    decimals := p.decimals.toNat
    extensionsMask := p.extensionsMask.toNat
    enabled := p.admissionEnabled
    observedSlot := p.observedSlot.toNat
    observationValidUntil := p.observationValidUntil.toInt
    observationEvidenceDigest := p.observationEvidenceDigest
    observedScale :=
      { currentBits := p.reviewedCurrentMultiplierBits.toNat
        pendingBits := p.reviewedNewMultiplierBits.toNat
        pendingEffectiveTimestamp := p.reviewedNewMultiplierEffectiveTimestamp.toInt
        activeBits := p.reviewedActiveMultiplierBits.toNat }
    controlsFingerprint := p.reviewedControlsFingerprint
    mintProfileMatchesReviewed := mintProfileMatchesReviewed }

/-- `mintProfileMatchesPolicy`. -/
def mintProfileMatchesPolicy (policy : AssetPolicySnapshot) (profile : InspectedMintProfile) :
    Bool :=
  profile.accountingFactorsSupported
    && profile.decimals == policy.decimals
    && profile.extensionsMask == policy.extensionsMask
    && profile.scale.currentBits == policy.observedScale.currentBits
    && profile.scale.pendingBits == policy.observedScale.pendingBits
    && profile.scale.pendingEffectiveTimestamp == policy.observedScale.pendingEffectiveTimestamp
    && profile.scale.activeBits == policy.observedScale.activeBits
    && profile.controlsFingerprint == policy.controlsFingerprint

/-- `QuoteSnapshotAddresses`. -/
structure QuoteSnapshotAddresses where
  assetPolicy : Pubkey
  series : Pubkey
  accumulator : Pubkey
  collateralMint : Pubkey
  vault : Pubkey
  holder : Option Pubkey
  holderCollateral : Option Pubkey
  holderPt : Option Pubkey
  holderDr : Option Pubkey

/-- `CoherentQuoteSnapshot`, as far as quotes read it. -/
structure CoherentQuoteSnapshot where
  clock : ChainClock
  policy : AssetPolicySnapshot
  series : SeriesSnapshot
  mintProfile : InspectedMintProfile
  vaultRaw : Int
  holderCollateralRaw : Option Int
  holderPtRaw : Option Int
  holderDrRaw : Option Int

/-- The error for an account the snapshot needs and does not find. -/
def missing : Error := ⟨.rpcAccountMissing, "one or more required quote accounts are missing"⟩

/-- `unpackOptional`: the token account at a requested address. -/
def unpackOptional (w : World) (address : Option Pubkey) (program : TokenProgramId) :
    Thrown (Option TokenAccount) :=
  match address with
  | none => return none
  | some key => do
    let error : Error := ⟨.rpcAccountOwner, "holder token account owner mismatch"⟩
    let account ← Result.okOr (w.bank.tokens key) error
    Result.require (account.tokenProgram = program) error
    return some account

/-- The loop over the holder's accounts: each is usable and belongs to the holder. -/
def checkHolder (holder : Option Pubkey) : Option TokenAccount → Thrown Unit
  | none => return ()
  | some account => do
    invariant (account.state = .initialized) .invalidSeries
      "holder token account is not initialized and transferable"
    match holder with
    | none => return ()
    | some key =>
      invariant (account.owner = key) .invalidSeries "holder token account authority mismatch"

/-- A requested account is of the right mint. -/
def checkMint (mint : Pubkey) (message : String) : Option TokenAccount → Thrown Unit
  | none => return ()
  | some account => invariant (account.mint = mint) .invalidSeries message

/-- `fetchQuoteSnapshot`. -/
def fetchQuoteSnapshot (host : Host) (w : World) (addresses : QuoteSnapshotAddresses) :
    Thrown CoherentQuoteSnapshot := do
  let optionalAddresses :=
    [addresses.holderCollateral, addresses.holderPt, addresses.holderDr].filterMap id
  invariant (optionalAddresses.length = 0 ∨ addresses.holder ≠ none) .invalidSeries
    "holder authority is required when holder token accounts are requested"
  let policyAccount ← Result.okOr (w.policies addresses.assetPolicy) missing
  let seriesAccount ← Result.okOr (w.series addresses.series) missing
  let accumulator ← Result.okOr (w.accumulators addresses.accumulator) missing
  let mint ← Result.okOr (w.bank.mints addresses.collateralMint) missing
  let vault ← Result.okOr (w.bank.tokens addresses.vault) missing
  invariant (mint.tokenProgram = .token2022 ∧ vault.tokenProgram = .token2022) .rpcAccountOwner
    "collateral mint or vault is not owned by Token-2022"
  let clock : ChainClock :=
    { slot := w.clock.slot.toNat, unixTimestamp := w.clock.unixTimestamp.toInt }
  let policy := normalizeAssetPolicyAccount addresses.assetPolicy policyAccount false
  let series := normalizeSeriesAccount addresses.series seriesAccount
  let mintProfile ← inspectMintProfile host addresses.collateralMint mint clock
  let policy := { policy with
    mintProfileMatchesReviewed := mintProfileMatchesPolicy policy mintProfile }
  invariant (policy.collateralMint = addresses.collateralMint) .invalidSeries
    "asset policy collateral mint mismatch"
  invariant (series.assetPolicy = addresses.assetPolicy) .invalidSeries
    "series asset policy mismatch"
  invariant (series.collateralMint = addresses.collateralMint) .invalidSeries
    "series collateral mint mismatch"
  invariant (series.vault = addresses.vault) .invalidSeries "series vault mismatch"
  invariant (accumulator.series = addresses.series) .invalidSeries "accumulator series mismatch"
  invariant (vault.mint = addresses.collateralMint ∧ vault.owner = addresses.series)
    .invalidSeries "vault mint or authority mismatch"
  invariant (vault.delegate = none ∧ vault.closeAuthority = none) .invalidSeries
    "vault has a delegate or alternate close authority"
  invariant (vault.state = .initialized) .invalidSeries "vault is not initialized and transferable"
  let holderCollateral ← unpackOptional w addresses.holderCollateral .token2022
  let holderPt ← unpackOptional w addresses.holderPt .token
  let holderDr ← unpackOptional w addresses.holderDr .token
  checkHolder addresses.holder holderCollateral
  checkHolder addresses.holder holderPt
  checkHolder addresses.holder holderDr
  checkMint addresses.collateralMint "holder collateral mint mismatch" holderCollateral
  checkMint series.ptMint "holder PT mint mismatch" holderPt
  checkMint series.drMint "holder DR mint mismatch" holderDr
  return { clock := clock, policy := policy, series := series, mintProfile := mintProfile,
           vaultRaw := vault.amount.toNat,
           holderCollateralRaw := holderCollateral.map fun t => (t.amount.toNat : Int),
           holderPtRaw := holderPt.map fun t => (t.amount.toNat : Int),
           holderDrRaw := holderDr.map fun t => (t.amount.toNat : Int) }

/-! ## Eligibility -/

/-- `assertI64`. -/
def assertI64 (value : Int) (label : String) : Thrown Unit :=
  invariant (-2 ^ 63 ≤ value ∧ value ≤ 2 ^ 63 - 1) .invalidClock
    (label ++ " must be a signed i64 bigint")

/-- The part of `requiredCustodyRaw` for a finalized series: check the books, then add up what the
pools still owe. -/
def remainingCustodyRaw (series : SeriesSnapshot) : Thrown Int := do
  assertU64 series.finalSupplyRaw "final supply"
  assertU64 series.finalPtPoolRaw "PT pool"
  assertU64 series.finalDrPoolRaw "DR pool"
  assertU64 series.redeemedPtClaimsRaw "PT redeemed claims"
  assertU64 series.redeemedDrClaimsRaw "DR redeemed claims"
  assertU64 series.ptPaidRaw "PT paid"
  assertU64 series.drPaidRaw "DR paid"
  if series.finalSupplyRaw = 0 then do
    invariant (series.finalPtPoolRaw = 0 ∧ series.finalDrPoolRaw = 0
      ∧ series.redeemedPtClaimsRaw = 0 ∧ series.redeemedDrClaimsRaw = 0
      ∧ series.ptPaidRaw = 0 ∧ series.drPaidRaw = 0) .invalidSeries
      "zero-supply final series has inconsistent pools or redemption counters"
    return 0
  else do
    invariant (series.finalPtPoolRaw + series.finalDrPoolRaw = series.finalSupplyRaw)
      .invalidSeries "final pools do not sum to final supply"
    invariant (series.redeemedPtClaimsRaw ≤ series.finalSupplyRaw
      ∧ series.redeemedDrClaimsRaw ≤ series.finalSupplyRaw) .invalidSeries
      "redeemed nominal claims exceed final supply"
    invariant (series.ptPaidRaw ≤ series.finalPtPoolRaw ∧ series.drPaidRaw ≤ series.finalDrPoolRaw)
      .invalidSeries "paid collateral exceeds a final pool"
    invariant (series.ptPaidRaw =
      (series.redeemedPtClaimsRaw * series.finalPtPoolRaw).tdiv series.finalSupplyRaw)
      .invalidSeries "PT paid counter is inconsistent"
    invariant (series.drPaidRaw =
      (series.redeemedDrClaimsRaw * series.finalDrPoolRaw).tdiv series.finalSupplyRaw)
      .invalidSeries "DR paid counter is inconsistent"
    return series.finalPtPoolRaw - series.ptPaidRaw + series.finalDrPoolRaw - series.drPaidRaw

/-- `requiredCustodyRaw`. -/
def requiredCustodyRaw (series : SeriesSnapshot) : Thrown Int := do
  assertU64 series.accountableRaw "accountable backing"
  if series.phase ≠ .finalized then return series.accountableRaw else remainingCustodyRaw series

/-- `CustodySnapshot`. -/
structure CustodySnapshot where
  vaultRaw : Int
  requiredRaw : Int
  healthy : Bool

/-- `custodySnapshot`. -/
def custodySnapshot (series : SeriesSnapshot) (vaultRaw : Int) : Thrown CustodySnapshot := do
  assertU64 vaultRaw "vault raw amount"
  let requiredRaw ← requiredCustodyRaw series
  return { vaultRaw := vaultRaw, requiredRaw := requiredRaw, healthy := requiredRaw ≤ vaultRaw }

/-- `ProductPhase`. -/
inductive ProductPhase where
  | funding
  | collecting
  | maturedPending
  | redeemable
  | exception
  deriving DecidableEq

/-- `EligibilitySnapshot`. -/
structure EligibilitySnapshot where
  productPhase : ProductPhase
  depositsOpen : Bool
  journalResolved : Bool
  coverageAttested : Bool
  mature : Bool
  finalizationInProgress : Bool
  redeemable : Bool
  custody : CustodySnapshot
  reasons : List String

/-- `digest.some((byte) => byte !== 0)`. -/
def someNonzero (digest : Bytes32) : Bool := digest.toList.any fun byte => byte != 0

/-- `deriveEligibility`. -/
def deriveEligibility (series : SeriesSnapshot) (policy : AssetPolicySnapshot) (vaultRaw : Int)
    (clock : ChainClock) : Thrown EligibilitySnapshot := do
  let now := clock.unixTimestamp
  assertI64 now "clock Unix timestamp"
  assertU64 clock.slot "clock slot"
  let custody ← custodySnapshot series vaultRaw
  let mature : Bool := series.maturityUnixTimestamp ≤ now
  let observationFresh : Bool := now ≤ policy.observationValidUntil
  let journalResolved : Bool := series.unresolvedCount = 0
  let coverageAttested := (series.phase == .sealing || series.phase == .finalized)
    && someNonzero series.sealedCoverageDigest
  let observationAuthenticated := someNonzero policy.observationEvidenceDigest
    && policy.observedSlot ≤ clock.slot
  let fundingJournalSafe : Bool := series.unresolvedCount = 0 ∧ series.inYearQualifiedCount = 0
  let funding : Bool := now < series.startUnixTimestamp
  let depositsOpen := series.phase == .open
    && funding
    && policy.enabled
    && observationFresh
    && observationAuthenticated
    && fundingJournalSafe
    && policy.mintProfileMatchesReviewed
    && custody.healthy
  let reason (condition : Bool) (text : String) : List String := if condition then [text] else []
  let unfinished := series.phase != .finalized
  let early := unfinished && funding
  return {
    productPhase := if !custody.healthy then .exception
      else if series.phase = .finalized then .redeemable
      else if mature then .maturedPending
      else if funding then .funding
      else .collecting
    depositsOpen := depositsOpen
    journalResolved := journalResolved
    coverageAttested := coverageAttested
    mature := mature
    finalizationInProgress := series.phase == .sealing
    redeemable := series.phase == .finalized && custody.healthy
    custody := custody
    reasons := reason (!custody.healthy) "custody_deficit"
      ++ reason (unfinished && !mature) "not_mature"
      ++ reason (unfinished && !journalResolved) "journal_unresolved"
      ++ reason (unfinished && mature && !coverageAttested) "source_coverage_not_attested"
      ++ reason (early && !policy.enabled) "admission_disabled"
      ++ reason (early && !observationFresh) "observation_stale"
      ++ reason (early && !observationAuthenticated) "observation_unverified_or_future"
      ++ reason (early && !fundingJournalSafe) "series_journal_blocks_funding"
      ++ reason (early && !policy.mintProfileMatchesReviewed)
        "mint_profile_changed_or_unverified" }

/-! ## Quotes -/

/-- `Guard`. -/
structure Guard where
  expectedStateVersion : Int
  expiryUnixTimestamp : Int
  minimumRawOutput : Int

/-- The guard in the instruction data. -/
def Guard.encode (g : Guard) : DividendX.Guard :=
  { expectedStateVersion := UInt64.ofNat g.expectedStateVersion.toNat
    expiryUnixTimestamp := Int64.ofInt g.expiryUnixTimestamp
    minimumRawOutput := UInt64.ofNat g.minimumRawOutput.toNat }

/-- An amount in the instruction data. -/
def encodeAmount (raw : Int) : UInt64 := UInt64.ofNat raw.toNat

/-- `guard`. -/
def guard (series : SeriesSnapshot) (minimumRawOutput expiryUnixTimestamp nowUnixTimestamp : Int) :
    Thrown Guard := do
  assertU64 series.stateVersion "expected state version"
  assertU64 minimumRawOutput "minimum raw output"
  assertI64 expiryUnixTimestamp "quote expiry"
  invariant (nowUnixTimestamp ≤ expiryUnixTimestamp) .invalidQuote
    "quote expiry is already in the past"
  return { expectedStateVersion := series.stateVersion, expiryUnixTimestamp := expiryUnixTimestamp,
           minimumRawOutput := minimumRawOutput }

/-- `DepositQuote`. -/
structure DepositQuote where
  inputRaw : Int
  ptOutputRaw : Int
  drOutputRaw : Int
  guard : Guard

/-- `RecombineQuote`. -/
structure RecombineQuote where
  ptInputRaw : Int
  drInputRaw : Int
  collateralOutputRaw : Int
  guard : Guard

/-- `RedemptionQuote`. -/
structure RedemptionQuote where
  side : RedeemSide
  claimInputRaw : Int
  collateralOutputRaw : Int
  allowZero : Bool
  guard : Guard

/-- `quoteDeposit`; the minimum output defaults to the input. -/
def quoteDeposit (series : SeriesSnapshot) (policy : AssetPolicySnapshot)
    (vaultRaw inputRaw ownedCollateralRaw : Int) (clock : ChainClock) (expiryUnixTimestamp : Int)
    (minimumRawOutput : Option Int) : Thrown DepositQuote := do
  let minimumRawOutput := minimumRawOutput.getD inputRaw
  assertU64 inputRaw "deposit amount" false
  assertU64 ownedCollateralRaw "owned collateral balance"
  invariant (inputRaw ≤ ownedCollateralRaw) .invalidQuote
    "deposit amount exceeds the current owner collateral balance"
  let eligibility ← deriveEligibility series policy vaultRaw clock
  invariant (eligibility.depositsOpen = true) .invalidQuote "series is not eligible for deposits"
  invariant (minimumRawOutput ≤ inputRaw) .invalidQuote
    "minimum raw output exceeds exact paired mint output"
  let guard ← guard series minimumRawOutput expiryUnixTimestamp clock.unixTimestamp
  return { inputRaw := inputRaw, ptOutputRaw := inputRaw, drOutputRaw := inputRaw, guard := guard }

/-- `quoteRecombine`; the minimum output defaults to the amount. -/
def quoteRecombine (series : SeriesSnapshot)
    (vaultRaw amountRaw ownedPtRaw ownedDrRaw nowUnixTimestamp expiryUnixTimestamp : Int)
    (minimumRawOutput : Option Int) : Thrown RecombineQuote := do
  let minimumRawOutput := minimumRawOutput.getD amountRaw
  assertU64 amountRaw "recombine amount" false
  assertU64 ownedPtRaw "owned PT balance"
  assertU64 ownedDrRaw "owned DR balance"
  invariant (amountRaw ≤ ownedPtRaw ∧ amountRaw ≤ ownedDrRaw) .invalidQuote
    "recombine amount exceeds current owner paired balances"
  invariant (series.phase ≠ .finalized) .invalidQuote
    "paired recombination closes at finalization"
  let custody ← custodySnapshot series vaultRaw
  invariant (custody.healthy = true) .invalidQuote "custody is below total obligations"
  invariant (amountRaw ≤ series.accountableRaw) .invalidQuote
    "recombine amount exceeds accountable backing"
  invariant (minimumRawOutput ≤ amountRaw) .invalidQuote
    "minimum raw output exceeds exact collateral output"
  let guard ← guard series minimumRawOutput expiryUnixTimestamp nowUnixTimestamp
  return { ptInputRaw := amountRaw, drInputRaw := amountRaw, collateralOutputRaw := amountRaw,
           guard := guard }

/-- `quoteRedemption`; the minimum output defaults to the quoted output. -/
def quoteRedemption (series : SeriesSnapshot) (vaultRaw : Int) (side : RedeemSide)
    (amountRaw ownedClaimRaw : Int) (allowZero : Bool) (nowUnixTimestamp expiryUnixTimestamp : Int)
    (minimumRawOutput : Option Int) : Thrown RedemptionQuote := do
  assertU64 amountRaw "redemption amount" false
  assertU64 ownedClaimRaw "owned claim balance"
  invariant (amountRaw ≤ ownedClaimRaw) .invalidQuote
    "redemption amount exceeds the current owner claim balance"
  invariant (series.phase = .finalized) .invalidQuote "series is not finalized"
  let custody ← custodySnapshot series vaultRaw
  invariant (custody.healthy = true) .invalidQuote "custody is below all remaining obligations"
  let poolRaw := match side with
    | .pt => series.finalPtPoolRaw
    | .dr => series.finalDrPoolRaw
  let previouslyRedeemed := match side with
    | .pt => series.redeemedPtClaimsRaw
    | .dr => series.redeemedDrClaimsRaw
  let outputRaw ← cumulativeRedemptionPayout poolRaw series.finalSupplyRaw previouslyRedeemed
    amountRaw
  invariant (0 < outputRaw ∨ allowZero = true) .invalidQuote
    "zero-output redemption requires explicit consent"
  let minimum := minimumRawOutput.getD outputRaw
  invariant (minimum ≤ outputRaw) .invalidQuote
    "minimum raw output exceeds exact quoted collateral output"
  let guard ← guard series minimum expiryUnixTimestamp nowUnixTimestamp
  return { side := side, claimInputRaw := amountRaw, collateralOutputRaw := outputRaw,
           allowZero := allowZero, guard := guard }

/-! ## What the client computes from an account of the program -/

theorem assertI64_toInt (x : Int64) (label : String) : assertI64 x.toInt label = .ok () := by
  rw [assertI64, invariant_eq_ok]
  have hlow := x.le_toInt
  have hhigh := x.toInt_lt
  exact ⟨hlow, by omega⟩

theorem someNonzero_iff {digest : Bytes32} : someNonzero digest = true ↔ digest ≠ zero32 := by
  rw [someNonzero, List.any_eq_true, ← not_iff_not, not_not]
  constructor
  · intro hnone
    apply List.Vector.toList_injective
    change digest.toList = List.replicate 32 0
    rw [List.eq_replicate_iff]
    refine ⟨digest.toList_length, fun byte hbyte => ?_⟩
    by_contra hne
    exact hnone ⟨byte, hbyte, bne_iff_ne.mpr hne⟩
  · rintro rfl ⟨byte, hbyte, hne⟩
    change byte ∈ List.replicate 32 0 at hbyte
    exact bne_iff_ne.mp hne (List.eq_of_mem_replicate hbyte)

section Normalized

variable {k : Pubkey} {s : Series}

/-- The quotient of `bigint`s is the floor of the program. -/
theorem natCast_cumulative (b pool supply : Nat) :
    ((b : Int) * pool).tdiv supply = (cumulative b pool supply : Int) := by
  rw [← Int.natCast_mul, ← Int.ofNat_tdiv]
  rfl

/-- The books of a finalized series pass the client's checks, and add up to its debt. -/
theorem remainingCustodyRaw_eq (h : Redeemable s) (hfinal : s.phase = .finalized) :
    remainingCustodyRaw (normalizeSeriesAccount k s) = .ok (s.debt : Int) := by
  have hpools := h.pools hfinal
  have hpt : s.ptPaid.toNat ≤ s.ptPool.toNat := h.paid_le hfinal .pt
  have hdr : s.drPaid.toNat ≤ s.drPool.toNat := h.paid_le hfinal .dr
  have hrpt : s.ptRedeemedNominal.toNat ≤ s.finalSupply.toNat := h.within .pt hfinal
  have hrdr : s.drRedeemedNominal.toNat ≤ s.finalSupply.toNat := h.within .dr hfinal
  have htpt : s.ptPaid.toNat = cumulative s.ptRedeemedNominal.toNat s.ptPool.toNat
    s.finalSupply.toNat := h.telescoped .pt hfinal
  have htdr : s.drPaid.toNat = cumulative s.drRedeemedNominal.toNat s.drPool.toNat
    s.finalSupply.toNat := h.telescoped .dr hfinal
  have hdebt := Series.debt_of_final hfinal
  -- the fields of the snapshot
  have fsupply : (normalizeSeriesAccount k s).finalSupplyRaw = s.finalSupply.toNat := rfl
  have fptPool : (normalizeSeriesAccount k s).finalPtPoolRaw = s.ptPool.toNat := rfl
  have fdrPool : (normalizeSeriesAccount k s).finalDrPoolRaw = s.drPool.toNat := rfl
  have fpt : (normalizeSeriesAccount k s).redeemedPtClaimsRaw = s.ptRedeemedNominal.toNat := rfl
  have fdr : (normalizeSeriesAccount k s).redeemedDrClaimsRaw = s.drRedeemedNominal.toNat := rfl
  have fptPaid : (normalizeSeriesAccount k s).ptPaidRaw = s.ptPaid.toNat := rfl
  have fdrPaid : (normalizeSeriesAccount k s).drPaidRaw = s.drPaid.toNat := rfl
  simp only [remainingCustodyRaw, Result.bind_eq_ok, Result.exists_unit]
  refine ⟨assertU64_toNat _ _, assertU64_toNat _ _, assertU64_toNat _ _, assertU64_toNat _ _,
    assertU64_toNat _ _, assertU64_toNat _ _, assertU64_toNat _ _, ?_⟩
  split
  · rename_i hzero
    simp only [Result.bind_eq_ok, Result.exists_unit, invariant_eq_ok, Result.pure_eq_ok]
    exact ⟨⟨by omega, by omega, by omega, by omega, by omega, by omega⟩, by omega⟩
  · simp only [Result.bind_eq_ok, Result.exists_unit, invariant_eq_ok, Result.pure_eq_ok]
    rw [fpt, fdr, fptPool, fdrPool, fsupply, fptPaid, fdrPaid, natCast_cumulative,
      natCast_cumulative]
    exact ⟨by omega, ⟨by omega, by omega⟩, ⟨by omega, by omega⟩, by omega, by omega, by omega⟩

/-- The client's custody requirement is the debt of the series. -/
theorem requiredCustodyRaw_eq (h : Redeemable s) :
    requiredCustodyRaw (normalizeSeriesAccount k s) = .ok (s.debt : Int) := by
  simp only [requiredCustodyRaw, Result.bind_eq_ok, Result.exists_unit]
  refine ⟨assertU64_toNat _ _, ?_⟩
  split
  · rename_i hopen
    rw [Series.debt_of_open hopen]
    rfl
  · rename_i hfinal
    exact remainingCustodyRaw_eq h (not_not.mp hfinal)

/-- The custody of a series is computed, and healthy exactly without a deficit. -/
theorem custodySnapshot_eq (h : Redeemable s) (v : UInt64) :
    ∃ custody, custodySnapshot (normalizeSeriesAccount k s) v.toNat = .ok custody ∧
      (custody.healthy = true ↔ s.debt ≤ v.toNat) := by
  simp only [custodySnapshot, Result.bind_eq_ok, Result.exists_unit, Result.pure_eq_ok,
    assertU64_toNat, true_and]
  refine ⟨_, ⟨_, requiredCustodyRaw_eq h, rfl⟩, ?_⟩
  rw [decide_eq_true_iff, Int.ofNat_le]

end Normalized

/-! ## A snapshot with the holder's accounts -/

/-- A holder and the three token accounts a quote is asked for. -/
structure Holder where
  wallet : Bytes32
  collateral : Pubkey
  pt : Pubkey
  dr : Pubkey

/-- Request the holder's accounts along with the series. -/
def QuoteSnapshotAddresses.requestFor (a : QuoteSnapshotAddresses) (holder : Holder) :
    QuoteSnapshotAddresses :=
  { a with
    holder := some (.wallet holder.wallet)
    holderCollateral := some holder.collateral
    holderPt := some holder.pt
    holderDr := some holder.dr }

/-- The clock of a snapshot. -/
def ChainClock.ofProgram (clock : Clock) : ChainClock :=
  { slot := clock.slot.toNat, unixTimestamp := clock.unixTimestamp.toInt }

/-- The accounts a snapshot was taken of. -/
structure Sources where
  policy : AssetPolicy
  series : Series
  mint : Mint
  vault : TokenAccount
  collateral : TokenAccount
  pt : TokenAccount
  dr : TokenAccount

/-- What a snapshot with the holder's accounts tells about the chain. -/
structure Fetched (host : Host) (w : World) (a : QuoteSnapshotAddresses) (holder : Holder)
    (snap : CoherentQuoteSnapshot) (src : Sources) : Prop where
  policy : w.policies a.assetPolicy = some src.policy
  series : w.series a.series = some src.series
  mint : w.bank.mints a.collateralMint = some src.mint
  vault : w.bank.tokens a.vault = some src.vault
  collateral : w.bank.tokens holder.collateral = some src.collateral
  pt : w.bank.tokens holder.pt = some src.pt
  dr : w.bank.tokens holder.dr = some src.dr
  mintProgram : src.mint.tokenProgram = .token2022
  vaultProgram : src.vault.tokenProgram = .token2022
  profile : inspectMintProfile host a.collateralMint src.mint (.ofProgram w.clock) =
    .ok snap.mintProfile
  seriesPolicy : src.series.assetPolicy = a.assetPolicy
  seriesMint : src.series.collateralMint = a.collateralMint
  seriesVault : src.series.vault = a.vault
  vaultMint : src.vault.mint = a.collateralMint
  vaultOwner : src.vault.owner = a.series
  vaultAuthorities : src.vault.delegate = none ∧ src.vault.closeAuthority = none
  vaultState : src.vault.state = .initialized
  holderCollateral : HolderValid .token2022 src.collateral (.wallet holder.wallet) a.collateralMint
  holderPt : HolderValid .token src.pt (.wallet holder.wallet) src.series.ptMint
  holderDr : HolderValid .token src.dr (.wallet holder.wallet) src.series.drMint
  snapshot : snap =
    { clock := .ofProgram w.clock
      policy := normalizeAssetPolicyAccount a.assetPolicy src.policy
        (mintProfileMatchesPolicy (normalizeAssetPolicyAccount a.assetPolicy src.policy false)
          snap.mintProfile)
      series := normalizeSeriesAccount a.series src.series
      mintProfile := snap.mintProfile
      vaultRaw := src.vault.amount.toNat
      holderCollateralRaw := some (src.collateral.amount.toNat : Int)
      holderPtRaw := some (src.pt.amount.toNat : Int)
      holderDrRaw := some (src.dr.amount.toNat : Int) }

theorem unpackOptional_eq_ok {w : World} {key : Pubkey} {program : TokenProgramId}
    {account : Option TokenAccount} :
    unpackOptional w (some key) program = .ok account ↔
      ∃ t, w.bank.tokens key = some t ∧ t.tokenProgram = program ∧ account = some t := by
  simp only [unpackOptional, Result.bind_eq_ok, Result.okOr_eq_ok, Result.require_eq_ok,
    Result.exists_unit, Result.pure_eq_ok, eq_comm (a := account)]

theorem checkHolder_eq_ok {holder : Pubkey} {t : TokenAccount} {u : Unit} :
    checkHolder (some holder) (some t) = .ok u ↔ t.state = .initialized ∧ t.owner = holder := by
  simp only [checkHolder, Result.bind_eq_ok, Result.exists_unit, invariant_eq_ok]

theorem checkMint_eq_ok {mint : Pubkey} {message : String} {t : TokenAccount} {u : Unit} :
    checkMint mint message (some t) = .ok u ↔ t.mint = mint := by
  simp only [checkMint, invariant_eq_ok]

/-- Every check of the snapshot, read backwards. -/
theorem exists_sources {host : Host} {w : World} {a : QuoteSnapshotAddresses} {holder : Holder}
    {snap : CoherentQuoteSnapshot}
    (h : fetchQuoteSnapshot host w (a.requestFor holder) = .ok snap) :
    ∃ src, Fetched host w a holder snap src := by
  generalize hb : a.requestFor holder = b at h
  simp only [fetchQuoteSnapshot, Result.bind_eq_ok, Result.exists_unit, Result.okOr_eq_ok,
    invariant_eq_ok, Result.pure_eq_ok] at h
  obtain ⟨-, p, hp, s, hs, acc, -, m, hm, v, hv, ⟨hmp, hvp⟩, profile, hprofile, -, hsp, hsm, hsv, -,
    ⟨hvm, hvo⟩, hva, hvs, c?, huc, t?, hut, d?, hud, hcs, hts, hds, hcm, htm, hdm,
    rfl⟩ := h
  subst hb
  obtain ⟨c, hc, hcp, rfl⟩ := unpackOptional_eq_ok.mp huc
  obtain ⟨t, ht, htp, rfl⟩ := unpackOptional_eq_ok.mp hut
  obtain ⟨d, hd, hdp, rfl⟩ := unpackOptional_eq_ok.mp hud
  obtain ⟨hcs, hco⟩ := checkHolder_eq_ok.mp hcs
  obtain ⟨hts, hto⟩ := checkHolder_eq_ok.mp hts
  obtain ⟨hds, hdo⟩ := checkHolder_eq_ok.mp hds
  exact ⟨⟨p, s, m, v, c, t, d⟩, hp, hs, hm, hv, hc, ht, hd, hmp, hvp, hprofile, hsp, hsm, hsv, hvm,
    hvo, hva, hvs, ⟨hcp, hco, checkMint_eq_ok.mp hcm, hcs⟩, ⟨htp, hto, checkMint_eq_ok.mp htm, hts⟩,
    ⟨hdp, hdo, checkMint_eq_ok.mp hdm, hds⟩, rfl⟩

/-! ## The gates of a deposit -/

section Gates

variable {host : Host} {w₀ w : World} {tr : List Action} {a : QuoteSnapshotAddresses}
  {holder : Holder} {snap : CoherentQuoteSnapshot} {src : Sources}

theorem Fetched.snapSeries (hf : Fetched host w a holder snap src) :
    snap.series = normalizeSeriesAccount a.series src.series :=
  congrArg CoherentQuoteSnapshot.series hf.snapshot

/-- The policy of a snapshot knows whether the mint matches it. -/
theorem Fetched.snapPolicy (hf : Fetched host w a holder snap src) :
    snap.policy = normalizeAssetPolicyAccount a.assetPolicy src.policy
      (mintProfileMatchesPolicy (normalizeAssetPolicyAccount a.assetPolicy src.policy false)
        snap.mintProfile) :=
  congrArg CoherentQuoteSnapshot.policy hf.snapshot

theorem Fetched.snapClock (hf : Fetched host w a holder snap src) :
    snap.clock = .ofProgram w.clock :=
  congrArg CoherentQuoteSnapshot.clock hf.snapshot

theorem Fetched.snapVault (hf : Fetched host w a holder snap src) :
    snap.vaultRaw = src.vault.amount.toNat :=
  congrArg CoherentQuoteSnapshot.vaultRaw hf.snapshot

theorem requireScaleEqualsReview_eq_ok {p : AssetPolicy} {scale : DividendX.ScaleTuple} {u : Unit} :
    requireScaleEqualsReview p scale = .ok u ↔
      (scale.currentBits = p.reviewedCurrentMultiplierBits ∧
        scale.newBits = p.reviewedNewMultiplierBits ∧
        scale.effectiveTimestamp = p.reviewedNewMultiplierEffectiveTimestamp) ∧
      scale.activeBits = p.reviewedActiveMultiplierBits := by
  simp only [requireScaleEqualsReview, Result.bind_eq_ok, Result.require_eq_ok, Result.exists_unit]

theorem natCast_toNat_inj {x y : UInt64} : (x.toNat : Int) = y.toNat ↔ x = y := by
  rw [Int.natCast_inj, UInt64.toNat_inj]

/-- Comparing snapshots compares the accounts they were taken of. -/
theorem mintProfileMatchesPolicy_iff {p : InspectedMintProfile} {profile : MintProfile}
    (hm : p.Matches profile) {k : Pubkey} {policy : AssetPolicy} :
    mintProfileMatchesPolicy (normalizeAssetPolicyAccount k policy false) p = true ↔
      p.accountingFactorsSupported = true ∧ profile.decimals = policy.decimals ∧
      profile.extensionsMask = policy.extensionsMask ∧
      profile.controlsFingerprint = policy.reviewedControlsFingerprint ∧
      requireScaleEqualsReview policy profile.scale = .ok () := by
  have hdecimals : (profile.decimals.toNat : Int) = policy.decimals.toNat ↔
      profile.decimals = policy.decimals := by
    rw [Int.natCast_inj, UInt8.toNat_inj]
  simp only [mintProfileMatchesPolicy, Bool.and_eq_true, beq_iff_eq, normalizeAssetPolicyAccount,
    hm.decimals, hm.extensionsMask, hm.scale, hm.controlsFingerprint, ScaleTuple.ofProgram,
    natCast_toNat_inj, hdecimals, Int64.toInt_inj, requireScaleEqualsReview_eq_ok]
  tauto

/-- The client's verdict on the reviewed profile is the program's. -/
theorem Fetched.reviewed (hf : Fetched host w a holder snap src) (hl : src.mint.laidOut = true) :
    snap.policy.mintProfileMatchesReviewed = true ↔
      ∃ profile, inspectMint host a.collateralMint src.mint w.clock.unixTimestamp = .ok profile ∧
        profile.decimals = src.policy.decimals ∧
        profile.extensionsMask = src.policy.extensionsMask ∧
        profile.controlsFingerprint = src.policy.reviewedControlsFingerprint ∧
        requireScaleEqualsReview src.policy profile.scale = .ok () := by
  obtain ⟨profile, hmatch, -, hsupported, hunique⟩ :=
    inspectMintProfile_agrees rfl hf.mintProgram hl hf.profile
  rw [hf.snapPolicy]
  change mintProfileMatchesPolicy _ snap.mintProfile = true ↔ _
  rw [mintProfileMatchesPolicy_iff hmatch, hsupported]
  constructor
  · rintro ⟨⟨q, hq⟩, hrest⟩
    rw [hunique q hq] at hq
    exact ⟨profile, hq, hrest⟩
  · rintro ⟨q, hq, hrest⟩
    rw [hunique q hq] at hrest
    exact ⟨⟨q, hq⟩, hrest⟩

/-- What the program asks of a mint it lets in. -/
theorem requireAdmission_iff {p : AssetPolicy} {key : Pubkey} {m : Mint} {c : Clock} :
    (∃ profile, requireAdmission host p key m c = .ok profile) ↔ p.admissionEnabled = true ∧
      (p.observationEvidenceDigest ≠ zero32 ∧ c.unixTimestamp ≤ p.observationValidUntil ∧
        p.observedSlot ≤ c.slot) ∧
      ∃ profile, inspectMint host key m c.unixTimestamp = .ok profile ∧
        profile.decimals = p.decimals ∧ profile.extensionsMask = p.extensionsMask ∧
        profile.controlsFingerprint = p.reviewedControlsFingerprint ∧
        requireScaleEqualsReview p profile.scale = .ok () := by
  simp only [requireAdmission, requireReviewedProfile, Result.bind_eq_ok, Result.require_eq_ok,
    Result.exists_unit, Result.pure_eq_ok]
  constructor
  · rintro ⟨_, henabled, hfresh, profile, hinspect, hd, hm, hc, hs, rfl⟩
    exact ⟨henabled, hfresh, profile, hinspect, hd, hm, hc, hs⟩
  · rintro ⟨henabled, hfresh, profile, hinspect, hd, hm, hc, hs⟩
    exact ⟨profile, henabled, hfresh, profile, hinspect, hd, hm, hc, hs, rfl⟩

/-- **Deposits open**: the client calls a series open for deposits exactly when every gate of
`deposit` that does not depend on amount and guard is passed. -/
theorem Fetched.depositsOpen (hf : Fetched host w a holder snap src) (hl : src.mint.laidOut = true)
    (hr : Redeemable src.series) :
    ∃ e, deriveEligibility snap.series snap.policy snap.vaultRaw snap.clock = .ok e ∧
      (e.depositsOpen = true ↔ src.series.phase = .open ∧
        fundingJournalOpen src.series.unresolvedCount src.series.inYearQualifiedCount = true ∧
        w.clock.unixTimestamp < src.series.startTimestamp ∧
        (∃ profile, requireAdmission host src.policy a.collateralMint src.mint w.clock =
          .ok profile) ∧
        src.series.nominalBacking ≤ src.vault.amount) := by
  obtain ⟨custody, hcustody, hhealthy⟩ :=
    @custodySnapshot_eq a.series src.series hr src.vault.amount
  rw [hf.snapSeries, hf.snapVault, hf.snapClock]
  simp only [deriveEligibility, Result.bind_eq_ok, Result.exists_unit, Result.pure_eq_ok]
  refine ⟨_, ⟨assertI64_toInt _ _, assertU64_toNat _ _, custody, hcustody, rfl⟩, ?_⟩
  simp only [Bool.and_eq_true, decide_eq_true_eq, beq_iff_eq, hhealthy, requireAdmission_iff,
    ← hf.reviewed hl, fundingJournalOpen, someNonzero_iff]
  -- each condition on the snapshot, as a condition on the accounts
  have hstart : (ChainClock.ofProgram w.clock).unixTimestamp <
      (normalizeSeriesAccount a.series src.series).startUnixTimestamp ↔
      w.clock.unixTimestamp < src.series.startTimestamp := Int64.lt_iff_toInt_lt.symm
  have henabled : snap.policy.enabled = src.policy.admissionEnabled := by
    rw [hf.snapPolicy]
    rfl
  have hfresh : (ChainClock.ofProgram w.clock).unixTimestamp ≤ snap.policy.observationValidUntil ↔
      w.clock.unixTimestamp ≤ src.policy.observationValidUntil := by
    rw [hf.snapPolicy]
    exact Int64.le_iff_toInt_le.symm
  have hdigest : snap.policy.observationEvidenceDigest = src.policy.observationEvidenceDigest := by
    rw [hf.snapPolicy]
    rfl
  have hslot : snap.policy.observedSlot ≤ (ChainClock.ofProgram w.clock).slot ↔
      src.policy.observedSlot ≤ w.clock.slot := by
    rw [hf.snapPolicy, UInt64.le_iff_toNat_le]
    exact Int.ofNat_le
  have hcount : ∀ x : UInt8, (x.toNat : Int) = 0 ↔ x = 0 := by
    intro x
    rw [← UInt8.toNat_inj]
    exact Int.natCast_eq_zero
  have hunresolved := hcount src.series.unresolvedCount
  have hinYear := hcount src.series.inYearQualifiedCount
  have hcovered : src.series.phase = .open →
      (src.series.debt ≤ src.vault.amount.toNat ↔
        src.series.nominalBacking ≤ src.vault.amount) := by
    intro hopen
    rw [Series.debt_of_open (by rw [hopen]; exact SeriesPhase.noConfusion), UInt64.le_iff_toNat_le]
  rw [hstart, henabled, hfresh, hdigest, hslot]
  constructor
  · rintro ⟨⟨⟨⟨⟨⟨⟨hopen, hearly⟩, hon⟩, hvalid⟩, hseen⟩, hun, hin⟩, hreview⟩, hdebt⟩
    exact ⟨hopen, ⟨hunresolved.mp hun, hinYear.mp hin⟩, hearly,
      ⟨hon, ⟨hseen.1, hvalid, hseen.2⟩, hreview⟩, (hcovered hopen).mp hdebt⟩
  · rintro ⟨hopen, ⟨hun, hin⟩, hearly, ⟨hon, ⟨hseen, hvalid, hpast⟩, hreview⟩, hback⟩
    exact ⟨⟨⟨⟨⟨⟨⟨hopen, hearly⟩, hon⟩, hvalid⟩, hseen, hpast⟩, hunresolved.mpr hun,
      hinYear.mpr hin⟩, hreview⟩, (hcovered hopen).mpr hback⟩

/-! ## What reachability adds -/

/-- The accounts of a deposit or recombination: those of the snapshot, with the claim mints the
series names. -/
def pairAccounts (a : QuoteSnapshotAddresses) (holder : Holder) (series : SeriesSnapshot) :
    PairAccounts :=
  { holder := holder.wallet, assetPolicy := a.assetPolicy, series := a.series,
    collateralMint := a.collateralMint, vault := a.vault, holderCollateral := holder.collateral,
    ptMint := series.ptMint, drMint := series.drMint, holderPt := holder.pt,
    holderDr := holder.dr }

/-- The accounts of a redemption. -/
def redeemAccounts (a : QuoteSnapshotAddresses) (holder : Holder) (series : SeriesSnapshot)
    (side : RedeemSide) : RedeemAccounts :=
  { holder := holder.wallet, assetPolicy := a.assetPolicy, series := a.series,
    collateralMint := a.collateralMint, vault := a.vault, holderCollateral := holder.collateral,
    claimMint := match side with
      | .pt => series.ptMint
      | .dr => series.drMint
    holderClaim := match side with
      | .pt => holder.pt
      | .dr => holder.dr }

/-- What a snapshot does not show and every reachable world has. -/
structure Grounded (host : Host) (w : World) (a : QuoteSnapshotAddresses) (holder : Holder)
    (src : Sources) (claims : RedeemSide → Mint) : Prop where
  claimKey : ∀ side, src.series.claimMint side = claimMintOf a.series side
  claimMint : ∀ side, w.bank.mints (claimMintOf a.series side) = some (claims side) ∧
    ClaimMintLinked (claims side) src.series.identity
  policyDigest : src.series.policyDigest = src.policy.policyDigest
  collateral : a.collateralMint.isWallet = true
  decimals : src.mint.decimals = src.series.decimals
  initialized : src.mint.isInitialized = true
  unpaused : src.mint.isPaused = false
  inspected : ∃ profile,
    inspectMintForExit host a.collateralMint src.mint w.clock.unixTimestamp = .ok profile
  collateralNeVault : holder.collateral ≠ a.vault
  ptNe : holder.pt ≠ holder.collateral ∧ holder.pt ≠ a.vault
  drNe : holder.dr ≠ holder.collateral ∧ holder.dr ≠ a.vault
  ptNeDr : holder.pt ≠ holder.dr

/-- What was fetched in a reachable state is grounded. -/
theorem Fetched.grounded (h : World.History host w₀ tr w) (hf : Fetched host w a holder snap src)
    (hl : src.mint.laidOut = true) : ∃ claims, Grounded host w a holder src claims := by
  have hlinked := h.linked
  have hseries := hlinked.series hf.series
  choose claims hclaims using hseries.claimMint
  obtain ⟨p, hp, hdigest, hpm, hpd⟩ := hseries.policy
  rw [show src.series.identity.assetPolicy = a.assetPolicy from hf.seriesPolicy, hf.policy] at hp
  cases hp
  obtain ⟨m, hm, -, hdecimals⟩ := (hlinked.policies hf.policy).mint
  rw [hpm, show src.series.identity.collateralMint = a.collateralMint from hf.seriesMint,
    hf.mint] at hm
  cases hm
  obtain ⟨profile, -, hinspect, -, -⟩ := inspectMintProfile_agrees rfl hf.mintProgram hl hf.profile
  -- accounts with different owners, programs or mints sit at different addresses
  have hne : ∀ {key key' : Pubkey} {t t' : TokenAccount}, w.bank.tokens key = some t →
      w.bank.tokens key' = some t' → t ≠ t' → key ≠ key' := by
    rintro key key' t t' ht ht' hdiff rfl
    exact hdiff (Option.some.inj (ht.symm.trans ht'))
  have hprogram : ∀ {t t' : TokenAccount}, t.tokenProgram = .token → t'.tokenProgram = .token2022 →
      t ≠ t' := by
    rintro t t' ht ht' rfl
    cases ht.symm.trans ht'
  have hclaimKey : ∀ side, src.series.claimMint side = claimMintOf a.series side := fun side => by
    rw [Series.claimMint_identity]
    exact hseries.claimKey side
  refine ⟨claims, hclaimKey, hclaims, hdigest.symm, ?_, hdecimals.trans hpd, ?_,
    not_isPaused hf.profile, ⟨profile, hinspect⟩, ?_, ⟨?_, ?_⟩, ⟨?_, ?_⟩, ?_⟩
  · rw [← hf.seriesMint]
    exact hseries.collateral
  · have hprofile := hf.profile
    simp only [inspectMintProfile, Result.bind_eq_ok, Result.exists_unit,
      invariant_eq_ok] at hprofile
    exact hprofile.1
  · refine hne hf.collateral hf.vault fun heq => ?_
    have howner := hf.holderCollateral.owner
    rw [heq, hf.vaultOwner, hseries.key] at howner
    cases howner
  · exact hne hf.pt hf.collateral
      (hprogram hf.holderPt.tokenProgram hf.holderCollateral.tokenProgram)
  · exact hne hf.pt hf.vault (hprogram hf.holderPt.tokenProgram hf.vaultProgram)
  · exact hne hf.dr hf.collateral
      (hprogram hf.holderDr.tokenProgram hf.holderCollateral.tokenProgram)
  · exact hne hf.dr hf.vault (hprogram hf.holderDr.tokenProgram hf.vaultProgram)
  · refine hne hf.pt hf.dr fun heq => ?_
    have hmint := hf.holderPt.mint
    rw [heq, hf.holderDr.mint] at hmint
    have hsame := (hclaimKey .dr).symm.trans (hmint.trans (hclaimKey .pt))
    cases (claimMintOf_injective hsame).2

/-- The records a deposit or recombination loads. -/
def Sources.pair (src : Sources) (claims : RedeemSide → Mint) : PairLoaded :=
  { asset := src.policy, series := src.series, mint := src.mint, vault := src.vault,
    holderCollateral := src.collateral, ptMint := claims .pt, drMint := claims .dr,
    holderPt := src.pt, holderDr := src.dr }

variable {claims : RedeemSide → Mint}

theorem Grounded.mintAt (hg : Grounded host w a holder src claims) (side : RedeemSide) :
    w.bank.mints (src.series.claimMint side) = some (claims side) := by
  rw [hg.claimKey side]
  exact (hg.claimMint side).1

/-- Fetched accounts pass the program's checks on the way out. -/
theorem Fetched.exitValid (hf : Fetched host w a holder snap src)
    (hg : Grounded host w a holder src claims) :
    ExitValid a.series src.series a.assetPolicy src.policy a.collateralMint src.mint a.vault
      src.vault :=
  ⟨hf.seriesPolicy, hg.policyDigest, hf.seriesMint.symm, hf.mintProgram, hf.seriesVault.symm,
    hf.vaultProgram, hf.vaultMint.trans hf.seriesMint.symm, hf.vaultOwner, hf.vaultAuthorities,
    hf.vaultState⟩

theorem Fetched.initialized_ne {t : TokenAccount} (h : t.state = .initialized) :
    t.state ≠ .uninitialized := by
  rw [h]
  exact AccountState.noConfusion

/-- The accounts the program loads for a pair are the fetched ones. -/
theorem Fetched.pairFrom (hf : Fetched host w a holder snap src)
    (hg : Grounded host w a holder src claims) :
    (src.pair claims).From w (pairAccounts a holder snap.series) := by
  have hpt := hg.claimMint .pt
  have hdr := hg.claimMint .dr
  rw [hf.snapSeries]
  exact ⟨hf.policy, hf.series, ⟨hf.mint, hg.initialized⟩,
    ⟨hf.vault, Fetched.initialized_ne hf.vaultState⟩,
    ⟨hf.collateral, Fetched.initialized_ne hf.holderCollateral.state⟩,
    ⟨⟨hg.mintAt .pt, hpt.2.isInitialized⟩, hpt.2.tokenProgram⟩,
    ⟨⟨hg.mintAt .dr, hdr.2.isInitialized⟩, hdr.2.tokenProgram⟩,
    ⟨⟨hf.pt, Fetched.initialized_ne hf.holderPt.state⟩, hf.holderPt.tokenProgram⟩,
    ⟨⟨hf.dr, Fetched.initialized_ne hf.holderDr.state⟩, hf.holderDr.tokenProgram⟩, hf.seriesPolicy⟩

/-- Fetched accounts pass the program's checks of the whole series. -/
theorem Fetched.seriesValid (hf : Fetched host w a holder snap src)
    (hg : Grounded host w a holder src claims) :
    SeriesValid a.series src.series a.assetPolicy src.policy a.collateralMint src.mint a.vault
      src.vault src.series.ptMint (claims .pt) src.series.drMint (claims .dr) := by
  refine ⟨hf.exitValid hg, rfl, rfl, fun heq => ?_, (hg.claimMint .pt).2.tokenProgram,
    (hg.claimMint .dr).2.tokenProgram⟩
  have hsame := (hg.claimKey .pt).symm.trans (Eq.trans heq (hg.claimKey .dr))
  cases (claimMintOf_injective hsame).2

/-! ## Quotes against instructions -/

/-- A quote is returned exactly when its instruction goes through, and then pays what it says:
`send` is the instruction with the quote's own amount and guard, `attempt` the instruction with a
given amount and any guard. -/
structure Faithful {Q : Type} (quote : Int → Thrown Q) (send : Q → Outcome World)
    (attempt : UInt64 → DividendX.Guard → Outcome World) (pays : Q → World → Prop) : Prop where
  sound : ∀ raw q, quote raw = .ok q → ∃ w', send q = .ok w' ∧ pays q w'
  complete : ∀ amount guard w', attempt amount guard = .ok w' →
    ∃ q, quote amount.toNat = .ok q

/-- An amount that fits is encoded as itself. -/
theorem encodeAmount_toNat (x : UInt64) : encodeAmount x.toNat = x := by
  rw [encodeAmount, Int.toNat_natCast, UInt64.ofNat_toNat]

/-- The guard of a quote: the version of the series, the expiry and the minimum asked for. -/
theorem guard_eq {k : Pubkey} {s : Series} {minimum : UInt64} {now expiry : Int64}
    (h : now ≤ expiry) :
    guard (normalizeSeriesAccount k s) minimum.toNat expiry.toInt now.toInt =
      .ok ⟨s.stateVersion.toNat, expiry.toInt, minimum.toNat⟩ := by
  simp only [guard, Result.bind_eq_ok, Result.exists_unit, invariant_eq_ok, Result.pure_eq_ok]
  exact ⟨assertU64_toNat _ _, assertU64_toNat _ _, assertI64_toInt _ _, Int64.le_iff_toInt_le.mp h,
    rfl⟩

/-- The guard of a quote is encoded as the guard of the program. -/
theorem encode_guard (s : Series) (minimum : UInt64) (expiry : Int64) :
    Guard.encode ⟨s.stateVersion.toNat, expiry.toInt, minimum.toNat⟩ =
      ⟨s.stateVersion, expiry, minimum⟩ := by
  simp only [Guard.encode, Int.toNat_natCast, UInt64.ofNat_toNat, Int64.ofInt_toInt]

theorem Fetched.snapCollateral (hf : Fetched host w a holder snap src) :
    snap.holderCollateralRaw.getD 0 = src.collateral.amount.toNat := by
  rw [hf.snapshot]
  rfl

theorem Fetched.snapPt (hf : Fetched host w a holder snap src) :
    snap.holderPtRaw.getD 0 = src.pt.amount.toNat := by
  rw [hf.snapshot]
  rfl

theorem Fetched.snapDr (hf : Fetched host w a holder snap src) :
    snap.holderDrRaw.getD 0 = src.dr.amount.toNat := by
  rw [hf.snapshot]
  rfl

theorem assertU64_pos_iff {x : UInt64} {label : String} {u : Unit} :
    assertU64 x.toNat label false = .ok u ↔ 0 < x := by
  constructor
  · intro hok
    rw [assertU64, invariant_eq_ok] at hok
    have hpos : (1 : Int) ≤ x.toNat := hok.1
    rw [UInt64.lt_iff_toNat_lt]
    change 0 < x.toNat
    omega
  · intro hpos
    exact assertU64_pos hpos label

/-- A raw amount the client accepts is a word. -/
theorem exists_of_assertU64 {raw : Int} {label : String} {u : Unit}
    (h : assertU64 raw label false = .ok u) : ∃ x : UInt64, raw = x.toNat := by
  rw [assertU64, invariant_eq_ok, MAX_U64] at h
  obtain ⟨hpos, hmax⟩ := h
  have hpos : (1 : Int) ≤ raw := hpos
  obtain ⟨x, hx⟩ := @exists_word raw.toNat (by omega)
  exact ⟨x, by omega⟩

/-- When a deposit is quoted, and what the quote is. -/
theorem Fetched.quoteDeposit_eq_ok (hf : Fetched host w a holder snap src)
    (hl : src.mint.laidOut = true) (hr : Redeemable src.series) {amount : UInt64} {expiry : Int64}
    (hexpiry : w.clock.unixTimestamp ≤ expiry) {q : DepositQuote} :
    quoteDeposit snap.series snap.policy snap.vaultRaw amount.toNat
        (snap.holderCollateralRaw.getD 0) snap.clock expiry.toInt none = .ok q ↔
      0 < amount ∧ amount ≤ src.collateral.amount ∧ (src.series.phase = .open ∧
        fundingJournalOpen src.series.unresolvedCount src.series.inYearQualifiedCount = true ∧
        w.clock.unixTimestamp < src.series.startTimestamp ∧
        (∃ profile, requireAdmission host src.policy a.collateralMint src.mint w.clock =
          .ok profile) ∧
        src.series.nominalBacking ≤ src.vault.amount) ∧
      q = ⟨amount.toNat, amount.toNat, amount.toNat,
        ⟨src.series.stateVersion.toNat, expiry.toInt, amount.toNat⟩⟩ := by
  obtain ⟨e, he, hopen⟩ := hf.depositsOpen hl hr
  have hguard := @guard_eq a.series src.series amount _ _ hexpiry
  rw [← hopen, UInt64.le_iff_toNat_le, ← Int.ofNat_le]
  simp only [quoteDeposit, Result.bind_eq_ok, Result.exists_unit, invariant_eq_ok,
    Result.pure_eq_ok, Option.getD_none, assertU64_pos_iff, hf.snapCollateral, assertU64_toNat,
    true_and, le_refl]
  rw [he, hf.snapSeries, hf.snapClock]
  constructor
  · rintro ⟨hpos, howned, e', he', hdeposits, g, hg, rfl⟩
    cases he'
    cases hguard.symm.trans hg
    exact ⟨hpos, howned, hdeposits, rfl⟩
  · rintro ⟨hpos, howned, hdeposits, rfl⟩
    exact ⟨hpos, howned, e, rfl, hdeposits, _, hguard, rfl⟩

theorem natCast_toNat_le {x y : UInt64} : (x.toNat : Int) ≤ y.toNat ↔ x ≤ y := by
  rw [UInt64.le_iff_toNat_le, Int.ofNat_le]

/-- When a recombination is quoted, and what the quote is. -/
theorem Fetched.quoteRecombine_eq_ok (hf : Fetched host w a holder snap src)
    (hr : Redeemable src.series) {amount : UInt64} {expiry : Int64}
    (hexpiry : w.clock.unixTimestamp ≤ expiry) {q : RecombineQuote} :
    quoteRecombine snap.series snap.vaultRaw amount.toNat (snap.holderPtRaw.getD 0)
        (snap.holderDrRaw.getD 0) snap.clock.unixTimestamp expiry.toInt none = .ok q ↔
      0 < amount ∧ (amount ≤ src.pt.amount ∧ amount ≤ src.dr.amount) ∧
        src.series.phase ≠ .finalized ∧ src.series.nominalBacking ≤ src.vault.amount ∧
        amount ≤ src.series.nominalBacking ∧
      q = ⟨amount.toNat, amount.toNat, amount.toNat,
        ⟨src.series.stateVersion.toNat, expiry.toInt, amount.toNat⟩⟩ := by
  have hguard := @guard_eq a.series src.series amount _ _ hexpiry
  obtain ⟨custody, hcustody, hhealthy⟩ :=
    @custodySnapshot_eq a.series src.series hr src.vault.amount
  have hcovered : src.series.phase ≠ .finalized →
      (custody.healthy = true ↔ src.series.nominalBacking ≤ src.vault.amount) := by
    intro hopen
    rw [hhealthy, Series.debt_of_open hopen, UInt64.le_iff_toNat_le]
  have hbacked :
      (amount.toNat : Int) ≤ (normalizeSeriesAccount a.series src.series).accountableRaw ↔
      amount ≤ src.series.nominalBacking := natCast_toNat_le
  have hphase : (normalizeSeriesAccount a.series src.series).phase = src.series.phase := rfl
  simp only [quoteRecombine, Result.bind_eq_ok, Result.exists_unit, invariant_eq_ok,
    Result.pure_eq_ok, Option.getD_none, assertU64_pos_iff, hf.snapPt, hf.snapDr, assertU64_toNat,
    true_and, le_refl, natCast_toNat_le, hf.snapSeries, hf.snapVault, hf.snapClock, hbacked, hphase]
  constructor
  · rintro ⟨hpos, howned, hopen, custody', hcustody', hhealth, hback, g, hg, rfl⟩
    cases hcustody.symm.trans hcustody'
    cases hguard.symm.trans hg
    exact ⟨hpos, howned, hopen, (hcovered hopen).mp hhealth, hback, rfl⟩
  · rintro ⟨hpos, howned, hopen, hcov, hback, rfl⟩
    exact ⟨hpos, howned, hopen, custody, hcustody, (hcovered hopen).mpr hcov, hback, _, hguard, rfl⟩

/-- The holder's account on one side. -/
def Sources.claim (src : Sources) : RedeemSide → TokenAccount
  | .pt => src.pt
  | .dr => src.dr

/-- What a snapshot says the holder owns on one side. -/
def CoherentQuoteSnapshot.holderClaimRaw (snap : CoherentQuoteSnapshot) : RedeemSide → Option Int
  | .pt => snap.holderPtRaw
  | .dr => snap.holderDrRaw

theorem Fetched.snapClaim (hf : Fetched host w a holder snap src) (side : RedeemSide) :
    (snap.holderClaimRaw side).getD 0 = (src.claim side).amount.toNat := by
  cases side
  · exact hf.snapPt
  · exact hf.snapDr

/-- The client prices a redemption exactly when the program does; of an empty supply neither
redeems anything. -/
theorem cumulativeRedemptionPayout_iff {pool supply redeemed amount : UInt64} (ha : 0 < amount)
    {p : Int} :
    cumulativeRedemptionPayout pool.toNat supply.toNat redeemed.toNat amount.toNat = .ok p ↔
      ∃ payout, redemptionPayout redeemed amount pool supply = .ok payout ∧ p = payout.toNat := by
  by_cases hs : supply = 0
  · subst hs
    refine iff_of_false ?_ ?_
    · simp only [cumulativeRedemptionPayout, Result.bind_eq_ok, Result.exists_unit,
        assertU64_pos_iff, UInt64.lt_irrefl, false_and, and_false, not_false_iff]
    · rintro ⟨payout, hpayout, -⟩
      simp only [redemptionPayout, if_true, Result.bind_eq_ok, Result.require_eq_ok] at hpayout
      obtain ⟨-, hzero, -⟩ := hpayout
      exact (UInt64.ne_of_lt ha).symm hzero
  · have hagrees :=
      @cumulativeRedemptionPayout_agrees pool redeemed _ _ (UInt64.pos_iff_ne_zero.mpr hs) ha
    rw [← Result.toOption_eq_some, hagrees, Option.map_eq_some_iff]
    simp only [Result.toOption_eq_some, eq_comm (a := p)]

/-- When a redemption is quoted, and what the quote is. -/
theorem Fetched.quoteRedemption_eq_ok (hf : Fetched host w a holder snap src)
    (hr : Redeemable src.series) {side : RedeemSide} {amount : UInt64} {allowZero : Bool}
    {expiry : Int64} (hexpiry : w.clock.unixTimestamp ≤ expiry) {q : RedemptionQuote} :
    quoteRedemption snap.series snap.vaultRaw side amount.toNat
        ((snap.holderClaimRaw side).getD 0) allowZero snap.clock.unixTimestamp expiry.toInt none =
          .ok q ↔
      0 < amount ∧ amount ≤ (src.claim side).amount ∧ src.series.phase = .finalized ∧
        src.series.debt ≤ src.vault.amount.toNat ∧
        ∃ payout : UInt64, redemptionPayout (src.series.redeemedNominal side) amount
            (src.series.pool side) src.series.finalSupply = .ok payout ∧
          (0 < payout ∨ allowZero = true) ∧
          q = ⟨side, amount.toNat, payout.toNat, allowZero,
            ⟨src.series.stateVersion.toNat, expiry.toInt, payout.toNat⟩⟩ := by
  obtain ⟨custody, hcustody, hhealthy⟩ :=
    @custodySnapshot_eq a.series src.series hr src.vault.amount
  have hphase : (normalizeSeriesAccount a.series src.series).phase = src.series.phase := rfl
  -- The client picks the counters of the side as the program does.
  have hprice : 0 < amount → ∀ p, cumulativeRedemptionPayout
      (match side with
        | .pt => (normalizeSeriesAccount a.series src.series).finalPtPoolRaw
        | .dr => (normalizeSeriesAccount a.series src.series).finalDrPoolRaw)
      (normalizeSeriesAccount a.series src.series).finalSupplyRaw
      (match side with
        | .pt => (normalizeSeriesAccount a.series src.series).redeemedPtClaimsRaw
        | .dr => (normalizeSeriesAccount a.series src.series).redeemedDrClaimsRaw)
      amount.toNat = .ok p ↔ ∃ payout, redemptionPayout (src.series.redeemedNominal side) amount
        (src.series.pool side) src.series.finalSupply = .ok payout ∧ p = payout.toNat := by
    intro hpos p
    cases side
    · exact cumulativeRedemptionPayout_iff hpos
    · exact cumulativeRedemptionPayout_iff hpos
  have hconsent : ∀ x : UInt64, (0 : Int) < x.toNat ↔ 0 < x := by
    intro x
    rw [UInt64.lt_iff_toNat_lt]
    exact Int.natCast_pos
  simp only [quoteRedemption, Result.bind_eq_ok, Result.exists_unit, invariant_eq_ok,
    Result.pure_eq_ok, assertU64_pos_iff, hf.snapClaim, assertU64_toNat, true_and, natCast_toNat_le,
    hf.snapSeries, hf.snapVault, hf.snapClock, hphase]
  constructor
  · rintro ⟨hpos, howned, hfinal, custody', hcustody', hhealth, p, hp, hzero, -, g, hg, rfl⟩
    cases hcustody.symm.trans hcustody'
    obtain ⟨payout, hpayout, rfl⟩ := (hprice hpos p).mp hp
    cases (@guard_eq a.series src.series payout _ _ hexpiry).symm.trans hg
    rw [hconsent] at hzero
    exact ⟨hpos, howned, hfinal, hhealthy.mp hhealth, payout, hpayout, hzero, rfl⟩
  · rintro ⟨hpos, howned, hfinal, hcov, payout, hpayout, hzero, rfl⟩
    exact ⟨hpos, howned, hfinal, custody, hcustody, hhealthy.mpr hcov, _,
      (hprice hpos _).mpr ⟨payout, hpayout, rfl⟩,
      hzero.imp (hconsent payout).mpr id, le_refl _, _,
      @guard_eq a.series src.series payout _ _ hexpiry, rfl⟩

/-- Everything the comparison of quotes and instructions uses of a reachable world whose collateral
fits a word. -/
structure Ready (host : Host) (w : World) (a : QuoteSnapshotAddresses) (holder : Holder)
    (snap : CoherentQuoteSnapshot) (src : Sources) (claims : RedeemSide → Mint) : Prop where
  fetched : Fetched host w a holder snap src
  grounded : Grounded host w a holder src claims
  laidOut : src.mint.laidOut = true
  redeemable : Redeemable src.series
  version : src.series.stateVersion.toNat + 1 < 2 ^ 64
  before : src.series.phase ≠ .finalized → ∀ side,
    (claims side).supply.toNat ≤ src.series.nominalBacking.toNat ∧
      (claims side).mintAuthority = some a.series
  after : src.series.phase = .finalized → ∀ side,
    (src.series.redeemedNominal side).toNat + (claims side).supply.toNat ≤
        src.series.finalSupply.toNat ∧
      (claims side).mintAuthority = none
  owned : ∀ side, (src.claim side).amount.toNat ≤ (claims side).supply.toNat
  fits : src.vault.amount.toNat + src.collateral.amount.toNat < 2 ^ 64

/-- **Whoever fetched a reachable state** knows all that the program will check. -/
theorem Fetched.ready (hf : Fetched host w a holder snap src) (h : World.History host w₀ tr w)
    (hlen : instructionCount tr < 2 ^ 64) (hl : src.mint.laidOut = true)
    (hfits : w.bank.balance a.vault + w.bank.balance holder.collateral < 2 ^ 64) :
    ∃ claims, Ready host w a holder snap src claims := by
  obtain ⟨claims, hg⟩ := hf.grounded h hl
  obtain ⟨b, hb, hbs⟩ := h.linked.exists_books hf.series
  have hversion := h.version_lt hb
  have hsupplied := h.supplied hb
  have hbal := h.linked.balanced
  rw [hbs] at hversion
  rw [Bank.balance_eq hf.vault, Bank.balance_eq hf.collateral] at hfits
  have hredeemable := (h.redeemable hb).1
  rw [hbs] at hredeemable
  have hsupply : ∀ side, b.supply side = (claims side).supply.toNat := fun side => by
    rw [World.books_supply hb, Bank.supply_eq (hg.claimMint side).1]
  have hauthority : ∀ side, b.authority side = (claims side).mintAuthority := fun side => by
    rw [World.books_authority hb, Bank.authority_eq (hg.claimMint side).1]
  refine ⟨claims, hf, hg, hl, hredeemable, by omega, fun hopen side => ?_, fun hfinal side => ?_,
    fun side => ?_, hfits⟩
  · obtain ⟨hsum, hauth⟩ := hsupplied.before (by rw [hbs]; exact hopen) side
    rw [hsupply, hbs] at hsum
    exact ⟨by omega, (hauthority side).symm.trans hauth⟩
  · obtain ⟨hsum, hauth⟩ := hsupplied.after (by rw [hbs]; exact hfinal) side
    rw [hsupply, hbs] at hsum
    exact ⟨by omega, (hauthority side).symm.trans hauth⟩
  · rw [← Bank.supply_eq (hg.claimMint side).1]
    cases side
    · exact hbal.amount_le (isClaimMint_claimMintOf _ _) hf.pt
        (hf.holderPt.mint.trans (hg.claimKey .pt))
    · exact hbal.amount_le (isClaimMint_claimMintOf _ _) hf.dr
        (hf.holderDr.mint.trans (hg.claimKey .dr))

theorem Ready.claimMintValid (hr : Ready host w a holder snap src claims) (side : RedeemSide)
    {authority : Option Pubkey} (h : (claims side).mintAuthority = authority) :
    ClaimMintValid authority (claims side) src.series.decimals :=
  ⟨((hr.grounded.claimMint side).2).decimals, h, ((hr.grounded.claimMint side).2).freezeAuthority⟩

/-- A quote of the current version, in time, passes the guard. -/
theorem checkGuard_quoted {s : Series} {c : Clock} {out : UInt64} {expiry : Int64}
    (h : c.unixTimestamp ≤ expiry) : checkGuard s ⟨s.stateVersion, expiry, out⟩ c out = .ok () :=
  checkGuard_eq_ok.mpr ⟨rfl, h, UInt64.le_refl _⟩

variable {amount : UInt64} {expiry : Int64}

/-- With the gates open, a deposit passes its checks whenever its amount and guard do. -/
theorem Ready.depositPasses (hr : Ready host w a holder snap src claims)
    (hopen : src.series.phase = .open)
    (hjournal :
      fundingJournalOpen src.series.unresolvedCount src.series.inYearQualifiedCount = true)
    (hearly : w.clock.unixTimestamp < src.series.startTimestamp)
    (hadmitted : ∃ profile, requireAdmission host src.policy a.collateralMint src.mint w.clock =
      .ok profile) (hcovered : src.series.nominalBacking ≤ src.vault.amount)
    {guard : DividendX.Guard} (hpos : 0 < amount)
    (hguard : checkGuard src.series guard w.clock amount = .ok ()) :
    DepositPasses host w (pairAccounts a holder snap.series) amount guard (src.pair claims) := by
  have hf := hr.fetched
  have hg := hr.grounded
  have hissued := hr.before (by rw [hopen]; exact SeriesPhase.noConfusion)
  rw [hf.snapSeries]
  refine ⟨hpos, hguard, hopen, hjournal, hearly, hadmitted, hf.seriesValid hg, hf.holderCollateral,
    hf.holderPt, hf.holderDr, ?_, hcovered, hr.claimMintValid .pt (hissued .pt).2,
    hr.claimMintValid .dr (hissued .dr).2⟩
  have hne : holder.collateral ≠ a.vault ∧ holder.collateral ≠ holder.pt ∧
      holder.collateral ≠ holder.dr := ⟨hg.collateralNeVault, hg.ptNe.1.symm, hg.drNe.1.symm⟩
  simpa [pairAccounts] using ⟨hne, ⟨hg.ptNe.2.symm, hg.drNe.2.symm⟩, hg.ptNeDr⟩

/-- **Deposit quotes are faithful.** -/
theorem Ready.deposit_faithful (hr : Ready host w a holder snap src claims) (hexact : host.Exact)
    (hexpiry : w.clock.unixTimestamp ≤ expiry) :
    Faithful
      (fun raw => quoteDeposit snap.series snap.policy snap.vaultRaw raw
        (snap.holderCollateralRaw.getD 0) snap.clock expiry.toInt none)
      (fun q => deposit host w (pairAccounts a holder snap.series) (encodeAmount q.inputRaw)
        q.guard.encode)
      (deposit host w (pairAccounts a holder snap.series))
      (fun q w' => (w'.bank.balance holder.pt : Int) = w.bank.balance holder.pt + q.ptOutputRaw ∧
        (w'.bank.balance holder.dr : Int) = w.bank.balance holder.dr + q.drOutputRaw) := by
  have hf := hr.fetched
  have hg := hr.grounded
  have hfrom := hf.pairFrom hg
  have hfits := hr.fits
  constructor
  · intro raw q hq
    obtain ⟨amount, rfl⟩ : ∃ amount : UInt64, raw = amount.toNat := by
      simp only [quoteDeposit, Result.bind_eq_ok, Result.exists_unit] at hq
      exact exists_of_assertU64 hq.1
    obtain ⟨hpos, howned, ⟨hopen, hjournal, hearly, hadmitted, hcovered⟩, rfl⟩ :=
      (hf.quoteDeposit_eq_ok hr.laidOut hr.redeemable hexpiry).mp hq
    rw [encodeAmount_toNat, encode_guard]
    have hpasses := hr.depositPasses hopen hjournal hearly hadmitted hcovered hpos
      (checkGuard_quoted hexpiry)
    have hissued := hr.before (by rw [hopen]; exact SeriesPhase.noConfusion)
    have hcov := UInt64.le_iff_toNat_le.mp hcovered
    have hown := UInt64.le_iff_toNat_le.mp howned
    have hpt : src.pt.amount.toNat ≤ (claims .pt).supply.toNat := hr.owned .pt
    have hdr : src.dr.amount.toNat ≤ (claims .dr).supply.toNat := hr.owned .dr
    have hptBacked := (hissued .pt).1
    have hdrBacked := (hissued .dr).1
    -- outstanding claims are backed, and backing and amount are both collateral
    obtain ⟨w', hw'⟩ := exists_deposit hexact hfrom hpasses howned hg.unpaused hg.decimals
      (show src.vault.amount.toNat + amount.toNat < 2 ^ 64 by omega)
      (show (claims .pt).supply.toNat + amount.toNat < 2 ^ 64 ∧
        src.pt.amount.toNat + amount.toNat < 2 ^ 64 by omega)
      (show (claims .dr).supply.toNat + amount.toNat < 2 ^ 64 ∧
        src.dr.amount.toNat + amount.toNat < 2 ^ 64 by omega) hr.version
    obtain ⟨-, hpaidPt, hpaidDr⟩ := deposit_pays hw'
    exact ⟨w', hw', congrArg Int.ofNat hpaidPt, congrArg Int.ofNat hpaidDr⟩
  · intro amount guard w' hw'
    obtain ⟨howned, -, -⟩ := deposit_pays hw'
    obtain ⟨L, hL, hp, -⟩ := deposit_eq_ok.mp hw'
    cases hL.unique hfrom
    refine ⟨_, (hf.quoteDeposit_eq_ok hr.laidOut hr.redeemable hexpiry).mpr
      ⟨hp.positive, ?_, ⟨hp.phase, hp.journal, hp.early, hp.admitted, hp.covered⟩, rfl⟩⟩
    rw [UInt64.le_iff_toNat_le, ← Bank.balance_eq hf.collateral]
    exact howned

/-- The collateral is no claim. -/
theorem Grounded.mint_ne (hg : Grounded host w a holder src claims) (side : RedeemSide) :
    a.collateralMint ≠ src.series.claimMint side := by
  intro heq
  have hwallet := hg.collateral
  rw [heq, hg.claimKey side] at hwallet
  cases side <;> cases hwallet

/-- **Recombination quotes are faithful.** -/
theorem Ready.recombine_faithful (hr : Ready host w a holder snap src claims) (hexact : host.Exact)
    (hexpiry : w.clock.unixTimestamp ≤ expiry) :
    Faithful
      (fun raw => quoteRecombine snap.series snap.vaultRaw raw (snap.holderPtRaw.getD 0)
        (snap.holderDrRaw.getD 0) snap.clock.unixTimestamp expiry.toInt none)
      (fun q => recombine host w (pairAccounts a holder snap.series) (encodeAmount q.ptInputRaw)
        q.guard.encode)
      (recombine host w (pairAccounts a holder snap.series))
      (fun q w' => (w'.bank.balance holder.collateral : Int) =
        w.bank.balance holder.collateral + q.collateralOutputRaw) := by
  have hf := hr.fetched
  have hg := hr.grounded
  have hfrom := hf.pairFrom hg
  have hfits := hr.fits
  constructor
  · -- A quote is recombined, for the same reasons.
    intro raw q hq
    obtain ⟨amount, rfl⟩ : ∃ amount : UInt64, raw = amount.toNat := by
      simp only [quoteRecombine, Result.bind_eq_ok, Result.exists_unit] at hq
      exact exists_of_assertU64 hq.1
    obtain ⟨hpos, ⟨hownPt, hownDr⟩, hopen, hcovered, hbacked, rfl⟩ :=
      (hf.quoteRecombine_eq_ok hr.redeemable hexpiry).mp hq
    rw [encodeAmount_toNat, encode_guard]
    have hpasses : RecombinePasses host w (pairAccounts a holder snap.series) amount
        ⟨src.series.stateVersion, expiry, amount⟩ (src.pair claims) := by
      rw [hf.snapSeries]
      refine ⟨hpos, checkGuard_quoted hexpiry, hopen, hbacked, hg.inspected, hf.seriesValid hg,
        hf.holderPt, hf.holderDr, hf.holderCollateral, ?_, hcovered⟩
      simpa [pairAccounts] using ⟨⟨hg.ptNeDr, hg.ptNe⟩, hg.drNe, hg.collateralNeVault⟩
    have hcov := UInt64.le_iff_toNat_le.mp hcovered
    have hback := UInt64.le_iff_toNat_le.mp hbacked
    have hpt := UInt64.le_iff_toNat_le.mp hownPt
    have hdr := UInt64.le_iff_toNat_le.mp hownDr
    have hmints : (pairAccounts a holder snap.series).collateralMint ≠
        (pairAccounts a holder snap.series).ptMint ∧
        (pairAccounts a holder snap.series).collateralMint ≠
        (pairAccounts a holder snap.series).drMint := by
      rw [hf.snapSeries]
      exact ⟨hg.mint_ne .pt, hg.mint_ne .dr⟩
    obtain ⟨w', hw'⟩ := exists_recombine hexact hfrom hpasses hg.unpaused hg.decimals
      (show src.collateral.amount.toNat + amount.toNat < 2 ^ 64 by omega)
      ⟨hpt, hpt.trans (hr.owned .pt)⟩ ⟨hdr, hdr.trans (hr.owned .dr)⟩ hmints hr.version
    obtain ⟨-, -, hpaid⟩ := recombine_pays hw'
    exact ⟨w', hw', congrArg Int.ofNat hpaid⟩
  · intro amount guard w' hw'
    obtain ⟨hpt, hdr, -⟩ := recombine_pays hw'
    obtain ⟨L, hL, hp, -⟩ := recombine_eq_ok.mp hw'
    cases hL.unique hfrom
    refine ⟨_, (hf.quoteRecombine_eq_ok hr.redeemable hexpiry).mpr
      ⟨hp.positive, ⟨?_, ?_⟩, hp.phase, hp.covered, hp.backed, rfl⟩⟩
    · rw [UInt64.le_iff_toNat_le, ← Bank.balance_eq hf.pt]
      exact hpt
    · rw [UInt64.le_iff_toNat_le, ← Bank.balance_eq hf.dr]
      exact hdr

/-- The records a redemption loads. -/
def Sources.redeem (src : Sources) (claims : RedeemSide → Mint) (side : RedeemSide) :
    RedeemLoaded :=
  { asset := src.policy, series := src.series, mint := src.mint, vault := src.vault,
    holderCollateral := src.collateral, claimMint := claims side, holderClaim := src.claim side }

/-- A redemption names the claim mint of its side, and the holder's account of it. -/
theorem Ready.claimSide (hr : Ready host w a holder snap src claims) (side : RedeemSide) :
    (redeemAccounts a holder snap.series side).claimMint = src.series.claimMint side ∧
      w.bank.tokens (redeemAccounts a holder snap.series side).holderClaim =
        some (src.claim side) ∧
      HolderValid .token (src.claim side) (.wallet holder.wallet) (src.series.claimMint side) ∧
      (redeemAccounts a holder snap.series side).holderClaim ≠ holder.collateral ∧
      (redeemAccounts a holder snap.series side).holderClaim ≠ a.vault := by
  have hf := hr.fetched
  rw [hf.snapSeries]
  cases side
  · exact ⟨rfl, hf.pt, hf.holderPt, hr.grounded.ptNe⟩
  · exact ⟨rfl, hf.dr, hf.holderDr, hr.grounded.drNe⟩

/-- The accounts the program loads for a redemption are the fetched ones. -/
theorem Ready.redeemFrom (hr : Ready host w a holder snap src claims) (side : RedeemSide) :
    (src.redeem claims side).From w (redeemAccounts a holder snap.series side) := by
  have hf := hr.fetched
  have hg := hr.grounded
  obtain ⟨hmint, htoken, hvalid, -⟩ := hr.claimSide side
  have hlinked := (hg.claimMint side).2
  refine ⟨hf.policy, hf.series, ⟨hf.mint, hg.initialized⟩,
    ⟨hf.vault, Fetched.initialized_ne hf.vaultState⟩,
    ⟨hf.collateral, Fetched.initialized_ne hf.holderCollateral.state⟩,
    ⟨⟨?_, hlinked.isInitialized⟩, hlinked.tokenProgram⟩,
    ⟨⟨htoken, Fetched.initialized_ne hvalid.state⟩, hvalid.tokenProgram⟩, hf.seriesPolicy⟩
  rw [hmint]
  exact hg.mintAt side

/-- Custody is healthy for the client exactly when it is for the program. -/
theorem Ready.covered_iff (hr : Ready host w a holder snap src claims)
    (hfinal : src.series.phase = .finalized) :
    src.series.debt ≤ src.vault.amount.toNat ↔ ∃ obligations,
      remainingObligations src.series = .ok obligations ∧ obligations ≤ src.vault.amount := by
  obtain ⟨owed, howed, hdebt⟩ := hr.redeemable.exists_obligations
  rw [Series.obligations, if_pos hfinal] at howed
  rw [howed, ← hdebt, ← UInt64.le_iff_toNat_le]
  constructor
  · intro hle
    exact ⟨owed, rfl, hle⟩
  · rintro ⟨_, hsome, hle⟩
    cases hsome
    exact hle

/-- **Redemption quotes are faithful.** -/
theorem Ready.redeem_faithful (hr : Ready host w a holder snap src claims) (hexact : host.Exact)
    (hexpiry : w.clock.unixTimestamp ≤ expiry) (side : RedeemSide) (allowZero : Bool) :
    Faithful
      (fun raw => quoteRedemption snap.series snap.vaultRaw side raw
        ((snap.holderClaimRaw side).getD 0) allowZero snap.clock.unixTimestamp expiry.toInt none)
      (fun q => redeem host w (redeemAccounts a holder snap.series q.side) q.side
        (encodeAmount q.claimInputRaw) q.allowZero q.guard.encode)
      (fun amount guard => redeem host w (redeemAccounts a holder snap.series side) side amount
        allowZero guard)
      (fun q w' => (w'.bank.balance holder.collateral : Int) =
        w.bank.balance holder.collateral + q.collateralOutputRaw) := by
  have hf := hr.fetched
  have hg := hr.grounded
  have hfrom := hr.redeemFrom side
  have hfits := hr.fits
  obtain ⟨hmint, htoken, hvalid, hneCollateral, hneVault⟩ := hr.claimSide side
  constructor
  · -- A quote is redeemed: its checks are the program's, and nothing leaves the word.
    intro raw q hq
    obtain ⟨amount, rfl⟩ : ∃ amount : UInt64, raw = amount.toNat := by
      simp only [quoteRedemption, Result.bind_eq_ok, Result.exists_unit] at hq
      exact exists_of_assertU64 hq.1
    obtain ⟨hpos, howned, hfinal, hcovered, payout, hpayout, hconsent, rfl⟩ :=
      (hf.quoteRedemption_eq_ok hr.redeemable hexpiry).mp hq
    rw [encodeAmount_toNat, encode_guard]
    have hissued := hr.after hfinal side
    have hpasses : RedeemPasses host w (redeemAccounts a holder snap.series side) side amount
        allowZero ⟨src.series.stateVersion, expiry, payout⟩ (src.redeem claims side) payout := by
      refine ⟨hpos, hfinal, hg.inspected, hf.exitValid hg, hf.holderCollateral, ?_, ?_, hmint,
        hr.claimMintValid side hissued.2, hpayout, checkGuard_quoted hexpiry, hconsent,
        (hr.covered_iff hfinal).mp hcovered⟩
      · rw [hmint]
        exact hvalid
      · simpa [redeemAccounts] using ⟨⟨hneCollateral, hneVault⟩, hg.collateralNeVault⟩
    have hown := UInt64.le_iff_toNat_le.mp howned
    have houtstanding := hr.owned side
    have hpool := hr.redeemable.payout_le hfinal hpayout
    have hpaid := (hr.redeemable.payout_le_debt hfinal hpayout).trans hcovered
    have hword := src.series.finalSupply.toNat_lt
    have hpoolWord := (src.series.pool side).toNat_lt
    obtain ⟨w', hw'⟩ := exists_redeem hexact hfrom hpasses hg.unpaused hg.decimals
      (show src.collateral.amount.toNat + payout.toNat < 2 ^ 64 by omega)
      ⟨hown, hown.trans houtstanding⟩ hpaid (by rw [hmint]; exact hg.mint_ne side)
      (show (src.series.redeemedNominal side).toNat + amount.toNat < 2 ^ 64 ∧
        (src.series.paid side).toNat + payout.toNat < 2 ^ 64 ∧
        src.series.stateVersion.toNat + 1 < 2 ^ 64 from ⟨by omega, by omega, hr.version⟩)
    obtain ⟨s, payout', hs, -, -, hpayout', -, hbalance⟩ := World.redeem_pays hw'
    cases hf.series.symm.trans hs
    cases hpayout.symm.trans hpayout'
    exact ⟨w', hw', congrArg Int.ofNat hbalance⟩
  · -- What is redeemed was quoted.
    intro amount guard w' hw'
    have howned := redeem_owned hw'
    obtain ⟨L, payout, hL, hp, -⟩ := redeem_eq_ok.mp hw'
    cases hL.unique hfrom
    refine ⟨_, (hf.quoteRedemption_eq_ok hr.redeemable hexpiry).mpr
      ⟨hp.positive, ?_, hp.phase, (hr.covered_iff hp.phase).mpr hp.covered, payout, hp.priced,
        hp.consent, rfl⟩⟩
    rw [UInt64.le_iff_toNat_le, ← Bank.balance_eq htoken]
    exact howned

/-- The client's word on open deposits is the program's. -/
theorem Ready.depositGates (hr : Ready host w a holder snap src claims) :
    ∃ e, deriveEligibility snap.series snap.policy snap.vaultRaw snap.clock = .ok e ∧
      (e.depositsOpen = true ↔ DepositGates host w (pairAccounts a holder snap.series)) := by
  obtain ⟨e, he, hopen⟩ := hr.fetched.depositsOpen hr.laidOut hr.redeemable
  refine ⟨e, he, ?_⟩
  rw [hopen]
  constructor
  · rintro ⟨hphase, hjournal, hearly, hadmitted, hcovered⟩
    refine ⟨src.pair claims, hr.fetched.pairFrom hr.grounded, fun amount guard hpos hguard => ?_⟩
    exact hr.depositPasses hphase hjournal hearly hadmitted hcovered hpos hguard
  · rintro ⟨L, hL, hpasses⟩
    cases hL.unique (hr.fetched.pairFrom hr.grounded)
    have hp := hpasses 1 ⟨src.series.stateVersion, w.clock.unixTimestamp, 1⟩ (by decide)
      (checkGuard_quoted (Int64.le_refl _))
    exact ⟨hp.phase, hp.journal, hp.early, hp.admitted, hp.covered⟩

end Gates

/-- **Quotes are sound and complete**: from a snapshot of a reachable world, a deposit, a
recombination or a redemption is quoted exactly when the program would carry it out, and pays what
was quoted; and deposits are shown as open exactly when the gates of `deposit` are passed. -/
theorem quotes_faithful {host : Host} {w₀ w : World} {tr : List Action}
    {a : QuoteSnapshotAddresses} {holder : Holder} {snap : CoherentQuoteSnapshot} {expiry : Int64}
    (h : World.History host w₀ tr w) (hlen : instructionCount tr < 2 ^ 64) (hexact : host.Exact)
    (hfetch : fetchQuoteSnapshot host w (a.requestFor holder) = .ok snap)
    (hlayout : (w.bank.mints a.collateralMint).all Mint.laidOut = true)
    (hfits : w.bank.balance a.vault + w.bank.balance holder.collateral < 2 ^ 64)
    (hexpiry : w.clock.unixTimestamp ≤ expiry) :
    Faithful
      (fun raw => quoteDeposit snap.series snap.policy snap.vaultRaw raw
        (snap.holderCollateralRaw.getD 0) snap.clock expiry.toInt none)
      (fun q => deposit host w (pairAccounts a holder snap.series) (encodeAmount q.inputRaw)
        q.guard.encode)
      (deposit host w (pairAccounts a holder snap.series))
      (fun q w' => (w'.bank.balance holder.pt : Int) = w.bank.balance holder.pt + q.ptOutputRaw ∧
        (w'.bank.balance holder.dr : Int) = w.bank.balance holder.dr + q.drOutputRaw) ∧
    Faithful
      (fun raw => quoteRecombine snap.series snap.vaultRaw raw (snap.holderPtRaw.getD 0)
        (snap.holderDrRaw.getD 0) snap.clock.unixTimestamp expiry.toInt none)
      (fun q => recombine host w (pairAccounts a holder snap.series) (encodeAmount q.ptInputRaw)
        q.guard.encode)
      (recombine host w (pairAccounts a holder snap.series))
      (fun q w' => (w'.bank.balance holder.collateral : Int) =
        w.bank.balance holder.collateral + q.collateralOutputRaw) ∧
    (∀ side allowZero, Faithful
      (fun raw => quoteRedemption snap.series snap.vaultRaw side raw
        ((snap.holderClaimRaw side).getD 0) allowZero snap.clock.unixTimestamp expiry.toInt none)
      (fun q => redeem host w (redeemAccounts a holder snap.series q.side) q.side
        (encodeAmount q.claimInputRaw) q.allowZero q.guard.encode)
      (fun amount guard => redeem host w (redeemAccounts a holder snap.series side) side amount
        allowZero guard)
      (fun q w' => (w'.bank.balance holder.collateral : Int) =
        w.bank.balance holder.collateral + q.collateralOutputRaw)) ∧
    ∃ e, deriveEligibility snap.series snap.policy snap.vaultRaw snap.clock = .ok e ∧
      (e.depositsOpen = true ↔ DepositGates host w (pairAccounts a holder snap.series)) := by
  obtain ⟨src, hf⟩ := exists_sources hfetch
  have hl : src.mint.laidOut = true := by
    rw [hf.mint] at hlayout
    exact hlayout
  obtain ⟨claims, hr⟩ := hf.ready h hlen hl hfits
  exact ⟨hr.deposit_faithful hexact hexpiry, hr.recombine_faithful hexact hexpiry,
    fun side allowZero => hr.redeem_faithful hexact hexpiry side allowZero, hr.depositGates⟩

/-- The accounts of the sample. -/
def sampleAddresses : QuoteSnapshotAddresses :=
  { assetPolicy := Sample.assetKey, series := Sample.seriesKey,
    accumulator := .accumulator Sample.seriesKey, collateralMint := Sample.mintKey,
    vault := Sample.vaultKey, holder := none, holderCollateral := none, holderPt := none,
    holderDr := none }

def sampleHolder : Holder :=
  { wallet := Sample.holder, collateral := Sample.holderCollateral, pt := Sample.holderPt,
    dr := Sample.holderDr }

/-- In the sample a second deposit of 50 is quoted before the year starts, and goes through. -/
theorem quotes_faithful_sample : ∃ snap q w',
    fetchQuoteSnapshot Sample.host (Sample.world 8) (sampleAddresses.requestFor sampleHolder) =
      .ok snap ∧
    quoteDeposit snap.series snap.policy snap.vaultRaw 50 (snap.holderCollateralRaw.getD 0)
      snap.clock 1900000000 none = .ok q ∧
    deposit Sample.host (Sample.world 8) (pairAccounts sampleAddresses sampleHolder snap.series)
      (encodeAmount q.inputRaw) q.guard.encode = .ok w' ∧
    (w'.bank.balance Sample.holderPt : Int) =
      (Sample.world 8).bank.balance Sample.holderPt + q.ptOutputRaw := by
  have hquoted : ((fetchQuoteSnapshot Sample.host (Sample.world 8)
      (sampleAddresses.requestFor sampleHolder)).toOption.any fun snap =>
        (quoteDeposit snap.series snap.policy snap.vaultRaw 50 (snap.holderCollateralRaw.getD 0)
          snap.clock 1900000000 none).toOption.isSome) = true := by decide +kernel
  obtain ⟨snap, hsnap, hsome⟩ := (Option.any_eq_true _ _).mp hquoted
  obtain ⟨q, hq⟩ := Option.isSome_iff_exists.mp hsome
  rw [Result.toOption_eq_some] at hsnap hq
  have hlayout : ((Sample.world 8).bank.mints sampleAddresses.collateralMint).all Mint.laidOut =
      true := by decide +kernel
  have hfits : (Sample.world 8).bank.balance sampleAddresses.vault +
      (Sample.world 8).bank.balance sampleHolder.collateral < 2 ^ 64 := by decide +kernel
  have hexpiry : (Sample.world 8).clock.unixTimestamp ≤ 1900000000 := by decide +kernel
  obtain ⟨hdeposit, -⟩ := quotes_faithful (Sample.history 8) (by decide) Sample.host_exact hsnap
    hlayout hfits hexpiry
  obtain ⟨w', hw', hpt, -⟩ := hdeposit.sound 50 q hq
  exact ⟨snap, q, w', hsnap, hq, hw', hpt⟩

/-! ## Custody -/

/-- **The custody formula is total and right**: on every series the program can reach the client's
checks of the books pass, its requirement is what the program owes, and custody is healthy exactly
when the program's own check on the vault passes. -/
theorem required_custody_exact {host : Host} {w₀ w : World} {tr : List Action} {k : Pubkey}
    {s : Series} (h : World.History host w₀ tr w) (hs : w.series k = some s) :
    (s.phase ≠ .finalized →
      requiredCustodyRaw (normalizeSeriesAccount k s) = .ok (s.nominalBacking.toNat : Int)) ∧
    (s.phase = .finalized → ∃ owed, remainingObligations s = .ok owed ∧
      requiredCustodyRaw (normalizeSeriesAccount k s) = .ok (owed.toNat : Int)) ∧
    (∀ vault : UInt64, ∃ custody,
      custodySnapshot (normalizeSeriesAccount k s) vault.toNat = .ok custody ∧
      (custody.healthy = true ↔ ∃ owed, s.obligations = .ok owed ∧
        ensure (owed ≤ vault) .custodyDeficit = .ok ())) ∧
    ∃ custody, custodySnapshot (normalizeSeriesAccount k s) (w.bank.balance s.vault) = .ok custody ∧
      (custody.healthy = true ↔ ¬ w.InDeficit k) := by
  obtain ⟨b, hb, hbs⟩ := h.linked.exists_books hs
  have hr : Redeemable s := by
    rw [← hbs]
    exact (h.redeemable hb).1
  obtain ⟨owed, howed, hdebt⟩ := hr.exists_obligations
  have hrequired := @requiredCustodyRaw_eq k s hr
  refine ⟨fun hopen => ?_, fun hfinal => ?_, fun vault => ?_, ?_⟩
  · rw [hrequired, Series.debt_of_open hopen]
  · rw [Series.obligations, if_pos hfinal] at howed
    exact ⟨owed, howed, by rw [hrequired, hdebt]⟩
  · obtain ⟨custody, hcustody, hhealthy⟩ := @custodySnapshot_eq k s hr vault
    refine ⟨custody, hcustody, ?_⟩
    rw [hhealthy, ← hdebt, ← UInt64.le_iff_toNat_le, howed]
    constructor
    · intro hle
      exact ⟨owed, rfl, Result.require_eq_ok.mpr hle⟩
    · rintro ⟨_, hsame, hle⟩
      cases hsame
      exact Result.require_eq_ok.mp hle
  · obtain ⟨v, hv, -⟩ := (h.linked.series hs).vault
    have hbalance : w.bank.balance s.vault = v.amount.toNat := Bank.balance_eq hv
    obtain ⟨custody, hcustody, hhealthy⟩ := @custodySnapshot_eq k s hr v.amount
    rw [hbalance]
    refine ⟨custody, hcustody, ?_⟩
    rw [hhealthy, ← hdebt, ← hbalance]
    constructor
    · rintro hle ⟨s', owed', hs', howed', hlow⟩
      cases hs.symm.trans hs'
      cases howed.symm.trans howed'
      omega
    · intro hnone
      by_contra hlow
      exact hnone ⟨s, owed, hs, howed, by omega⟩

/-- In the sample the finalized series still owes 99000 less what 40000 dividend and 7 principal
claims were paid, and the donation is on top. -/
theorem required_custody_exact_sample : ∃ s, (Sample.world 18).series Sample.seriesKey = some s ∧
    s.phase = .finalized ∧ ∃ owed, remainingObligations s = .ok owed ∧
      requiredCustodyRaw (normalizeSeriesAccount Sample.seriesKey s) = .ok (owed.toNat : Int) := by
  obtain ⟨s, hs, hfinal⟩ := @Sample.series_of_any 18 (fun s => decide (s.phase = .finalized))
    (by decide +kernel)
  obtain ⟨-, hrequired, -⟩ := required_custody_exact (Sample.history 18) hs
  exact ⟨s, hs, of_decide_eq_true hfinal, hrequired (of_decide_eq_true hfinal)⟩

end Sdk

end DividendX
