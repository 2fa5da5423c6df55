import DividendX.Calendar
import DividendX.World

/-!
# The instruction handlers

`handlers.rs`, with the account checks of `contexts.rs` in front of each handler. A handler takes
the world before the transaction and gives the world after it; a failed transaction has no effect,
so an error carries no world. Checks stand in the source's order.

Three pieces that the source writes inline are given names here: `updateCounters`, the counter
arithmetic of an accepted event record, `EventInput.toRevision`, the record it stores, and
`Accumulator.reset`, the empty product.
-/

namespace DividendX

open LittleEndian

variable (host : Host)

/-! ## Shared checks -/

/-- `set_reviewed_scale`. -/
def setReviewedScale (asset : AssetPolicy) (scale : ScaleTuple) : AssetPolicy :=
  { asset with
    reviewedCurrentMultiplierBits := scale.currentBits
    reviewedNewMultiplierBits := scale.newBits
    reviewedNewMultiplierEffectiveTimestamp := scale.effectiveTimestamp
    reviewedActiveMultiplierBits := scale.activeBits }

/-- `require_scale_equals_review`. -/
def requireScaleEqualsReview (asset : AssetPolicy) (scale : ScaleTuple) : Outcome Unit := do
  ensure (scale.currentBits = asset.reviewedCurrentMultiplierBits
    ∧ scale.newBits = asset.reviewedNewMultiplierBits
    ∧ scale.effectiveTimestamp = asset.reviewedNewMultiplierEffectiveTimestamp) .scaleTupleChanged
  ensure (scale.activeBits = asset.reviewedActiveMultiplierBits) .activeScaleChanged

/-- `require_scale_equals_seal`. -/
def requireScaleEqualsSeal (series : Series) (scale : ScaleTuple) : Outcome Unit := do
  ensure (scale.currentBits = series.sealedCurrentMultiplierBits
    ∧ scale.newBits = series.sealedNewMultiplierBits
    ∧ scale.effectiveTimestamp = series.sealedNewMultiplierEffectiveTimestamp) .scaleTupleChanged
  ensure (scale.activeBits = series.sealedActiveMultiplierBits) .activeScaleChanged

/-- `require_reviewed_profile`. -/
def requireReviewedProfile (asset : AssetPolicy) (mintKey : Pubkey) (mint : Mint) (clock : Clock) :
    Outcome MintProfile := do
  ensure (asset.observationEvidenceDigest ≠ zero32
    ∧ clock.unixTimestamp ≤ asset.observationValidUntil
    ∧ asset.observedSlot ≤ clock.slot) .observationStale
  let profile ← inspectMint host mintKey mint clock.unixTimestamp
  ensure (profile.decimals = asset.decimals) .unsupportedDecimals
  ensure (profile.extensionsMask = asset.extensionsMask) .controlsChanged
  ensure (profile.controlsFingerprint = asset.reviewedControlsFingerprint) .controlsChanged
  requireScaleEqualsReview asset profile.scale
  return profile

/-- `require_admission`. -/
def requireAdmission (asset : AssetPolicy) (mintKey : Pubkey) (mint : Mint) (clock : Clock) :
    Outcome MintProfile := do
  ensure (asset.admissionEnabled = true) .admissionDisabled
  requireReviewedProfile host asset mintKey mint clock

/-- `check_guard`. -/
def checkGuard (series : Series) (guard : Guard) (clock : Clock) (rawOutput : UInt64) :
    Outcome Unit := do
  ensure (guard.expectedStateVersion = series.stateVersion) .guardVersionMismatch
  ensure (clock.unixTimestamp ≤ guard.expiryUnixTimestamp) .guardExpired
  ensure (guard.minimumRawOutput ≤ rawOutput) .minimumOutputNotMet

/-- `validate_exit_accounts`. -/
def validateExitAccounts (seriesKey : Pubkey) (series : Series) (assetKey : Pubkey)
    (asset : AssetPolicy) (mintKey : Pubkey) (mint : Mint) (vaultKey : Pubkey)
    (vault : TokenAccount) : Outcome Unit := do
  ensure (series.assetPolicy = assetKey) .invalidAccountData
  ensure (series.policyDigest = asset.policyDigest) .invalidAccountData
  ensure (mintKey = series.collateralMint) .invalidTokenMint
  ensure (mint.tokenProgram = .token2022) .invalidTokenProgram
  ensure (vaultKey = series.vault) .invalidAccountData
  ensure (vault.tokenProgram = .token2022) .invalidTokenProgram
  ensure (vault.mint = series.collateralMint) .invalidTokenMint
  ensure (vault.owner = seriesKey) .invalidTokenOwner
  ensure (vault.delegate = none ∧ vault.closeAuthority = none) .unsafeVaultAuthority
  ensure (vault.state = .initialized) .unsafeVaultState

/-- `validate_series_accounts`. -/
def validateSeriesAccounts (seriesKey : Pubkey) (series : Series) (assetKey : Pubkey)
    (asset : AssetPolicy) (mintKey : Pubkey) (mint : Mint) (vaultKey : Pubkey)
    (vault : TokenAccount) (ptMintKey : Pubkey) (ptMint : Mint) (drMintKey : Pubkey)
    (drMint : Mint) : Outcome Unit := do
  validateExitAccounts seriesKey series assetKey asset mintKey mint vaultKey vault
  ensure (ptMintKey = series.ptMint) .invalidTokenMint
  ensure (drMintKey = series.drMint) .invalidTokenMint
  ensure (ptMintKey ≠ drMintKey) .accountsNotDistinct
  ensure (ptMint.tokenProgram = .token) .invalidTokenProgram
  ensure (drMint.tokenProgram = .token) .invalidTokenProgram

/-- `validate_holder_collateral` and `validate_holder_claim`, which differ in the token program
only. -/
def validateHolder (program : TokenProgramId) (account : TokenAccount) (holder mint : Pubkey) :
    Outcome Unit := do
  ensure (account.tokenProgram = program) .invalidTokenProgram
  ensure (account.owner = holder) .invalidTokenOwner
  ensure (account.mint = mint) .invalidTokenMint
  ensure (account.state = .initialized) .unsafeVaultState

/-- `validate_holder_collateral`. -/
def validateHolderCollateral (account : TokenAccount) (holder mint : Pubkey) : Outcome Unit :=
  validateHolder .token2022 account holder mint

/-- `validate_holder_claim`. -/
def validateHolderClaim (account : TokenAccount) (holder mint : Pubkey) : Outcome Unit :=
  validateHolder .token account holder mint

/-- `require_claim_mint_open` and `require_claim_mint_final`, which differ in the mint authority
they expect. -/
def requireClaimMint (authority : Option Pubkey) (mint : Mint) (decimals : UInt8) :
    Outcome Unit := do
  ensure (mint.decimals = decimals) .unsupportedDecimals
  ensure (mint.mintAuthority = authority) .invalidClaimMintAuthority
  ensure (mint.freezeAuthority = none) .invalidClaimFreezeAuthority

/-- `require_claim_mint_open`. -/
def requireClaimMintOpen (mint : Mint) (series : Pubkey) (decimals : UInt8) : Outcome Unit :=
  requireClaimMint (some series) mint decimals

/-- `require_claim_mint_final`. -/
def requireClaimMintFinal (mint : Mint) (decimals : UInt8) : Outcome Unit :=
  requireClaimMint none mint decimals

/-- `require_distinct`. -/
def requireDistinct (keys : List Pubkey) : Outcome Unit :=
  ensure keys.Nodup .accountsNotDistinct

/-- `bump_state_version`. -/
def bumpStateVersion (series : Series) : Outcome Series := do
  let stateVersion ← orError (Checked.addU64 series.stateVersion 1) .arithmeticOverflow
  return { series with stateVersion := stateVersion }

/-- `remaining_obligations`. -/
def remainingObligations (series : Series) : Outcome UInt64 := do
  let pt ← orError (Checked.subU64 series.ptPool series.ptPaid) .arithmeticOverflow
  let dr ← orError (Checked.subU64 series.drPool series.drPaid) .arithmeticOverflow
  orError (Checked.addU64 pt dr) .arithmeticOverflow

/-- `funding_journal_open`. -/
def fundingJournalOpen (unresolvedCount inYearQualifiedCount : UInt8) : Bool :=
  unresolvedCount == 0 && inYearQualifiedCount == 0

/-! ## Events -/

/-- `validate_event_input`: is the record resolved, and does it count for the year? -/
def validateEventInput (input : EventInput) (seriesYear : UInt16) (clock : Clock) :
    Outcome (Bool × Bool) := do
  requireNonzero input.eventId .invalidAccountData
  requireNonzero input.evidenceDigest .zeroEvidenceDigest
  ensure (input.status ≤ STATUS_UNSUPPORTED) .invalidEventStatus
  Result.checkWhen (input.exDate ≠ 0) (discard (parseCivilDate input.exDate))
  Result.checkWhen (input.sourcePaymentDate ≠ 0) (discard (parseCivilDate input.sourcePaymentDate))
  (if input.status = STATUS_QUALIFIED then do
    requireQualifiedFactor input.m0Bits input.m1Bits
    Result.checkWhen (input.sourceFinal = true)
      (ensure (input.originalEffectiveTime ≤ clock.unixTimestamp ∧ input.observedSlot ≤ clock.slot)
        .futureEventData)
  else ensure (input.m0Bits = 0 ∧ input.m1Bits = 0) .unexpectedEventFactor : Outcome Unit)
  let resolvedStatus := input.status == STATUS_QUALIFIED || input.status == STATUS_CONFIRMED_ZERO
    || input.status == STATUS_CANCELLED
  let resolved := resolvedStatus && input.sourceFinal && input.exDate != 0
  let inYearQualified := resolved && input.status == STATUS_QUALIFIED
    && isInYear input.exDate seriesYear
  return (resolved, inYearQualified)

/-- `initial_journal_hash`. -/
def initialJournalHash (series : Pubkey) (policyDigest : Bytes32) : Bytes32 :=
  host.sha256 ("dividendx:journal-genesis:v1".toUTF8.data.toList
    ++ (host.addressBytes series).toList ++ policyDigest.toList)

/-- The Borsh encoding of an event input. -/
def EventInput.serialize (input : EventInput) : List UInt8 :=
  input.eventId.toList ++ fixed 8 input.revision.toNat ++ fixed 4 input.exDate.toNat
    ++ [input.status] ++ fixed 8 input.m0Bits.toNat ++ fixed 8 input.m1Bits.toNat
    ++ [if input.sourceFinal then 1 else 0] ++ fixed 8 input.originalEffectiveTime.toUInt64.toNat
    ++ fixed 4 input.sourcePaymentDate.toNat ++ fixed 8 input.observedSlot.toNat
    ++ input.evidenceDigest.toList

/-- `hash_event_record`. -/
def hashEventRecord (series : Pubkey) (input : EventInput) (previousRevisionHash : Bytes32) :
    Bytes32 :=
  host.sha256 ("dividendx:event-revision:v1".toUTF8.data.toList
    ++ (host.addressBytes series).toList ++ previousRevisionHash.toList ++ input.serialize)

/-- The journal hash after one more record. -/
def nextJournalHash (journalHash recordHash : Bytes32) : Bytes32 :=
  host.sha256 ("dividendx:journal-history:v1".toUTF8.data.toList
    ++ journalHash.toList ++ recordHash.toList)

/-- The record an input is stored as. -/
def EventInput.toRevision (input : EventInput) (eventHead : Pubkey)
    (previousRevisionHash recordHash : Bytes32) : EventRevision :=
  { eventHead := eventHead, eventId := input.eventId, revision := input.revision,
    exDate := input.exDate, status := input.status, m0Bits := input.m0Bits,
    m1Bits := input.m1Bits, sourceFinal := input.sourceFinal,
    originalEffectiveTime := input.originalEffectiveTime,
    sourcePaymentDate := input.sourcePaymentDate, observedSlot := input.observedSlot,
    evidenceDigest := input.evidenceDigest, previousRevisionHash := previousRevisionHash,
    recordHash := recordHash }

/-- One more, when the condition holds. -/
def countIf (b : Bool) (count : UInt8) : Outcome UInt8 :=
  if b then orError (Checked.addU8 count 1) .arithmeticOverflow else pure count

/-- One less, when the condition holds. -/
def uncountIf (b : Bool) (count : UInt8) : Outcome UInt8 :=
  if b then orError (Checked.subU8 count 1) .arithmeticOverflow else pure count

/-- The counter arithmetic of an accepted record: a new head takes the next index, a revised one
first gives back what its old record counted for. -/
def updateCounters (series : Series) (head : EventHead)
    (headIsNew resolved inYearQualified : Bool) :
    Outcome Series := do
  let eventCount ← countIf headIsNew series.eventCount
  let unresolved ← uncountIf (!headIsNew && !head.latestResolved) series.unresolvedCount
  let inYear ← uncountIf (!headIsNew && head.latestInYearQualified) series.inYearQualifiedCount
  let unresolved ← countIf (!resolved) unresolved
  let inYear ← countIf inYearQualified inYear
  return { series with
    eventCount := eventCount
    unresolvedCount := unresolved
    inYearQualifiedCount := inYear }

/-- The empty product. -/
def Accumulator.reset (a : Accumulator) : Accumulator :=
  { a with cursor := 0, numerator := [1], denominator := [1] }

/-! ## Administration -/

/-- `i64::saturating_add`. -/
def saturatingAddI64 (a b : Int64) : Int64 :=
  Int64.ofInt (max (-2 ^ 63) (min (2 ^ 63 - 1) (a.toInt + b.toInt)))

/-- `initialize_config`. -/
def initializeConfig (w : World) (upgradeAuthority domain : Bytes32) : Outcome World := do
  Result.require (w.config = none) (.anchor .accountAlreadyInUse)
  Result.require (w.upgradeAuthority = some (.wallet upgradeAuthority)) (.anchor .constraintRaw)
  requireNonzero domain .zeroDeploymentDomain
  return { w with config := some ⟨.wallet upgradeAuthority, domain⟩ }

/-- `register_asset`. -/
def registerAsset (w : World) (acc : RegisterAssetAccounts) (issuerId : Bytes32) (symbol : String)
    (attestor : Pubkey) (policyDigest : Bytes32) : Outcome World := do
  let config ← Result.okOr w.config (.anchor .accountNotInitialized)
  let mint ← w.loadCollateralMint acc.collateralMint
  let assetKey := Pubkey.asset issuerId acc.collateralMint
  Result.require (w.policies assetKey = none) (.anchor .accountAlreadyInUse)
  Result.require (config.admin = .wallet acc.admin) (.anchor .constraintHasOne)
  requireNonzero issuerId .invalidAccountData
  requireNonzero policyDigest .zeroPolicyDigest
  ensure (symbol ≠ "" ∧ symbol.utf8ByteSize ≤ 16) .invalidSymbol
  ensure (attestor ≠ .default ∧ attestor ≠ config.admin) .invalidAccountData
  let profile ← inspectMint host acc.collateralMint mint w.clock.unixTimestamp
  let asset : AssetPolicy :=
    { config := .config, issuerId := issuerId, collateralMint := acc.collateralMint,
      symbol := symbol, decimals := profile.decimals, attestor := attestor,
      policyDigest := policyDigest, extensionsMask := profile.extensionsMask,
      admissionEnabled := true,
      reviewedCurrentMultiplierBits := profile.scale.currentBits,
      reviewedNewMultiplierBits := profile.scale.newBits,
      reviewedNewMultiplierEffectiveTimestamp := profile.scale.effectiveTimestamp,
      reviewedActiveMultiplierBits := profile.scale.activeBits,
      reviewedControlsFingerprint := profile.controlsFingerprint,
      observedSlot := w.clock.slot,
      -- registration does not stand in for the attestor's review
      observationValidUntil := 0, observationEvidenceDigest := zero32 }
  return w.putPolicy assetKey asset

/-- `set_asset_admission`. -/
def setAssetAdmission (w : World) (acc : SetAssetAdmissionAccounts) (enabled : Bool) :
    Outcome World := do
  let config ← Result.okOr w.config (.anchor .accountNotInitialized)
  let asset ← World.load w.policies acc.assetPolicy
  Result.require (config.admin = .wallet acc.admin) (.anchor .constraintHasOne)
  Result.require (asset.config = .config) (.anchor .constraintHasOne)
  return w.putPolicy acc.assetPolicy { asset with admissionEnabled := enabled }

/-- `refresh_observation`. -/
def refreshObservation (w : World) (acc : RefreshObservationAccounts) (evidenceDigest : Bytes32)
    (validUntil : Int64) : Outcome World := do
  let asset ← World.load w.policies acc.assetPolicy
  let mint ← w.loadCollateralMint acc.collateralMint
  Result.require (asset.attestor = .wallet acc.attestor) (.anchor .constraintHasOne)
  ensure (asset.collateralMint = acc.collateralMint) .invalidTokenMint
  requireNonzero evidenceDigest .zeroEvidenceDigest
  ensure (w.clock.unixTimestamp < validUntil) .invalidObservationExpiry
  ensure (validUntil ≤ saturatingAddI64 w.clock.unixTimestamp MAX_OBSERVATION_LIFETIME)
    .invalidObservationExpiry
  let profile ← inspectMint host acc.collateralMint mint w.clock.unixTimestamp
  ensure (profile.decimals = asset.decimals) .unsupportedDecimals
  ensure (profile.extensionsMask = asset.extensionsMask) .controlsChanged
  ensure (profile.controlsFingerprint = asset.reviewedControlsFingerprint) .controlsChanged
  return w.putPolicy acc.assetPolicy { setReviewedScale asset profile.scale with
    observedSlot := w.clock.slot
    observationValidUntil := validUntil
    observationEvidenceDigest := evidenceDigest }

/-! ## Creation -/

/-- The series account `create_series` writes. -/
def freshSeries (seriesKey assetKey : Pubkey) (asset : AssetPolicy) (year : UInt16)
    (start maturity : Int64) (mintKey : Pubkey) (profile : MintProfile) : Series :=
  { assetPolicy := assetKey, policyDigest := asset.policyDigest, year := year,
    startTimestamp := start, maturityTimestamp := maturity, collateralMint := mintKey,
    vault := .ata seriesKey mintKey, ptMint := .pt seriesKey, drMint := .dr seriesKey,
    decimals := profile.decimals, phase := .open, nominalBacking := 0, eventCount := 0,
    unresolvedCount := 0, inYearQualifiedCount := 0, journalVersion := 0,
    journalHash := initialJournalHash host seriesKey asset.policyDigest, stateVersion := 0,
    sealedJournalVersion := 0, sealedJournalHash := zero32, sealedCoverageDigest := zero32,
    sealedEventCount := 0, sealedCurrentMultiplierBits := 0, sealedNewMultiplierBits := 0,
    sealedNewMultiplierEffectiveTimestamp := 0, sealedActiveMultiplierBits := 0,
    sealedControlsFingerprint := zero32, finalizationSlot := 0, finalSupply := 0, ptPool := 0,
    drPool := 0, ptRedeemedNominal := 0, drRedeemedNominal := 0, ptPaid := 0, drPaid := 0 }

/-- A claim mint as `init` makes it. -/
def freshClaimMint (seriesKey : Pubkey) (decimals : UInt8) : Mint :=
  { tokenProgram := .token, mintAuthority := some seriesKey, supply := 0, decimals := decimals,
    isInitialized := true, freezeAuthority := none, extensions := [] }

/-- A vault as `init` makes it. -/
def freshVault (seriesKey mintKey : Pubkey) : TokenAccount :=
  { tokenProgram := .token2022, mint := mintKey, owner := seriesKey, amount := 0,
    delegate := none, state := .initialized, closeAuthority := none }

/-- `create_series`. -/
def createSeries (w : World) (acc : CreateSeriesAccounts) (year : UInt16) : Outcome World := do
  let asset ← World.load w.policies acc.assetPolicy
  let mint ← w.loadMint acc.collateralMint
  let seriesKey := Pubkey.series acc.assetPolicy year
  let vaultKey := Pubkey.ata seriesKey acc.collateralMint
  Result.require (w.series seriesKey = none) (.anchor .accountAlreadyInUse)
  Result.require (w.accumulators (.accumulator seriesKey) = none) (.anchor .accountAlreadyInUse)
  Result.require (w.bank.mints (.pt seriesKey) = none) (.anchor .accountAlreadyInUse)
  Result.require (w.bank.mints (.dr seriesKey) = none) (.anchor .accountAlreadyInUse)
  Result.require (w.bank.tokens vaultKey = none) (.anchor .accountAlreadyInUse)
  Result.require (acc.assetPolicy = .asset asset.issuerId acc.collateralMint)
    (.anchor .constraintSeeds)
  ensure (asset.collateralMint = acc.collateralMint) .invalidTokenMint
  let (start, maturity) ← yearBounds year
  ensure (w.clock.unixTimestamp < start) .depositsClosed
  let profile ← requireAdmission host asset acc.collateralMint mint w.clock
  let w := w.putSeries seriesKey
    (freshSeries host seriesKey acc.assetPolicy asset year start maturity
      acc.collateralMint profile)
  let w := w.putAccumulator (.accumulator seriesKey) ⟨seriesKey, 0, [1], [1]⟩
  return { w with bank :=
    { tokens := Function.update w.bank.tokens vaultKey (some
      (freshVault seriesKey acc.collateralMint))
      mints := Function.update (Function.update w.bank.mints (.pt seriesKey)
        (some (freshClaimMint seriesKey asset.decimals))) (.dr seriesKey)
        (some (freshClaimMint seriesKey asset.decimals)) } }

/-! ## Holders, before finalization -/

/-- `deposit`. -/
def deposit (w : World) (acc : PairAccounts) (amount : UInt64) (guard : Guard) : Outcome World := do
  let asset ← World.load w.policies acc.assetPolicy
  let series ← World.load w.series acc.series
  let mint ← w.loadMint acc.collateralMint
  let vault ← w.loadToken acc.vault
  let holderCollateral ← w.loadToken acc.holderCollateral
  let ptMint ← w.loadClaimMint acc.ptMint
  let drMint ← w.loadClaimMint acc.drMint
  let holderPt ← w.loadClaimToken acc.holderPt
  let holderDr ← w.loadClaimToken acc.holderDr
  Result.require (series.assetPolicy = acc.assetPolicy) (.anchor .constraintHasOne)
  ensure (0 < amount) .zeroAmount
  checkGuard series guard w.clock amount
  ensure (series.phase = .open) .invalidPhase
  ensure (fundingJournalOpen series.unresolvedCount series.inYearQualifiedCount = true)
    .seriesJournalStarted
  ensure (w.clock.unixTimestamp < series.startTimestamp) .depositsClosed
  let _ ← requireAdmission host asset acc.collateralMint mint w.clock
  validateSeriesAccounts acc.series series acc.assetPolicy asset acc.collateralMint mint acc.vault
    vault acc.ptMint ptMint acc.drMint drMint
  validateHolderCollateral holderCollateral (.wallet acc.holder) acc.collateralMint
  validateHolderClaim holderPt (.wallet acc.holder) acc.ptMint
  validateHolderClaim holderDr (.wallet acc.holder) acc.drMint
  requireDistinct [acc.holderCollateral, acc.vault, acc.holderPt, acc.holderDr]
  ensure (series.nominalBacking ≤ vault.amount) .custodyDeficit
  requireClaimMintOpen ptMint acc.series series.decimals
  requireClaimMintOpen drMint acc.series series.decimals
  let bank ← host.invoke w.bank (.transferChecked acc.holderCollateral acc.collateralMint acc.vault
    (.wallet acc.holder) amount series.decimals)
  let bank ← host.invoke bank (.mintTo acc.ptMint acc.holderPt acc.series amount)
  let bank ← host.invoke bank (.mintTo acc.drMint acc.holderDr acc.series amount)
  let nominalBacking ← orError (Checked.addU64 series.nominalBacking amount) .arithmeticOverflow
  let series ← bumpStateVersion { series with nominalBacking := nominalBacking }
  return { w with bank := bank }.putSeries acc.series series

/-- `recombine`. -/
def recombine (w : World) (acc : PairAccounts) (amount : UInt64) (guard : Guard) :
    Outcome World := do
  let asset ← World.load w.policies acc.assetPolicy
  let series ← World.load w.series acc.series
  let mint ← w.loadMint acc.collateralMint
  let vault ← w.loadToken acc.vault
  let holderCollateral ← w.loadToken acc.holderCollateral
  let ptMint ← w.loadClaimMint acc.ptMint
  let drMint ← w.loadClaimMint acc.drMint
  let holderPt ← w.loadClaimToken acc.holderPt
  let holderDr ← w.loadClaimToken acc.holderDr
  Result.require (series.assetPolicy = acc.assetPolicy) (.anchor .constraintHasOne)
  ensure (0 < amount) .zeroAmount
  checkGuard series guard w.clock amount
  ensure (series.phase ≠ .finalized) .invalidPhase
  ensure (amount ≤ series.nominalBacking) .amountExceedsBacking
  let _ ← inspectMintForExit host acc.collateralMint mint w.clock.unixTimestamp
  validateSeriesAccounts acc.series series acc.assetPolicy asset acc.collateralMint mint acc.vault
    vault acc.ptMint ptMint acc.drMint drMint
  validateHolderClaim holderPt (.wallet acc.holder) acc.ptMint
  validateHolderClaim holderDr (.wallet acc.holder) acc.drMint
  validateHolderCollateral holderCollateral (.wallet acc.holder) acc.collateralMint
  requireDistinct [acc.holderPt, acc.holderDr, acc.holderCollateral, acc.vault]
  ensure (series.nominalBacking ≤ vault.amount) .custodyDeficit
  let bank ← host.invoke w.bank (.burn acc.ptMint acc.holderPt (.wallet acc.holder) amount)
  let bank ← host.invoke bank (.burn acc.drMint acc.holderDr (.wallet acc.holder) amount)
  let bank ← host.invoke bank (.transferChecked acc.vault acc.collateralMint acc.holderCollateral
    acc.series amount series.decimals)
  let nominalBacking ← orError (Checked.subU64 series.nominalBacking amount) .arithmeticOverflow
  let series ← bumpStateVersion { series with nominalBacking := nominalBacking }
  return { w with bank := bank }.putSeries acc.series series

/-! ## The journal -/

/-- The part of `upsert_event` after the replay check: store the record, update head, counters,
journal commitment and version. -/
def acceptRecord (w : World) (seriesKey : Pubkey) (series : Series) (head : EventHead)
    (revision : EventRevision) (headIsNew : Bool) (input : EventInput)
    (resolved inYearQualified : Bool) : Outcome World := do
  let headKey := Pubkey.event seriesKey input.eventId
  ensure (revision.revision = 0) .revisionConflict
  let previousRevisionHash := if headIsNew then zero32 else head.latestRecordHash
  let recordHash := hashEventRecord host seriesKey input previousRevisionHash
  let index := if headIsNew then series.eventCount else head.index
  let series ← updateCounters series head headIsNew resolved inYearQualified
  let journalVersion ← orError (Checked.addU64 series.journalVersion 1) .arithmeticOverflow
  let series ← bumpStateVersion { series with
    journalVersion := journalVersion
    journalHash := nextJournalHash host series.journalHash recordHash }
  let w := w.putRevision (.revision headKey input.revision)
    (input.toRevision headKey previousRevisionHash recordHash)
  let w := w.putHead headKey
    { series := seriesKey, eventId := input.eventId, index := index,
      latestRevision := input.revision, latestRecordHash := recordHash,
      latestResolved := resolved, latestInYearQualified := inYearQualified }
  return w.putSeries seriesKey series

/-- `upsert_event`. Both event accounts are `init_if_needed`: they exist from here on whenever the
instruction succeeds. -/
def upsertEvent (w : World) (acc : UpsertEventAccounts) (input : EventInput) : Outcome World := do
  let asset ← World.load w.policies acc.assetPolicy
  let series ← World.load w.series acc.series
  let headKey := Pubkey.event acc.series input.eventId
  let revisionKey := Pubkey.revision headKey input.revision
  let head := (w.heads headKey).getD .zeroed
  let revision := (w.revisions revisionKey).getD .zeroed
  let w := (w.putHead headKey head).putRevision revisionKey revision
  Result.require (asset.attestor = .wallet acc.attestor) (.anchor .constraintHasOne)
  Result.require (series.assetPolicy = acc.assetPolicy) (.anchor .constraintHasOne)
  ensure (series.phase = .open) .invalidPhase
  ensure (0 < input.revision) .invalidRevision
  let (resolved, inYearQualified) ← validateEventInput input series.year w.clock
  if head.series = .default then do
    ensure (series.eventCount < MAX_EVENTS) .eventLimitReached
    acceptRecord host w acc.series series head revision true input resolved inYearQualified
  else do
    ensure (head.series = acc.series) .invalidEventRelationship
    ensure (head.eventId = input.eventId) .invalidEventRelationship
    ensure (head.latestRevision ≤ input.revision) .lowerRevision
    if input.revision = head.latestRevision then do
      ensure (revision.recordHash = head.latestRecordHash ∧
        revision.matchesInput input revision.previousRevisionHash = true) .revisionConflict
      return w
    else
      acceptRecord host w acc.series series head revision false input resolved inYearQualified

/-! ## Finalization -/

/-- `begin_finalization`. -/
def beginFinalization (w : World) (acc : BeginFinalizationAccounts)
    (expectedJournalVersion : UInt64) (expectedJournalHash coverageDigest : Bytes32) :
    Outcome World := do
  let asset ← World.load w.policies acc.assetPolicy
  let series ← World.load w.series acc.series
  let accumulator ← World.load w.accumulators acc.accumulator
  let mint ← w.loadMint acc.collateralMint
  let vault ← w.loadToken acc.vault
  let ptMint ← w.loadClaimMint acc.ptMint
  let drMint ← w.loadClaimMint acc.drMint
  Result.require (asset.attestor = .wallet acc.attestor) (.anchor .constraintHasOne)
  Result.require (series.assetPolicy = acc.assetPolicy) (.anchor .constraintHasOne)
  Result.require (acc.accumulator = .accumulator acc.series) (.anchor .constraintSeeds)
  Result.require (accumulator.series = acc.series) (.anchor .constraintHasOne)
  requireNonzero coverageDigest .zeroEvidenceDigest
  ensure (series.phase = .open) .invalidPhase
  ensure (series.maturityTimestamp ≤ w.clock.unixTimestamp) .notMature
  ensure (series.unresolvedCount = 0) .unresolvedJournal
  ensure (series.journalVersion = expectedJournalVersion ∧ series.journalHash = expectedJournalHash)
    .journalMismatch
  let profile ← requireReviewedProfile host asset acc.collateralMint mint w.clock
  validateSeriesAccounts acc.series series acc.assetPolicy asset acc.collateralMint mint acc.vault
    vault acc.ptMint ptMint acc.drMint drMint
  ensure (series.nominalBacking ≤ vault.amount) .custodyDeficit
  let series ← bumpStateVersion { series with
    phase := .sealing
    sealedJournalVersion := expectedJournalVersion
    sealedJournalHash := expectedJournalHash
    sealedCoverageDigest := coverageDigest
    sealedEventCount := series.eventCount
    sealedCurrentMultiplierBits := profile.scale.currentBits
    sealedNewMultiplierBits := profile.scale.newBits
    sealedNewMultiplierEffectiveTimestamp := profile.scale.effectiveTimestamp
    sealedActiveMultiplierBits := profile.scale.activeBits
    sealedControlsFingerprint := profile.controlsFingerprint }
  return (w.putSeries acc.series series).putAccumulator acc.accumulator accumulator.reset

/-- `accumulate_event`. -/
def accumulateEvent (w : World) (acc : AccumulateEventAccounts) : Outcome World := do
  let series ← World.load w.series acc.series
  let accumulator ← World.load w.accumulators acc.accumulator
  let head ← World.load w.heads acc.eventHead
  let revision ← World.load w.revisions acc.revision
  Result.require (acc.accumulator = .accumulator acc.series) (.anchor .constraintSeeds)
  Result.require (accumulator.series = acc.series) (.anchor .constraintHasOne)
  ensure (series.phase = .sealing) .invalidPhase
  ensure (accumulator.cursor < series.sealedEventCount) .invalidAccumulatorCursor
  ensure (head.index = accumulator.cursor) .invalidAccumulatorCursor
  ensure (head.series = acc.series) .invalidEventRelationship
  ensure (revision.eventHead = acc.eventHead) .invalidEventRelationship
  ensure (revision.revision = head.latestRevision ∧ revision.recordHash = head.latestRecordHash)
    .invalidEventRelationship
  let (numerator, denominator) ← (if head.latestInYearQualified
    then multiplyRatio accumulator.numerator accumulator.denominator revision.m0Bits revision.m1Bits
    else pure (accumulator.numerator, accumulator.denominator) : Outcome (List UInt8 × List UInt8))
  let cursor ← orError (Checked.addU8 accumulator.cursor 1) .arithmeticOverflow
  let series ← bumpStateVersion series
  return (w.putSeries acc.series series).putAccumulator acc.accumulator
    { accumulator with cursor := cursor, numerator := numerator, denominator := denominator }

/-- `complete_finalization`. -/
def completeFinalization (w : World) (acc : CompleteFinalizationAccounts) : Outcome World := do
  let asset ← World.load w.policies acc.assetPolicy
  let series ← World.load w.series acc.series
  let accumulator ← World.load w.accumulators acc.accumulator
  let mint ← w.loadMint acc.collateralMint
  let vault ← w.loadToken acc.vault
  let ptMint ← w.loadClaimMint acc.ptMint
  let drMint ← w.loadClaimMint acc.drMint
  Result.require (series.assetPolicy = acc.assetPolicy) (.anchor .constraintHasOne)
  Result.require (acc.accumulator = .accumulator acc.series) (.anchor .constraintSeeds)
  Result.require (accumulator.series = acc.series) (.anchor .constraintHasOne)
  ensure (series.phase = .sealing) .invalidPhase
  ensure (accumulator.cursor = series.sealedEventCount) .accumulationIncomplete
  let profile ← inspectMint host acc.collateralMint mint w.clock.unixTimestamp
  ensure (profile.extensionsMask = asset.extensionsMask) .controlsChanged
  ensure (profile.controlsFingerprint = series.sealedControlsFingerprint
    ∧ profile.controlsFingerprint = asset.reviewedControlsFingerprint) .controlsChanged
  requireScaleEqualsSeal series profile.scale
  validateSeriesAccounts acc.series series acc.assetPolicy asset acc.collateralMint mint acc.vault
    vault acc.ptMint ptMint acc.drMint drMint
  ensure (series.nominalBacking ≤ vault.amount) .custodyDeficit
  requireClaimMintOpen ptMint acc.series series.decimals
  requireClaimMintOpen drMint acc.series series.decimals
  let (ptPool, drPool) ← splitPools series.nominalBacking accumulator.numerator
    accumulator.denominator
  let bank ← host.invoke w.bank (.revokeMintAuthority acc.ptMint acc.series)
  let bank ← host.invoke bank (.revokeMintAuthority acc.drMint acc.series)
  let series ← bumpStateVersion { series with
    finalSupply := series.nominalBacking
    ptPool := ptPool
    drPool := drPool
    finalizationSlot := w.clock.slot
    phase := .finalized }
  return { w with bank := bank }.putSeries acc.series series

/-- `abort_finalization`. -/
def abortFinalization (w : World) (acc : AbortFinalizationAccounts) (reasonDigest : Bytes32) :
    Outcome World := do
  let asset ← World.load w.policies acc.assetPolicy
  let series ← World.load w.series acc.series
  let accumulator ← World.load w.accumulators acc.accumulator
  Result.require (asset.attestor = .wallet acc.attestor) (.anchor .constraintHasOne)
  Result.require (series.assetPolicy = acc.assetPolicy) (.anchor .constraintHasOne)
  Result.require (acc.accumulator = .accumulator acc.series) (.anchor .constraintSeeds)
  Result.require (accumulator.series = acc.series) (.anchor .constraintHasOne)
  requireNonzero reasonDigest .zeroEvidenceDigest
  ensure (series.phase = .sealing) .invalidPhase
  let series ← bumpStateVersion { series with
    phase := .open
    sealedJournalVersion := 0
    sealedJournalHash := zero32
    sealedCoverageDigest := zero32
    sealedEventCount := 0
    sealedCurrentMultiplierBits := 0
    sealedNewMultiplierBits := 0
    sealedNewMultiplierEffectiveTimestamp := 0
    sealedActiveMultiplierBits := 0
    sealedControlsFingerprint := zero32 }
  return (w.putSeries acc.series series).putAccumulator acc.accumulator accumulator.reset

/-! ## Redemption -/

/-- The claim mint of a side. -/
def Series.claimMint (s : Series) : RedeemSide → Pubkey
  | .pt => s.ptMint
  | .dr => s.drMint

/-- The claims of a side redeemed so far. -/
def Series.redeemedNominal (s : Series) : RedeemSide → UInt64
  | .pt => s.ptRedeemedNominal
  | .dr => s.drRedeemedNominal

/-- The final pool of a side. -/
def Series.pool (s : Series) : RedeemSide → UInt64
  | .pt => s.ptPool
  | .dr => s.drPool

/-- The collateral paid out on a side so far. -/
def Series.paid (s : Series) : RedeemSide → UInt64
  | .pt => s.ptPaid
  | .dr => s.drPaid

/-- The counters of a side after a redemption. -/
def Series.setRedeemed (s : Series) (side : RedeemSide) (redeemed paid : UInt64) : Series :=
  match side with
  | .pt => { s with ptRedeemedNominal := redeemed, ptPaid := paid }
  | .dr => { s with drRedeemedNominal := redeemed, drPaid := paid }

/-- `redeem`. -/
def redeem (w : World) (acc : RedeemAccounts) (side : RedeemSide) (amount : UInt64)
    (allowZero : Bool) (guard : Guard) : Outcome World := do
  let asset ← World.load w.policies acc.assetPolicy
  let series ← World.load w.series acc.series
  let mint ← w.loadMint acc.collateralMint
  let vault ← w.loadToken acc.vault
  let holderCollateral ← w.loadToken acc.holderCollateral
  let claimMint ← w.loadClaimMint acc.claimMint
  let holderClaim ← w.loadClaimToken acc.holderClaim
  Result.require (series.assetPolicy = acc.assetPolicy) (.anchor .constraintHasOne)
  ensure (0 < amount) .zeroAmount
  ensure (series.phase = .finalized) .invalidPhase
  let _ ← inspectMintForExit host acc.collateralMint mint w.clock.unixTimestamp
  validateExitAccounts acc.series series acc.assetPolicy asset acc.collateralMint mint acc.vault
    vault
  validateHolderCollateral holderCollateral (.wallet acc.holder) acc.collateralMint
  validateHolderClaim holderClaim (.wallet acc.holder) acc.claimMint
  requireDistinct [acc.holderClaim, acc.holderCollateral, acc.vault]
  ensure (acc.claimMint = series.claimMint side) .invalidTokenMint
  requireClaimMintFinal claimMint series.decimals
  let payout ← redemptionPayout (series.redeemedNominal side) amount (series.pool side)
    series.finalSupply
  checkGuard series guard w.clock payout
  ensure (0 < payout ∨ allowZero = true) .zeroOutputConsentRequired
  let obligations ← remainingObligations series
  ensure (obligations ≤ vault.amount) .custodyDeficit
  let bank ← host.invoke w.bank (.burn acc.claimMint acc.holderClaim (.wallet acc.holder) amount)
  let bank ← (if 0 < payout
    then host.invoke bank (.transferChecked acc.vault acc.collateralMint acc.holderCollateral
      acc.series payout series.decimals)
    else pure bank : Outcome Bank)
  let redeemed ← orError (Checked.addU64 (series.redeemedNominal side) amount) .arithmeticOverflow
  let paid ← orError (Checked.addU64 (series.paid side) payout) .arithmeticOverflow
  let series ← bumpStateVersion (series.setRedeemed side redeemed paid)
  return { w with bank := bank }.putSeries acc.series series

end DividendX
