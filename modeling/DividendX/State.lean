import Mathlib.Data.Vector.Basic
import DividendX.Lib.Result

/-!
# Accounts, arguments and errors

The data model of the program (`state.rs`, `error.rs`), field by field under the source's names.
Addresses, 32-byte digests and machine integers keep their widths.

Two things are abstracted here and nowhere else.

* **Addresses.** A program-derived address is a free constructor applied to its seeds, so that
  derivation is injective and a derived address is never the address of a key pair. The bump
  seeds that only re-derive an address are therefore left out of every account.
* **Stores.** An account is kept in the store of its kind (see `World`): Anchor checks owner and
  discriminator before it hands an account to the code, so one address is never read as two
  kinds.
-/

namespace DividendX

/-! ## Constants -/

/-- The most events a series journal holds. -/
def MAX_EVENTS : UInt8 := 64

/-- The most bytes of an accumulated numerator or denominator. -/
def MAX_BIGINT_BYTES : Nat := 1024

/-- The longest an observation may stay valid, in seconds. -/
def MAX_OBSERVATION_LIFETIME : Int64 := 86400

def STATUS_PENDING : UInt8 := 0
def STATUS_QUALIFIED : UInt8 := 1
def STATUS_CONFIRMED_ZERO : UInt8 := 2
def STATUS_CANCELLED : UInt8 := 3
def STATUS_UNSUPPORTED : UInt8 := 4

/-! ## Bytes and addresses -/

/-- `[u8; 32]`: digests and identifiers. -/
abbrev Bytes32 : Type := List.Vector UInt8 32

/-- `[0; 32]`. -/
def zero32 : Bytes32 := List.Vector.replicate 32 0

/-- An address. All constructors but the first are derived from seeds; `ata` is the associated
Token-2022 account of an owner and a mint. -/
inductive Pubkey : Type where
  /-- the address of a key pair, the only kind that signs a transaction -/
  | wallet : Bytes32 → Pubkey
  /-- seeds `config` -/
  | config : Pubkey
  /-- seeds `asset`, issuer, collateral mint -/
  | asset : Bytes32 → Pubkey → Pubkey
  /-- seeds `series`, asset policy, year -/
  | series : Pubkey → UInt16 → Pubkey
  /-- seeds `accumulator`, series -/
  | accumulator : Pubkey → Pubkey
  /-- seeds `pt`, series -/
  | pt : Pubkey → Pubkey
  /-- seeds `dr`, series -/
  | dr : Pubkey → Pubkey
  /-- seeds `event`, series, event id -/
  | event : Pubkey → Bytes32 → Pubkey
  /-- seeds `revision`, event head, revision number -/
  | revision : Pubkey → UInt64 → Pubkey
  /-- owner and mint -/
  | ata : Pubkey → Pubkey → Pubkey
  deriving DecidableEq

/-- `Pubkey::default()`, thirty-two zero bytes. -/
def Pubkey.default : Pubkey := .wallet zero32

/-- The address of a key pair. -/
def Pubkey.isWallet : Pubkey → Bool
  | .wallet _ => true
  | _ => false

/-! ## Program accounts -/

/-- The singleton `Config` account. -/
structure Config where
  admin : Pubkey
  deploymentDomain : Bytes32
  deriving DecidableEq

/-- What the admin registered and the attestor reviewed about one collateral mint. -/
structure AssetPolicy where
  config : Pubkey
  issuerId : Bytes32
  collateralMint : Pubkey
  symbol : String
  decimals : UInt8
  attestor : Pubkey
  policyDigest : Bytes32
  extensionsMask : UInt64
  admissionEnabled : Bool
  reviewedCurrentMultiplierBits : UInt64
  reviewedNewMultiplierBits : UInt64
  reviewedNewMultiplierEffectiveTimestamp : Int64
  reviewedActiveMultiplierBits : UInt64
  reviewedControlsFingerprint : Bytes32
  observedSlot : UInt64
  observationValidUntil : Int64
  observationEvidenceDigest : Bytes32
  deriving DecidableEq

/-- The life of a series. -/
inductive SeriesPhase : Type where
  | open : SeriesPhase
  | sealing : SeriesPhase
  | finalized : SeriesPhase
  deriving DecidableEq

/-- One annual series: identities, backing, journal state, the sealed copy and the final books. -/
structure Series where
  assetPolicy : Pubkey
  policyDigest : Bytes32
  year : UInt16
  startTimestamp : Int64
  maturityTimestamp : Int64
  collateralMint : Pubkey
  vault : Pubkey
  ptMint : Pubkey
  drMint : Pubkey
  decimals : UInt8
  phase : SeriesPhase
  nominalBacking : UInt64
  eventCount : UInt8
  unresolvedCount : UInt8
  inYearQualifiedCount : UInt8
  journalVersion : UInt64
  journalHash : Bytes32
  stateVersion : UInt64
  sealedJournalVersion : UInt64
  sealedJournalHash : Bytes32
  sealedCoverageDigest : Bytes32
  sealedEventCount : UInt8
  sealedCurrentMultiplierBits : UInt64
  sealedNewMultiplierBits : UInt64
  sealedNewMultiplierEffectiveTimestamp : Int64
  sealedActiveMultiplierBits : UInt64
  sealedControlsFingerprint : Bytes32
  finalizationSlot : UInt64
  finalSupply : UInt64
  ptPool : UInt64
  drPool : UInt64
  ptRedeemedNominal : UInt64
  drRedeemedNominal : UInt64
  ptPaid : UInt64
  drPaid : UInt64
  deriving DecidableEq

/-- The latest state of one event of a series. -/
structure EventHead where
  series : Pubkey
  eventId : Bytes32
  index : UInt8
  latestRevision : UInt64
  latestRecordHash : Bytes32
  latestResolved : Bool
  latestInYearQualified : Bool
  deriving DecidableEq

/-- One accepted record of an event. -/
structure EventRevision where
  eventHead : Pubkey
  eventId : Bytes32
  revision : UInt64
  exDate : UInt32
  status : UInt8
  m0Bits : UInt64
  m1Bits : UInt64
  sourceFinal : Bool
  originalEffectiveTime : Int64
  sourcePaymentDate : UInt32
  observedSlot : UInt64
  evidenceDigest : Bytes32
  previousRevisionHash : Bytes32
  recordHash : Bytes32
  deriving DecidableEq

/-- The running product of a finalization: two little-endian integers and a cursor. -/
structure Accumulator where
  series : Pubkey
  cursor : UInt8
  numerator : List UInt8
  denominator : List UInt8
  deriving DecidableEq

/-- What `init_if_needed` hands to the code when the account did not exist. -/
def EventHead.zeroed : EventHead :=
  ⟨.default, zero32, 0, 0, zero32, false, false⟩

/-- What `init_if_needed` hands to the code when the account did not exist. -/
def EventRevision.zeroed : EventRevision :=
  ⟨.default, zero32, 0, 0, 0, 0, 0, false, 0, 0, 0, zero32, zero32, zero32⟩

/-! ## Instruction arguments -/

/-- The optimistic lock of a holder's instruction. -/
structure Guard where
  expectedStateVersion : UInt64
  expiryUnixTimestamp : Int64
  minimumRawOutput : UInt64
  deriving DecidableEq

/-- An event record as the attestor submits it. -/
structure EventInput where
  eventId : Bytes32
  revision : UInt64
  exDate : UInt32
  status : UInt8
  m0Bits : UInt64
  m1Bits : UInt64
  sourceFinal : Bool
  originalEffectiveTime : Int64
  sourcePaymentDate : UInt32
  observedSlot : UInt64
  evidenceDigest : Bytes32
  deriving DecidableEq

/-- The two kinds of claim. -/
inductive RedeemSide : Type where
  | pt : RedeemSide
  | dr : RedeemSide
  deriving DecidableEq

/-- The content of a stored record, in the shape it was submitted in. -/
def EventRevision.toInput (r : EventRevision) : EventInput :=
  { eventId := r.eventId, revision := r.revision, exDate := r.exDate, status := r.status,
    m0Bits := r.m0Bits, m1Bits := r.m1Bits, sourceFinal := r.sourceFinal,
    originalEffectiveTime := r.originalEffectiveTime, sourcePaymentDate := r.sourcePaymentDate,
    observedSlot := r.observedSlot, evidenceDigest := r.evidenceDigest }

/-- `EventRevision::matches_input`. -/
def EventRevision.matchesInput (r : EventRevision) (input : EventInput)
    (previousRevisionHash : Bytes32) : Bool :=
  r.eventId == input.eventId
    && r.revision == input.revision
    && r.exDate == input.exDate
    && r.status == input.status
    && r.m0Bits == input.m0Bits
    && r.m1Bits == input.m1Bits
    && r.sourceFinal == input.sourceFinal
    && r.originalEffectiveTime == input.originalEffectiveTime
    && r.sourcePaymentDate == input.sourcePaymentDate
    && r.observedSlot == input.observedSlot
    && r.evidenceDigest == input.evidenceDigest
    && r.previousRevisionHash == previousRevisionHash

/-- A stored record matches an input iff the input is its content, under the same link. -/
theorem EventRevision.matchesInput_iff {r : EventRevision} {input : EventInput} {h : Bytes32} :
    r.matchesInput input h = true ↔ r.toInput = input ∧ r.previousRevisionHash = h := by
  cases input
  simp only [matchesInput, toInput, Bool.and_eq_true, beq_iff_eq, EventInput.mk.injEq]
  tauto

/-- The clock sysvar, as far as the program reads it. -/
structure Clock where
  slot : UInt64
  unixTimestamp : Int64
  deriving DecidableEq

/-! ## Errors -/

/-- `DividendXError`, in the source's order. -/
inductive DividendXError : Type where
  | zeroDeploymentDomain | zeroPolicyDigest | zeroEvidenceDigest | invalidSymbol
  | unsupportedDecimals | unsupportedMintExtension | missingScaledUiAmount | mintNotInitialized
  | defaultAccountStateNotInitialized | activeTransferHook | mintPaused | invalidMultiplier
  | invalidObservationExpiry | admissionDisabled | observationStale | scaleTupleChanged
  | activeScaleChanged | controlsChanged | invalidYear | depositsClosed | zeroAmount
  | guardVersionMismatch | guardExpired | minimumOutputNotMet | invalidPhase
  | seriesJournalStarted | invalidTokenOwner | invalidTokenMint | invalidTokenProgram
  | accountsNotDistinct | unsafeVaultAuthority | unsafeVaultState | custodyDeficit
  | amountExceedsBacking | invalidRevision | invalidEventStatus | invalidCivilDate
  | eventUnresolved | futureEventData | unexpectedEventFactor | eventLimitReached
  | lowerRevision | revisionConflict | invalidEventRelationship | journalMismatch
  | unresolvedJournal | notMature | invalidAccumulatorCursor | arithmeticBoundExceeded
  | arithmeticOverflow | accumulationIncomplete | invalidClaimMintAuthority
  | invalidClaimFreezeAuthority | redemptionExceedsSupply | zeroOutputConsentRequired
  | invalidAccountData
  deriving DecidableEq

/-- The account checks Anchor makes before a handler runs. -/
inductive AnchorError : Type where
  | accountNotInitialized | accountAlreadyInUse | constraintHasOne | constraintSeeds
  | constraintRaw | constraintOwner
  deriving DecidableEq

/-- Why an instruction failed. -/
inductive ProgramError : Type where
  /-- an error of the program itself -/
  | custom : DividendXError → ProgramError
  /-- an account check of the framework -/
  | anchor : AnchorError → ProgramError
  /-- an error code of a token program, passed on -/
  | token : UInt32 → ProgramError
  /-- an arithmetic panic (the release profile keeps overflow checks on) -/
  | panic : ProgramError
  deriving DecidableEq

/-- The result of fallible program code. -/
abbrev Outcome (α : Type) : Type := Except ProgramError α

/-- `require!`: stop with an error of the program unless `p` holds. -/
abbrev ensure (p : Prop) [Decidable p] (e : DividendXError) : Outcome Unit :=
  Result.require p (ProgramError.custom e)

/-- `ok_or` with an error of the program. -/
abbrev orError {α : Type} (o : Option α) (e : DividendXError) : Outcome α :=
  Result.okOr o (ProgramError.custom e)

/-- `require_nonzero`. -/
def requireNonzero (value : Bytes32) (e : DividendXError) : Outcome Unit :=
  ensure (value ≠ zero32) e

end DividendX
