import DividendX.Lib.Record
import DividendX.Lib.Sha256

/-!
# The hosted devnet ledger

`contract.ts` and `errors.ts` of the hosted devnet service: budgets, operations, leases and the
ledger that the service keeps as one JSON document.

Where the source keeps a time as the text of `toISOString`, the model keeps the time value itself
(`Instant`); the text is `Instant.toISOString`. Digests are kept as bytes, and an operation id as
the digest in it, whose text is `OperationId.text`.
-/

namespace DividendX

namespace Devnet

/-! ## Budgets -/

def faucetReservationLamports : Nat := 9_000_000
def faucetDailyGrants : Nat := 30
def faucetDailyLamports : Nat := 270_000_000
def faucetLifetimeLamports : Nat := 1_000_000_000
def visitorDailyGrants : Nat := 3
def ipDailyGrants : Nat := 12
def observationReservationLamports : Nat := 10_000
def observationLifetimeLamports : Nat := 10_000_000
def preparationLeaseMs : Int := 45_000

/-- `Number.MAX_SAFE_INTEGER`. -/
def maxSafeInteger : Nat := 2 ^ 53 - 1

/-! ## Times -/

/-- A time value of `Date`: milliseconds since the epoch, within the range of valid dates. -/
structure Instant where
  ms : Int
  valid : -8_640_000_000_000_000 ≤ ms ∧ ms ≤ 8_640_000_000_000_000
deriving DecidableEq, Repr

namespace Instant

/-- Noon on 18 September 2026 is a valid date. -/
theorem noon_valid : (-8_640_000_000_000_000 : Int) ≤ 1_789_732_800_000
    ∧ (1_789_732_800_000 : Int) ≤ 8_640_000_000_000_000 := by decide

/-- `new Date(ms)`, when it is a valid date. -/
def ofMs? (ms : Int) : Option Instant :=
  if h : -8_640_000_000_000_000 ≤ ms ∧ ms ≤ 8_640_000_000_000_000 then some ⟨ms, h⟩ else none

/-- Year, month and day of a day counted from the epoch. -/
def civil (days : Int) : Int × Nat × Nat :=
  let z := days + 719_468
  let era := z / 146_097
  let doe := (z % 146_097).toNat
  let yoe := (doe - doe / 1_460 + doe / 36_524 - doe / 146_096) / 365
  let doy := doe - (365 * yoe + yoe / 4 - yoe / 100)
  let mp := (5 * doy + 2) / 153
  let day := doy - (153 * mp + 2) / 5 + 1
  let month := if mp < 10 then mp + 3 else mp - 9
  (yoe + era * 400 + (if month ≤ 2 then 1 else 0), month, day)

/-- The last `width` decimal digits of a number. -/
def digits : Nat → Nat → List Char
  | 0, _ => []
  | width + 1, n => digits width (n / 10) ++ [Char.ofNat (48 + n % 10)]

/-- The year, with sign and six digits when four do not do. -/
def yearText (year : Int) : List Char :=
  if 0 ≤ year ∧ year ≤ 9_999 then digits 4 year.toNat
  else (if year < 0 then '-' else '+') :: digits 6 year.natAbs

/-- The characters of `toISOString`. -/
def isoChars (t : Instant) : List Char :=
  let (year, month, day) := civil (t.ms / 86_400_000)
  let ms := (t.ms % 86_400_000).toNat
  yearText year ++ '-' :: digits 2 month ++ '-' :: digits 2 day
    ++ 'T' :: digits 2 (ms / 3_600_000) ++ ':' :: digits 2 (ms / 60_000 % 60)
    ++ ':' :: digits 2 (ms / 1_000 % 60) ++ '.' :: digits 3 (ms % 1_000) ++ ['Z']

/-- `toISOString`. -/
def toISOString (t : Instant) : String := String.ofList t.isoChars

end Instant

/-- `utcDay`. -/
def utcDay (now : Instant) : String := String.ofList (now.isoChars.take 10)

/-- The six hours of an observation bucket. -/
def sixHours : Int := 6 * 60 * 60_000

/-- `observationBucket`: the start of the six hours that `now` is in. The range of valid dates
starts at such a start. -/
def observationBucket (now : Instant) : Instant :=
  ⟨now.ms / sixHours * sixHours, by
    have h := now.valid
    unfold sixHours
    omega⟩

/-! ## Errors -/

/-- `ServiceError`. -/
structure ServiceError where
  status : Nat
  message : String
  code : String
  retryAfter : Option Nat
deriving DecidableEq, Repr

/-- What an awaited call may throw: an error of the service, its subclass `LeaseBusyError`, a
failure of the store with its code, or anything else. -/
inductive Failure
  | service (e : ServiceError)
  | leaseBusy
  | store (code : String)
  | other (text : String)
deriving DecidableEq, Repr

/-- `error instanceof ServiceError`. -/
def Failure.serviceError? : Failure → Option ServiceError
  | .service e => some e
  | .leaseBusy => some ⟨429, "funding preparation is busy", "LEASE_BUSY", some 2⟩
  | .store _ => none
  | .other _ => none

/-! ## Operations -/

/-- `digest('hex')`, as the bytes it writes. -/
abbrev Digest : Type := List.Vector UInt8 32

/-- `OperationKind`. -/
inductive OperationKind
  | faucet
  | observation
deriving DecidableEq, Repr

/-- `OperationState`. -/
inductive OperationState
  | reserved
  | prepared
  | submitted
  | confirmed
  | failed
  | expired
deriving DecidableEq, Repr

namespace OperationState

/-- `['confirmed', 'failed', 'expired'].includes(state)`. -/
def terminal : OperationState → Bool
  | .confirmed | .failed | .expired => true
  | .reserved | .prepared | .submitted => false

/-- `['prepared', 'submitted'].includes(state)`. -/
def signed : OperationState → Bool
  | .prepared | .submitted => true
  | .reserved | .confirmed | .failed | .expired => false

end OperationState

/-- The id of an operation, by the digest in it. -/
inductive OperationId
  | grant (digest : Digest)
  | observation (digest : Digest)
deriving DecidableEq

/-- `SignedAttempt`. -/
structure SignedAttempt where
  signature : String
  blockhash : String
  lastValidBlockHeight : Nat
  serializedTransactionBase64 : String
  preparedAt : String
  intent : Record String String
deriving DecidableEq

/-- `DurableOperation`. -/
structure DurableOperation where
  id : OperationId
  kind : OperationKind
  state : OperationState
  reservationLamports : Nat
  createdAt : Instant
  day : String
  owner : Option String
  assetId : String
  visitorHash : Option Digest
  ipHash : Option Digest
  bucket : Option Instant
  fence : Option Nat
  attempt : Option SignedAttempt
  submittedAt : Option Instant
  completedAt : Option Instant
  errorCode : Option String
deriving DecidableEq

/-- `PreparationLease`. -/
structure PreparationLease where
  operationId : OperationId
  holder : String
  fence : Nat
  expiresAt : Instant
deriving DecidableEq

/-- `DailyQuota`. -/
structure DailyQuota where
  grants : Nat
  lamports : Nat
  visitors : Record Digest Nat
  ips : Record Digest Nat
deriving DecidableEq

/-- The quota of a day nothing was granted on. -/
def DailyQuota.empty : DailyQuota := ⟨0, 0, ∅, ∅⟩

/-- The two leases. -/
structure Leases where
  faucet : Option PreparationLease
  observation : Option PreparationLease
deriving DecidableEq

namespace Leases

/-- `leases[kind]`. -/
def get (l : Leases) : OperationKind → Option PreparationLease
  | .faucet => l.faucet
  | .observation => l.observation

/-- `leases[kind] = lease`. -/
def set (l : Leases) (kind : OperationKind) (lease : Option PreparationLease) : Leases :=
  match kind with
  | .faucet => { l with faucet := lease }
  | .observation => { l with observation := lease }

@[simp] theorem get_set (l : Leases) (k j : OperationKind) (lease : Option PreparationLease) :
    (l.set k lease).get j = if j = k then lease else l.get j := by
  cases k <;> cases j <;> rfl

end Leases

/-- `HostedDevnetLedger`. -/
structure HostedDevnetLedger where
  schemaVersion : Nat
  revision : Nat
  nextFence : Nat
  faucetDisabledReason : Option String
  faucetLifetimeLamports : Nat
  observationLifetimeLamports : Nat
  daily : Record String DailyQuota
  leases : Leases
  operations : Record OperationId DurableOperation
deriving DecidableEq

/-- `emptyLedger`. -/
def emptyLedger : HostedDevnetLedger :=
  { schemaVersion := 1, revision := 0, nextFence := 0, faucetDisabledReason := none
    faucetLifetimeLamports := 0, observationLifetimeLamports := 0
    daily := ∅, leases := ⟨none, none⟩, operations := ∅ }

/-- `grantOperationId`: the digest of day, owner and asset, each ended by a zero byte. -/
def grantOperationId (owner assetId day : String) : OperationId :=
  .grant (Sha256.hash (day ++ "\x00" ++ owner ++ "\x00" ++ assetId).toUTF8.toList)

/-- `observationOperationId`: the digest of bucket and asset. -/
def observationOperationId (assetId : String) (bucket : Instant) : OperationId :=
  .observation (Sha256.hash (bucket.toISOString ++ "\x00" ++ assetId).toUTF8.toList)

/-- `FaucetRequest`. -/
structure FaucetRequest where
  owner : String
  assetId : String
  runtimeId : String
  genesisHash : String

/-- The state of a `TransactionStatus`. -/
inductive TransactionState
  | missing
  | pending
  | confirmed
  | failed
deriving DecidableEq

/-- `TransactionStatus`. -/
structure TransactionStatus where
  state : TransactionState
  errorCode : Option String

/-- The status of a `PublicFundingResult`. -/
inductive FundingStatus
  | pending
  | confirmed
  | failed
deriving DecidableEq

/-- `PublicFundingResult`. -/
structure PublicFundingResult where
  signatures : List String
  status : FundingStatus
  message : String
  error : Option String

example : (Instant.ofMs? 1_789_689_600_000).map utcDay = some "2026-09-18" := by decide +kernel

end Devnet

end DividendX
