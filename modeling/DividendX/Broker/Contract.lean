import DividendX.Devnet.Contract
import DividendX.Lib.JsonValue
import DividendX.Lib.Result

/-!
# The hosted broker

`contract.ts` of the hosted broker, with the data of `ledger.ts` and `provider.ts`: sandbox sessions
and their meters, the session ledger that is kept as one JSON document, limits and errors.

As in the devnet ledger, a stored time is an `Instant` where the source keeps the text of
`toISOString`, and a hash is kept as bytes. A session id is the 32 hexadecimal digits of 16 random
bytes; here it is the number they write.
-/

namespace DividendX

namespace Broker

open Devnet (Instant Digest)

/-! ## Sessions -/

/-- `SandboxKind`. -/
inductive SandboxKind
  | wallet
  | guided
deriving DecidableEq, Repr

/-- The text of a kind. -/
def SandboxKind.text : SandboxKind → String
  | .wallet => "wallet"
  | .guided => "guided"

/-- `StoredSessionStatus`. -/
inductive StoredSessionStatus
  | starting
  | ready
  | expired
  | failed
  | resetting
deriving DecidableEq, Repr

/-- `ProviderStatus`. -/
inductive ProviderStatus
  | pending
  | running
  | stopping
  | stopped
  | failed
  | aborted
  | snapshotting
  | missing
deriving DecidableEq, Repr

/-- What a record's `providerStatus` may hold: a status the provider reported, or one of the two
texts the broker writes itself. -/
inductive RecordedStatus
  | reported (status : ProviderStatus)
  | deleted
  | unknown
deriving DecidableEq, Repr

/-- A session id. -/
abbrev SessionId : Type := BitVec 128

/-- The 32 hexadecimal digits of a session id. -/
def SessionId.text (id : SessionId) : String :=
  String.ofList ((List.range 32).map fun i => (id.toNat >>> (4 * (31 - i)) % 16).digitChar)

/-- `SessionRecord`. -/
structure SessionRecord where
  id : SessionId
  meterVersion : Option Nat
  visitorHash : Digest
  ipHash : Digest
  kind : SandboxKind
  providerName : String
  status : StoredSessionStatus
  createdAt : Instant
  provisioningDeadline : Instant
  expiresAt : Instant
  tombstoneUntil : Instant
  createAttemptedAt : Instant
  launchAttemptedAt : Option Instant
  providerStatus : Option RecordedStatus
  providerExpiresAt : Option Instant
  providerDomain : Option String
  runtimeId : Option String
  genesisHash : Option String
  deploymentDomainHex : Option String
  forwardedTotal : Nat
  mutationTotal : Nat
  minuteWindow : String
  minuteCount : Nat
  errorCode : Option String
deriving DecidableEq

/-- `DailyCounter`. -/
structure DailyCounter where
  global : Nat
  visitors : Record Digest Nat
  ips : Record Digest Nat
deriving DecidableEq

/-- The counter of a day on which nothing was created. -/
def DailyCounter.empty : DailyCounter := ⟨0, ∅, ∅⟩

/-- `SessionLedger`. A key of `latest` is a visitor and a kind. -/
structure SessionLedger where
  schemaVersion : Nat
  revision : Nat
  sessions : Record SessionId SessionRecord
  latest : Record (Digest × SandboxKind) SessionId
  daily : Record String DailyCounter
  visitorLastCreatedAt : Record Digest Instant
deriving DecidableEq

/-- `emptyLedger`. -/
def emptyLedger : SessionLedger :=
  { schemaVersion := 1, revision := 0, sessions := ∅, latest := ∅, daily := ∅
    visitorLastCreatedAt := ∅ }

/-- `SessionMeter`; its schema version is always 1. -/
structure SessionMeter where
  id : SessionId
  visitorHash : Digest
  kind : SandboxKind
  providerName : String
  runtimeId : String
  expiresAt : Instant
  opened : Bool
  forwardedTotal : Nat
  mutationTotal : Nat
  minuteWindow : String
  minuteCount : Nat
deriving DecidableEq

/-- `Limits`. -/
structure Limits where
  active : Nat
  dailyGlobal : Nat
  dailyVisitor : Nat
  dailyIp : Nat
  creationCooldownMs : Nat
  lifetimeMs : Nat
  provisioningMs : Nat
  tombstoneMs : Nat
  requestsTotal : Nat
  requestsPerMinute : Nat
  mutationsTotal : Nat

/-- `DEFAULT_LIMITS`. -/
def defaultLimits : Limits :=
  { active := 16, dailyGlobal := 500, dailyVisitor := 6, dailyIp := 30
    creationCooldownMs := 30_000, lifetimeMs := 15 * 60_000, provisioningMs := 90_000
    tombstoneMs := 24 * 60 * 60_000, requestsTotal := 2_000, requestsPerMinute := 240
    mutationsTotal := 120 }

/-- `MAX_REQUEST_BYTES`. -/
def maxRequestBytes : Nat := 262_144

/-- `PROGRAM_ID`. -/
def programId : String := "2EpQ2iKz921Ce2rremdnFrqG15DQq3Y2rSXbgixceDQE"

/-- `PUBLIC_GENESIS_HASHES`. -/
def publicGenesisHashes : List String :=
  ["EtWTRABZaYq6iMfeYKouRu166VU2xqa1wcaWoxPkrZBG", "5eykt4UsFv8P8NJdTREpY1vzqKqZKvdpKuc147dw2N9d",
    "4uhcVJyU9pJkvQyS88uRDiswHXSCkY3zQawwpjk2NsNY"]

/-! ## The provider -/

/-- `ProviderView`. -/
structure ProviderView where
  name : String
  status : ProviderStatus
  expiresAt : Option Instant
  domain : Option String
deriving DecidableEq

/-- The argument of `create`. -/
structure CreateInput where
  name : String
  kind : SandboxKind
  token : String
  expiresAt : Instant
deriving DecidableEq

/-! ## Errors -/

/-- The codes of `LedgerFailure`. -/
inductive LedgerCode
  | capacity
  | globalQuota
  | visitorQuota
  | ipQuota
  | cooldown
  | conflict
  | busy
  | budget
deriving DecidableEq, Repr

/-- What an awaited call may throw: a `LedgerFailure`, an `HttpFailure`, or anything else. -/
inductive Failure
  | ledger (code : LedgerCode) (message : String)
  | http (status : Nat) (message : String) (retryAfter : Option Nat)
  | other (text : String)
deriving DecidableEq, Repr

/-- `meterUnavailable()`. -/
def meterUnavailable : Failure := .ledger .busy "Sandbox meter is unavailable. Try again later."

/-! ## Times -/

/-- `day`. -/
def day (date : Instant) : String := Devnet.utcDay date

/-- `minute`. -/
def minute (date : Instant) : String := String.ofList (date.isoChars.take 16)

/-- `new Date(ms).toISOString()` throws on an invalid date. -/
def dateAt (ms : Int) : Except Failure Instant :=
  Result.okOr (Instant.ofMs? ms) (.other "RangeError: Invalid time value")

/-- `isFuture`. -/
def isFuture (value now : Instant) : Bool := value.ms > now.ms

/-- The 2 days after which counters and stamps are pruned. -/
def twoDays : Int := 2 * 86_400_000

/-! ## Public sessions -/

/-- `PublicSessionStatus`. -/
inductive PublicSessionStatus
  | none
  | starting
  | ready
  | expired
  | failed
deriving DecidableEq

/-- `PublicSession`. -/
structure PublicSession where
  kind : SandboxKind
  status : PublicSessionStatus
  sessionId : Option SessionId
  runtimeId : Option String
  expiresAt : Option Instant
  runtimeUrl : Option String
  error : Option String

/-- `publicError`. -/
def publicError (code : String) : String :=
  if code = "provisioning_timeout" then
    "The sandbox did not become ready in time. Reset it to try again."
  else if code = "capacity" then "Sandbox capacity is currently full. Try again later."
  else if code = "expired" then "This sandbox session has expired."
  else if code = "identity_changed" then "The sandbox identity changed and was closed."
  else if code = "stopping" then "The prior sandbox is still stopping. Try again later."
  else "The sandbox is unavailable. Reset it to try again."

/-- The public status of a stored one. -/
def StoredSessionStatus.public : StoredSessionStatus → PublicSessionStatus
  | .starting | .resetting => .starting
  | .ready => .ready
  | .expired => .expired
  | .failed => .failed

/-- `publicSession`. -/
def publicSession (record : Option SessionRecord) (kind : SandboxKind) : PublicSession :=
  match record with
  | none =>
    { kind := kind, status := .none, sessionId := none, runtimeId := none, expiresAt := none
      runtimeUrl := none, error := none }
  | some record =>
    { kind := record.kind, status := record.status.public, sessionId := some record.id
      runtimeId := record.runtimeId, expiresAt := some record.expiresAt
      runtimeUrl := if record.status = .ready then
        some ("/api/sandbox/" ++ record.kind.text ++ "/" ++ SessionId.text record.id) else none
      error := record.errorCode.bind fun code =>
        if code = "" then none else some (publicError code) }

end Broker

end DividendX
