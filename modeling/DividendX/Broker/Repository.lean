import DividendX.Broker.Ledger
import DividendX.Lib.Async
import DividendX.Lib.CasStore

/-!
# The session ledger repository

`SessionLedgerRepository` of `ledger.ts`: programs that await the clock and the store. The session
ledger is one document, every meter is another. Between any two awaits other calls may write.

A call to the store is answered by the register or throws; a write that threw may still take effect
later. The pause between two attempts is not a call here: it does nothing.
-/

namespace DividendX

namespace Broker

open Devnet (Instant Digest maxSafeInteger)
open Result Async

/-! ## Meters -/

/-- What a write does to a meter. -/
inductive MeterChange
  | create
  | charge (now : Instant) (mutationCount : Nat)
  | close
deriving DecidableEq

/-- `/^\d{4}-\d{2}-\d{2}T\d{2}:\d{2}$/`. -/
def isMinuteWindow (s : String) : Bool :=
  match s.toList with
  | [y₁, y₂, y₃, y₄, '-', m₁, m₂, '-', d₁, d₂, 'T', h₁, h₂, ':', n₁, n₂] =>
    [y₁, y₂, y₃, y₄, m₁, m₂, d₁, d₂, h₁, h₂, n₁, n₂].all Char.isDigit
  | _ => false

/-- `validMeter`; the rest of it is in the type of a meter. -/
def validMeter (meter : SessionMeter) : Bool :=
  meter.providerName ≠ "" && meter.runtimeId ≠ "" && meter.forwardedTotal ≤ maxSafeInteger
    && meter.mutationTotal ≤ maxSafeInteger && isMinuteWindow meter.minuteWindow
    && meter.minuteCount ≤ maxSafeInteger

/-- `meterBindingMatches`. -/
def meterBindingMatches (meter : SessionMeter) (record : SessionRecord)
    (runtimeId : Option String) :
    Bool :=
  meter.id = record.id && meter.visitorHash = record.visitorHash && meter.kind = record.kind
    && meter.providerName = record.providerName && some meter.runtimeId = runtimeId
    && meter.expiresAt = record.expiresAt

/-- The meter `initializeMeter` creates. -/
def newMeter (record : SessionRecord) (runtimeId : String) (now : Instant) : SessionMeter :=
  { id := record.id, visitorHash := record.visitorHash, kind := record.kind
    providerName := record.providerName, runtimeId := runtimeId, expiresAt := record.expiresAt
    opened := true, forwardedTotal := 0, mutationTotal := 0, minuteWindow := minute now
    minuteCount := 0 }

/-- The meter after a charge. -/
def chargeMeter (limits : Limits) (meter : SessionMeter) (now : Instant) (mutationCount : Nat) :
    Except Failure SessionMeter := do
  require (isFuture meter.expiresAt now = true) (.ledger .conflict "Sandbox session has expired.")
  let window := minute now
  let minuteCount := if meter.minuteWindow ≠ window then 0 else meter.minuteCount
  require (¬ (meter.forwardedTotal ≥ limits.requestsTotal ∨ minuteCount ≥ limits.requestsPerMinute
    ∨ meter.mutationTotal + mutationCount > limits.mutationsTotal))
    (.ledger .budget "Sandbox request limit is reached.")
  return { meter with
    minuteWindow := window, forwardedTotal := meter.forwardedTotal + 1
    minuteCount := minuteCount + 1, mutationTotal := meter.mutationTotal + mutationCount }

/-! ## Calls -/

/-- A request to a sandbox: the session it is made for, whether it is a client's request that is
passed on, and what is sent where. -/
structure ProviderRequest where
  record : SessionRecord
  forwarded : Bool
  domain : String
  method : HttpMethod
  path : String
  token : String
  body : Option RequestBody

/-- The head of a response. -/
structure Response where
  status : Nat
deriving DecidableEq

/-- `response.ok`. -/
def Response.ok (response : Response) : Bool := 200 ≤ response.status && response.status ≤ 299

/-- What the broker awaits: clocks, random ids, the store, the provider and the sandboxes. A call to
`create` is two calls here, one when it is made and one when it is answered. -/
inductive Call
  | now
  | dateNow
  | newSessionId
  | readLedger
  | putLedger (p : Put Transaction SessionLedger)
  | readMeter (id : SessionId)
  | putMeter (id : SessionId) (p : Put MeterChange SessionMeter)
  | requestCreate (input : CreateInput)
  | create (input : CreateInput)
  | launch (name : String)
  | get (name : String)
  | stopAndDelete (name : String)
  | fetch (request : ProviderRequest)
  | boundedJson (response : Response)

/-- The answers; calls that may be rejected are answered with the failure. -/
abbrev Answer : Call → Type
  | .now => Instant
  | .dateNow => Int
  | .newSessionId => SessionId
  | .readLedger => Except Failure (Option (Versioned SessionLedger))
  | .putLedger _ => Except Failure Bool
  | .readMeter _ => Except Failure (Option (Versioned SessionMeter))
  | .putMeter _ _ => Except Failure Bool
  | .requestCreate _ => Unit
  | .create _ => Except Failure ProviderView
  | .launch _ => Except Failure Unit
  | .get _ => Except Failure ProviderView
  | .stopAndDelete _ => Except Failure Unit
  | .fetch _ => Except Failure Response
  | .boundedJson _ => Except Failure JsonValue

/-- An `async` function of the broker. -/
abbrev Promise : Type → Type := ExceptT Failure (Async Call Answer)

/-- The parts of `BrokerDependencies` that are values: the limits, the names and tokens that are
derived from the secret, and whether `URL` leaves a path on a domain as it is. -/
structure Deps where
  limits : Limits
  providerName : SessionId → String
  gatewayToken : SessionId → String
  validRoute : String → String → Bool

/-! ## The ledger document -/

/-- `transaction`, for a number of attempts. -/
def transactionLoop (limits : Limits) (request : Request) : Nat → Promise Outcome
  | 0 => throw (.ledger .busy "Session service is busy. Try again.")
  | attempts + 1 => do
    let current ← call .readLedger id
    let now ← ask .now
    let (ledger, outcome) ← sync
      (Transaction.apply ⟨now, request⟩ limits (CasStore.content emptyLedger current))
    let saved ← call (.putLedger ⟨⟨now, request⟩, CasStore.etag current, ledger⟩) id
    if saved then pure outcome else transactionLoop limits request attempts

/-- `transaction`. -/
def transaction (limits : Limits) (request : Request) : Promise Outcome :=
  transactionLoop limits request 12

/-- `update`. -/
def Deps.update (deps : Deps) (id : SessionId) (mutation : Mutation) : Promise SessionRecord := do
  let outcome ← transaction deps.limits (.update id mutation)
  pure outcome.record

/-- `updateFenced`. -/
def Deps.updateFenced (deps : Deps) (id : SessionId) (allowed : List StoredSessionStatus)
    (requireLatest : Bool) (mutation : Mutation) : Promise Outcome :=
  transaction deps.limits (.updateFenced id allowed requireLatest mutation)

/-- `reserve`. -/
def Deps.reserve (deps : Deps) (input : ReserveInput) : Promise Outcome :=
  transaction deps.limits (.reserve input)

/-- The ledger as it is, normalized; none when there is no document. -/
def readNormalized : Promise (Option (SessionLedger × Instant)) := do
  match ← call .readLedger id with
  | none => pure none
  | some current => do
    let now ← ask .now
    let ledger ← sync (normalizeLedger current.value now)
    pure (some (ledger, now))

/-- `current`. -/
def currentRecord (visitorHash : Digest) (kind : SandboxKind) : Promise (Option SessionRecord) := do
  match ← readNormalized with
  | none => pure none
  | some (ledger, _) => pure ((ledger.latest.get? (visitorHash, kind)).bind ledger.sessions.get?)

/-- `byId`. -/
def byId (id : SessionId) : Promise (Option SessionRecord) := do
  match ← readNormalized with
  | none => pure none
  | some (ledger, _) => pure (ledger.sessions.get? id)

/-! ## Meter documents -/

/-- `readMeter`. -/
def readMeter (id : SessionId) : Promise (Option SessionMeter) := do
  match ← call (.readMeter id) fun x => x with
  | none => pure none
  | some current => do
    sync (require (validMeter current.value ∧ current.value.id = id) meterUnavailable)
    pure (some current.value)

/-- A meter that is there, bound to the record and open. -/
def openMeter (record : SessionRecord) (runtimeId : Option String) (meter : Option SessionMeter) :
    Except Failure Unit :=
  require (meter.any fun m => meterBindingMatches m record runtimeId && m.opened) meterUnavailable

/-- `initializeMeter`. -/
def initializeMeter (record : SessionRecord) (runtimeId : String) : Promise Unit := do
  sync (require (record.meterVersion = some 1 ∧ record.status = .starting ∧ runtimeId ≠ "")
    meterUnavailable)
  let now ← ask .now
  let saved ← call (.putMeter record.id ⟨.create, none, newMeter record runtimeId now⟩) id
  if saved then pure ()
  else do
    let existing ← readMeter record.id
    sync (openMeter record (some runtimeId) existing)

/-- The loop of `closeMeter`. -/
def closeLoop (record : SessionRecord) : Nat → Promise Unit
  | 0 => throw meterUnavailable
  | attempts + 1 => do
    let current ← call (.readMeter record.id) id
    let meter ← sync (okOr ((current.map Versioned.value).filter fun m =>
      validMeter m && meterBindingMatches m record record.runtimeId) meterUnavailable)
    if meter.opened = false then pure ()
    else do
      let saved ← call (.putMeter record.id
        ⟨.close, CasStore.etag current, { meter with opened := false }⟩) id
      if saved then pure () else closeLoop record attempts

/-- `!runtimeId`: it is missing or empty. -/
def noRuntime (record : SessionRecord) : Bool := record.runtimeId.getD "" = ""

/-- `closeMeter`. -/
def closeMeter (record : SessionRecord) : Promise Unit :=
  match record.meterVersion with
  | none => pure ()
  | some meterVersion => do
    sync (require (meterVersion = 1 ∧ noRuntime record = false) meterUnavailable)
    closeLoop record 12

/-- The end of the checks of `assertForwardable` and `forwardableById`: the meter of the session. -/
def assertMeter (record : SessionRecord) : Promise Unit :=
  match record.meterVersion with
  | none => pure ()
  | some meterVersion => do
    sync (require (meterVersion = 1) meterUnavailable)
    let meter ← readMeter record.id
    sync (openMeter record record.runtimeId meter)

/-- `assertForwardable`. -/
def assertForwardable (record : SessionRecord) : Promise SessionRecord := do
  let unavailable := Failure.ledger .conflict "Sandbox session is not available."
  match ← readNormalized with
  | none => throw unavailable
  | some (ledger, now) => do
    let latest ← sync (okOr (ledger.sessions.get? record.id) unavailable)
    sync (require (ledger.latest.get? (record.visitorHash, record.kind) = some record.id
      ∧ latest.visitorHash = record.visitorHash ∧ latest.kind = record.kind
      ∧ latest.providerName = record.providerName ∧ latest.runtimeId = record.runtimeId
      ∧ latest.expiresAt = record.expiresAt ∧ latest.meterVersion = record.meterVersion
      ∧ latest.status = .ready ∧ isFuture latest.expiresAt now = true) unavailable)
    assertMeter latest
    pure latest

/-- `assertMeterForwardable`. -/
def assertMeterForwardable (record : SessionRecord) : Promise Unit := do
  let unavailable := Failure.ledger .conflict "Sandbox session is not available."
  sync (require (record.meterVersion = some 1 ∧ noRuntime record = false) unavailable)
  let now ← ask .now
  sync (require (isFuture record.expiresAt now = true) unavailable)
  let meter ← readMeter record.id
  sync (openMeter record record.runtimeId meter)

/-- `forwardableById`. -/
def forwardableById (id : SessionId) (visitorHash : Digest) (kind : SandboxKind) :
    Promise SessionRecord := do
  let unavailable := Failure.ledger .conflict "Sandbox session is not available."
  match ← readNormalized with
  | none => throw unavailable
  | some (ledger, now) => do
    let record ← sync (okOr (ledger.sessions.get? id) unavailable)
    sync (require (record.visitorHash = visitorHash ∧ record.kind = kind
      ∧ ledger.latest.get? (visitorHash, kind) = some id ∧ record.status = .ready
      ∧ isFuture record.expiresAt now = true ∧ noRuntime record = false) unavailable)
    assertMeter record
    pure record

/-- The loop of `charge`. -/
def chargeLoop (limits : Limits) (snapshot : SessionRecord) (id : SessionId) (mutationCount : Nat) :
    Nat → Promise SessionRecord
  | 0 => throw meterUnavailable
  | attempts + 1 => do
    let current ← call (.readMeter id) fun x => x
    let meter ← sync (okOr ((current.map Versioned.value).filter fun m =>
      validMeter m && meterBindingMatches m snapshot snapshot.runtimeId
        && m.opened) meterUnavailable)
    let now ← ask .now
    let charged ← sync (chargeMeter limits meter now mutationCount)
    let saved ← call (.putMeter id ⟨.charge now mutationCount, CasStore.etag current, charged⟩)
      fun x => x
    if saved then pure snapshot else chargeLoop limits snapshot id mutationCount attempts

/-- `charge`. -/
def Deps.charge (deps : Deps) (id : SessionId) (visitorHash : Digest) (kind : SandboxKind)
    (mutationCount : Nat) : Promise SessionRecord := do
  sync (require (mutationCount ≤ maxSafeInteger)
    (.ledger .budget "Sandbox request limit is reached."))
  let snapshot ← forwardableById id visitorHash kind
  match snapshot.meterVersion with
  | some meterVersion => do
    sync (require (meterVersion = 1) meterUnavailable)
    chargeLoop deps.limits snapshot id mutationCount 12
  | none => do
    let outcome ← transaction deps.limits (.charge id visitorHash kind mutationCount)
    pure outcome.record

end Broker

end DividendX
