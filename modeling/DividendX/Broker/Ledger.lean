import DividendX.Broker.Responses

/-!
# The session ledger

`ledger.ts` of the hosted broker, as far as it computes on a ledger it has read: `normalizeLedger`,
and what `reserve`, `update`, `updateFenced` and the `charge` of sessions without a meter do inside
a transaction.

The functions that `update` and `updateFenced` are called with are named here (`Mutation`), so that
a transaction can be written down beside the write it causes.
-/

namespace DividendX

namespace Broker

open Devnet (Instant Digest)
open Result

/-! ## Capacity -/

/-- `TERMINAL_PROVIDER`. -/
def RecordedStatus.terminal : RecordedStatus → Bool
  | .reported .stopped | .reported .failed | .reported .aborted | .reported .missing | .deleted =>
    true
  | .reported .pending | .reported .running | .reported .stopping | .reported .snapshotting
  | .unknown => false

/-- `holdsCapacity`. -/
def holdsCapacity (record : SessionRecord) (now : Instant) : Bool :=
  let providerMayBeLive := record.providerStatus.any fun status => !status.terminal
  -- The provider may still run the sandbox, whatever became of the session.
  if providerMayBeLive && record.providerExpiresAt.any (isFuture · now) then true
  else if isFuture record.expiresAt now = false then false
  else if record.status = .starting ∨ record.status = .ready ∨ record.status = .resetting then true
  else record.status = .failed && !(record.providerStatus.getD .unknown).terminal

/-! ## Normalization -/

/-- The first loop of `normalizeLedger`, on one record. -/
def normalizeRecord (now : Instant) (record : SessionRecord) : SessionRecord :=
  if isFuture record.expiresAt now = false ∧ record.status ≠ .expired then
    { record with status := .expired, errorCode := some "expired" }
  else if record.status = .starting ∧ isFuture record.provisioningDeadline now = false then
    { record with status := .failed, errorCode := some "provisioning_timeout" }
  else record

/-- A record that is kept: its tombstone stands, or it still holds capacity. -/
def kept (now : Instant) (record : SessionRecord) : Bool :=
  isFuture record.tombstoneUntil now || holdsCapacity record now

/-- The sessions after `normalizeLedger`. -/
def normalizeSessions (sessions : Record SessionId SessionRecord) (now : Instant) :
    Record SessionId SessionRecord :=
  (sessions.map fun _ => normalizeRecord now).filter fun _ => kept now

/-- `normalizeLedger`; that the parts of the ledger are there is in its type. -/
def normalizeLedger (ledger : SessionLedger) (now : Instant) : Except Failure SessionLedger := do
  require (ledger.schemaVersion = 1) (plainError "invalid session ledger")
  let sessions := normalizeSessions ledger.sessions now
  let cutoff ← dateAt (now.ms - twoDays)
  return { ledger with
    sessions := sessions
    latest := ledger.latest.filter fun _ id => (sessions.get? id).isSome
    daily := ledger.daily.filter fun date _ => !(decide (date < day cutoff))
    visitorLastCreatedAt := ledger.visitorLastCreatedAt.filter fun _ createdAt =>
      !(decide (createdAt.ms ≤ now.ms - twoDays)) }

/-! ## Mutations of a record -/

/-- `terminal` of `broker.ts`. -/
def ProviderStatus.terminal : ProviderStatus → Bool
  | .stopped | .failed | .aborted | .missing => true
  | .pending | .running | .stopping | .snapshotting => false

/-- `extendTombstone`. -/
def extendTombstone (record : SessionRecord) (providerExpiresAt : Option Instant)
    (limits : Limits) :
    Except Failure SessionRecord :=
  match providerExpiresAt with
  | none => .ok record
  | some providerExpiresAt =>
    let candidate := providerExpiresAt.ms + limits.tombstoneMs
    if candidate > record.tombstoneUntil.ms then do
      let tombstoneUntil ← dateAt candidate
      return { record with tombstoneUntil := tombstoneUntil }
    else .ok record

/-- What a failed stop left to see: `observed?.status ?? 'unknown'`. -/
def observedStatus (observed : Option ProviderView) : RecordedStatus :=
  match observed with
  | some view => .reported view.status
  | none => .unknown

/-- `observed?.expiresAt ?? null`. -/
def observedExpiry (observed : Option ProviderView) : Option Instant :=
  observed.bind ProviderView.expiresAt

/-- `observed?.expiresAt ?? item.providerExpiresAt`. -/
def keptExpiry (observed : Option ProviderView) (item : SessionRecord) : Option Instant :=
  match observedExpiry observed with
  | some expiresAt => some expiresAt
  | none => item.providerExpiresAt

/-- The functions records are changed with. -/
inductive Mutation
  /-- `current` and `proxy`, of an expired session -/
  | close (stopped : Bool) (observed : Option ProviderView)
  /-- `current`, of a session that was not ready in time -/
  | timeoutStopped (stopped : Bool)
  /-- `start`, when `create` threw -/
  | createUnknown (observed : Option ProviderView)
  /-- `start`, before `launch` -/
  | launchFence (created : ProviderView)
  /-- `start`, when `launch` threw -/
  | launchUnknown
  /-- `reset`, before the sandbox of the record it read is stopped -/
  | resetting (current : SessionRecord)
  /-- `reset`, when it could not be stopped -/
  | resetFailed (observed : Option ProviderView)
  /-- `reset`, when it was stopped -/
  | resetDone
  /-- `reconcile`, when the provider reports an end -/
  | providerStopped (status : ProviderStatus)
  /-- `reconcile` and `proxy`, of a sandbox that does not run -/
  | observe (view : ProviderView)
  /-- `reconcile`, of a sandbox that runs -/
  | observeRunning (view : ProviderView)
  /-- `failClosed` -/
  | failClosed (code : String) (stopped : Bool) (observed : Option ProviderView)
  /-- `probeReady` -/
  | ready (runtimeId : String) (identity : JsonValue)
  /-- `proxy`, of a sandbox that does not run any more -/
  | gone (view : ProviderView)
  /-- `proxy`, of a guided state with the first genesis hash -/
  | pinGenesis (genesisHash : String)

namespace Mutation

/-- Change a record. -/
def apply (limits : Limits) (now : Instant) (item : SessionRecord) :
    Mutation → Except Failure SessionRecord
  | .close stopped observed =>
    extendTombstone { item with
      status := if stopped then .expired else .failed
      errorCode := some (if stopped then "expired" else "stopping")
      providerStatus := some (if stopped then .deleted else observedStatus observed)
      providerExpiresAt := keptExpiry observed item } (observedExpiry observed) limits
  | .timeoutStopped stopped =>
    .ok { item with providerStatus := some (if stopped then .deleted else .unknown) }
  | .createUnknown observed =>
    extendTombstone { item with
      status := .failed, errorCode := some "create_unknown"
      providerStatus := some (match observed with
        | some view => if view.status ≠ .missing then .reported view.status else .unknown
        | none => .unknown)
      providerExpiresAt := observedExpiry observed
      providerDomain := observed.bind ProviderView.domain } (observedExpiry observed) limits
  | .launchFence created => do
    let item ← extendTombstone { item with
      providerStatus := some (.reported created.status)
      providerExpiresAt := created.expiresAt
      providerDomain := created.domain } created.expiresAt limits
    return { item with launchAttemptedAt := some now }
  | .launchUnknown =>
    .ok { item with status := .failed, errorCode := some "launch_unknown"
                    providerStatus := some (.reported .running) }
  | .resetting _ => .ok { item with status := .resetting, errorCode := some "stopping" }
  | .resetFailed observed =>
    extendTombstone { item with
      status := .failed, errorCode := some "stopping"
      providerStatus := some (observedStatus observed)
      providerExpiresAt := keptExpiry observed item } (observedExpiry observed) limits
  | .resetDone =>
    .ok { item with status := .expired, errorCode := some "expired",
                    providerStatus := some .deleted }
  | .providerStopped status =>
    .ok { item with status := .failed, errorCode := some "provider_stopped"
                    providerStatus := some (.reported status) }
  | .observe view =>
    extendTombstone { item with
      providerStatus := some (.reported view.status)
      providerExpiresAt := view.expiresAt } view.expiresAt limits
  | .observeRunning view =>
    extendTombstone { item with
      providerStatus := some (.reported view.status), providerExpiresAt := view.expiresAt
      providerDomain := match item.providerDomain with
        | some domain => some domain
        | none => view.domain } view.expiresAt limits
  | .failClosed code stopped observed =>
    extendTombstone { item with
      status := .failed, errorCode := some code
      providerStatus := some (if stopped then .deleted else observedStatus observed)
      providerExpiresAt := keptExpiry observed item } (observedExpiry observed) limits
  | .ready runtimeId identity => do
    let item := { item with runtimeId := some runtimeId }
    let item ← match item.kind with
      | .wallet => do
        let (genesisHash, deploymentDomainHex) ← validateWalletManifest identity item
        pure { item with
          genesisHash := some genesisHash, deploymentDomainHex := some deploymentDomainHex }
      | .guided => do
        let genesisHash ← validateGuidedState identity item
        pure (match genesisHash with
          | some genesisHash => { item with genesisHash := some genesisHash }
          | none => item)
    return { item with status := .ready, errorCode := none }
  | .gone view =>
    .ok { item with
      status := if view.status.terminal then .failed else .expired
      errorCode := some (if view.status.terminal then "provider_stopped" else "expired")
      providerStatus := some (.reported view.status) }
  | .pinGenesis genesisHash => do
    require (differs item.genesisHash genesisHash = false)
      (plainError "guided runtime identity changed")
    return { item with genesisHash := some genesisHash }

end Mutation

/-! ## Transactions -/

/-- The argument of `reserve`. -/
structure ReserveInput where
  id : SessionId
  visitorHash : Digest
  ipHash : Digest
  kind : SandboxKind
  providerName : String

/-- What a transaction asks for. -/
inductive Request
  | reserve (input : ReserveInput)
  | update (id : SessionId) (mutation : Mutation)
  | updateFenced (id : SessionId) (allowed : List StoredSessionStatus) (requireLatest : Bool)
      (mutation : Mutation)
  | charge (id : SessionId) (visitorHash : Digest) (kind : SandboxKind) (mutationCount : Nat)

/-- What it returns: a copy of the record, and whether it was created or the change applied. -/
structure Outcome where
  record : SessionRecord
  applied : Bool

/-- A transaction with its reading of the clock. -/
structure Transaction where
  now : Instant
  request : Request

/-- The session records of a ledger that hold capacity. -/
def activeCount (ledger : SessionLedger) (now : Instant) : Nat :=
  ledger.sessions.count fun record => holdsCapacity record now

/-- `ledger.daily[date] ??= { global: 0, visitors: {}, ips: {} }`. -/
def counterOf (ledger : SessionLedger) (date : String) : DailyCounter :=
  (ledger.daily.get? date).getD .empty

/-- The counter after one more creation. -/
def countCreation (counter : DailyCounter) (visitorHash ipHash : Digest) : DailyCounter :=
  { global := counter.global + 1
    visitors := counter.visitors.set visitorHash ((counter.visitors.get? visitorHash).getD 0 + 1)
    ips := counter.ips.set ipHash ((counter.ips.get? ipHash).getD 0 + 1) }

/-- The record `reserve` creates. -/
def newRecord (limits : Limits) (input : ReserveInput) (now : Instant) :
    Except Failure SessionRecord := do
  let provisioningDeadline ← dateAt (now.ms + limits.provisioningMs)
  let expiresAt ← dateAt (now.ms + limits.lifetimeMs)
  let tombstoneUntil ← dateAt (now.ms + (limits.lifetimeMs + limits.tombstoneMs))
  return {
    id := input.id, meterVersion := some 1, visitorHash := input.visitorHash
    ipHash := input.ipHash, kind := input.kind, providerName := input.providerName
    status := .starting, createdAt := now, provisioningDeadline := provisioningDeadline
    expiresAt := expiresAt, tombstoneUntil := tombstoneUntil, createAttemptedAt := now
    launchAttemptedAt := none, providerStatus := none, providerExpiresAt := none
    providerDomain := none, runtimeId := none, genesisHash := none, deploymentDomainHex := none
    forwardedTotal := 0, mutationTotal := 0, minuteWindow := minute now, minuteCount := 0
    errorCode := none }

/-- `reserve`, inside its transaction. -/
def SessionLedger.reserve (ledger : SessionLedger) (limits : Limits)
    (input : ReserveInput) (now : Instant) :
    Except Failure (SessionLedger × Outcome) := do
  let latest := (ledger.latest.get? (input.visitorHash, input.kind)).bind ledger.sessions.get?
  match latest.filter (holdsCapacity · now) with
  | some latest => return (ledger, ⟨latest, false⟩)
  | none => do
    require (∀ lastCreated ∈ ledger.visitorLastCreatedAt.get? input.visitorHash,
      ¬ lastCreated.ms + limits.creationCooldownMs > now.ms)
      (.ledger .cooldown "Wait before starting another sandbox.")
    require (¬ activeCount ledger now ≥ limits.active)
      (.ledger .capacity "Sandbox capacity is currently full. Try again later.")
    let counter := counterOf ledger (day now)
    require (¬ counter.global ≥ limits.dailyGlobal)
      (.ledger .globalQuota "Daily sandbox capacity is exhausted.")
    require (¬ (counter.visitors.get? input.visitorHash).getD 0 ≥ limits.dailyVisitor)
      (.ledger .visitorQuota "Your daily sandbox limit is reached.")
    require (¬ (counter.ips.get? input.ipHash).getD 0 ≥ limits.dailyIp)
      (.ledger .ipQuota "This network has reached its daily sandbox limit.")
    let record ← newRecord limits input now
    return ({ ledger with
      sessions := ledger.sessions.set record.id record
      latest := ledger.latest.set (input.visitorHash, input.kind) record.id
      visitorLastCreatedAt := ledger.visitorLastCreatedAt.set input.visitorHash now
      daily := ledger.daily.set (day now)
        (countCreation counter input.visitorHash input.ipHash) }, ⟨record, true⟩)

/-- `update`, inside its transaction. -/
def SessionLedger.update (ledger : SessionLedger) (limits : Limits)
    (id : SessionId) (mutation : Mutation)
    (now : Instant) : Except Failure (SessionLedger × Outcome) := do
  let record ← okOr (ledger.sessions.get? id)
    (.ledger .conflict "Sandbox session no longer exists.")
  let record ← mutation.apply limits now record
  return ({ ledger with sessions := ledger.sessions.set id record }, ⟨record, true⟩)

/-- `updateFenced`, inside its transaction. -/
def SessionLedger.updateFenced (ledger : SessionLedger) (limits : Limits) (id : SessionId)
    (allowed : List StoredSessionStatus) (requireLatest : Bool) (mutation : Mutation)
    (now : Instant) : Except Failure (SessionLedger × Outcome) := do
  let record ← okOr (ledger.sessions.get? id)
    (.ledger .conflict "Sandbox session no longer exists.")
  let latest := ledger.latest.get? (record.visitorHash, record.kind) = some id
  if record.status ∉ allowed ∨ (requireLatest ∧ ¬ latest)
    ∨ isFuture record.expiresAt now = false then
    -- Nothing is written, and the caller is told so.
    return (ledger, ⟨record, false⟩)
  else do
    let record ← mutation.apply limits now record
    return ({ ledger with sessions := ledger.sessions.set id record }, ⟨record, true⟩)

/-- `charge` of a session without a meter, inside its transaction. -/
def SessionLedger.charge (ledger : SessionLedger) (limits : Limits)
    (id : SessionId) (visitorHash : Digest)
    (kind : SandboxKind) (mutationCount : Nat) (now : Instant) :
    Except Failure (SessionLedger × Outcome) := do
  let unavailable := Failure.ledger .conflict "Sandbox session is not available."
  let record ← okOr (ledger.sessions.get? id) unavailable
  require (record.visitorHash = visitorHash ∧ record.kind = kind ∧ record.meterVersion = none
    ∧ ledger.latest.get? (visitorHash, kind) = some id) unavailable
  require (record.status = .ready ∧ isFuture record.expiresAt now = true)
    (.ledger .conflict "Sandbox session is not ready.")
  let window := minute now
  let minuteCount := if record.minuteWindow ≠ window then 0 else record.minuteCount
  require (¬ (record.forwardedTotal ≥ limits.requestsTotal ∨ minuteCount ≥ limits.requestsPerMinute
    ∨ record.mutationTotal + mutationCount > limits.mutationsTotal))
    (.ledger .budget "Sandbox request limit is reached.")
  let record := { record with
    minuteWindow := window, forwardedTotal := record.forwardedTotal + 1
    minuteCount := minuteCount + 1, mutationTotal := record.mutationTotal + mutationCount }
  return ({ ledger with sessions := ledger.sessions.set id record }, ⟨record, true⟩)

/-- What a request does to a normalized ledger. -/
def Request.apply (limits : Limits) (ledger : SessionLedger) (now : Instant) :
    Request → Except Failure (SessionLedger × Outcome)
  | .reserve input => ledger.reserve limits input now
  | .update id mutation => ledger.update limits id mutation now
  | .updateFenced id allowed requireLatest mutation =>
    ledger.updateFenced limits id allowed requireLatest mutation now
  | .charge id visitorHash kind mutationCount =>
    ledger.charge limits id visitorHash kind mutationCount now

/-- One attempt of `transaction`: normalize, change, count the revision. -/
def Transaction.apply (t : Transaction) (limits : Limits) (ledger : SessionLedger) :
    Except Failure (SessionLedger × Outcome) := do
  let ledger ← normalizeLedger ledger t.now
  let (ledger, outcome) ← t.request.apply limits ledger t.now
  return ({ ledger with revision := ledger.revision + 1 }, outcome)

end Broker

end DividendX
