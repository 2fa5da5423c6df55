import DividendX.Broker.Repository

/-!
# The session broker

`HostedSessionBroker` of `broker.ts`: `current`, `start`, `reset` and `proxy`, with what they share
(`reconcile`, `pollReady`, `probeReady`, `failClosed`).

The wait of `pollReady` ends by the clock of the machine it runs on. Here it is given a number of
turns at most; a wait that is cut short only returns earlier.
-/

namespace DividendX

namespace Broker

open Devnet (Instant Digest)
open Result Async

/-! ## Shared parts -/

/-- `future`. -/
def future (value : Option Instant) : Promise Bool :=
  match value with
  | none => pure false
  | some value => do
    let now ← ask .now
    pure (isFuture value now)

/-- `providerViewChanged`. -/
def providerViewChanged (record : SessionRecord) (view : ProviderView) : Bool :=
  record.providerStatus ≠ some (.reported view.status) || record.providerExpiresAt ≠ view.expiresAt
    || (view.status = .running && record.providerDomain ≠ view.domain)

/-- `!view.domain || (record.providerDomain && record.providerDomain !== view.domain)`, else the
domain. -/
def endpoint (record : SessionRecord) (view : ProviderView) : Option String :=
  view.domain.filter fun domain => domain ≠ "" && !differs record.providerDomain domain

/-- `providerRequest`; a request on behalf of a client is marked as passed on. -/
def Deps.providerRequest (deps : Deps) (record : SessionRecord) (view : ProviderView)
    (forwarded : Bool)
    (method : HttpMethod) (path : String) (body : Option RequestBody) : Promise Response := do
  let domain ← sync
    (okOr (endpoint record view) (.http 503 "Sandbox endpoint is unavailable." none))
  sync (require (deps.validRoute domain path = true) (plainError "invalid fixed provider route"))
  call (.fetch ⟨record, forwarded, domain, method, path, deps.gatewayToken record.id, body⟩) id

/-- `if (record.meterVersion === 1 && record.runtimeId) await closeMeter(record)`. -/
def closeMeterOf (record : SessionRecord) : Promise Unit :=
  if record.meterVersion = some 1 ∧ noRuntime record = false then closeMeter record else pure ()

/-- `provider.get`, with a failure as nothing seen. -/
def observe (name : String) : Promise (Option ProviderView) := do
  match ← settle (call (.get name) id) with
  | .ok view => pure (some view)
  | .error _ => pure none

/-- `stopAndDelete`, and what there is to see when it failed. -/
def stopOrObserve (name : String) : Promise (Bool × Option ProviderView) := do
  match ← settle (call (.stopAndDelete name) id) with
  | .ok _ => pure (true, none)
  | .error _ => do
    let observed ← observe name
    pure (false, observed)

/-- `failClosed`. -/
def Deps.failClosed {α : Type} (deps : Deps) (record : SessionRecord)
    (code : String) : Promise α := do
  let _ ← settle (closeMeterOf record)
  let (stopped, observed) ← stopOrObserve record.providerName
  let _ ← deps.updateFenced record.id [.ready, .starting] true (.failClosed code stopped observed)
  throw (.http 503 "Sandbox identity verification failed." none)

/-- The requests of `probeReady`: the runtime id the gateway reports and the identity of the
runtime, if both are there. -/
def Deps.probe (deps : Deps) (record : SessionRecord) (view : ProviderView) :
    Promise (Option (String × JsonValue)) := do
  let response ← deps.providerRequest record view false .get "/health" none
  if response.ok = false then pure none
  else do
    let value ← call (.boundedJson response) id
    let runtimeId ← sync (validateHealth value record)
    let path := match record.kind with
      | .wallet => "/manifest"
      | .guided => "/state"
    let identityResponse ← deps.providerRequest record view false .get path none
    if identityResponse.ok = false then pure none
    else do
      let identity ← call (.boundedJson identityResponse) id
      pure (some (runtimeId, identity))

/-- `probeReady`. -/
def Deps.probeReady (deps : Deps) (record : SessionRecord) (view : ProviderView) :
    Promise SessionRecord :=
  tryCatch (do
    match ← deps.probe record view with
    | none => pure record
    | some (runtimeId, identity) => do
      -- The meter is there before the session can be charged.
      if record.meterVersion = some 1 then initializeMeter record runtimeId
      let transition ← deps.updateFenced record.id [.starting] true (.ready runtimeId identity)
      pure transition.record)
    fun _ => pure record

/-- The end of `reconcile`, of a sandbox that runs. -/
def Deps.reconcileRunning (deps : Deps) (record : SessionRecord) (view : ProviderView) :
    Promise SessionRecord := do
  if endpoint record view = none then deps.failClosed record "identity_changed"
  else do
    let updated ←
      if providerViewChanged record view then deps.update record.id (.observeRunning view)
      else pure record
    if updated.status = .starting ∧ updated.launchAttemptedAt ≠ none then
      deps.probeReady updated view
    else pure updated

/-- `providerStatus === null || providerStatus === 'unknown'`. -/
def unseen (record : SessionRecord) : Bool :=
  record.providerStatus = none || record.providerStatus = some .unknown

/-- `reconcile`. -/
def Deps.reconcile (deps : Deps) (record : SessionRecord) : Promise SessionRecord := do
  match ← observe record.providerName with
  | none => pure record
  | some view => do
    -- A creation may still be on its way, so not finding it proves nothing.
    if view.status = .missing ∧ unseen record = true then pure record
    else if view.status.terminal then do
      closeMeterOf record
      deps.update record.id (.providerStopped view.status)
    else do
      let running ← if view.status = .running then future view.expiresAt else pure false
      if running = false then
        if providerViewChanged record view then deps.update record.id (.observe view)
        else pure record
      else deps.reconcileRunning record view

/-- The loop of `pollReady`. -/
def Deps.pollLoop (deps : Deps) (provisioningDeadline : Instant) (deadline : Int) :
    Nat → SessionRecord → Promise SessionRecord
  | 0, latest => pure latest
  | turns + 1, latest => do
    let date ← ask .dateNow
    if date < deadline then do
      let now : Instant ← ask Call.now
      if now.ms < provisioningDeadline.ms then do
        let latest ← deps.reconcile latest
        if latest.status ≠ .starting then pure latest
        else deps.pollLoop provisioningDeadline deadline turns latest
      else pure latest
    else pure latest

/-- `pollReady`. -/
def Deps.pollReady (deps : Deps) (turns : Nat) (record : SessionRecord) (durationMs : Int) :
    Promise SessionRecord := do
  let date ← ask .dateNow
  deps.pollLoop record.provisioningDeadline (date + durationMs) turns record

/-! ## Methods -/

/-- What `current` and `proxy` do with a session that is past its end. -/
def Deps.closeExpired (deps : Deps) (record : SessionRecord) : Promise SessionRecord := do
  let (stopped, observed) ← stopOrObserve record.providerName
  deps.update record.id (.close stopped observed)

/-- A session that was not ready in time although the provider was seen to make it. -/
def timedOut (record : SessionRecord) : Bool :=
  record.status = .failed && record.errorCode = some "provisioning_timeout" && !unseen record

/-- `current`. -/
def Deps.current (deps : Deps) (visitorHash : Digest) (kind : SandboxKind) :
    Promise PublicSession := do
  match ← currentRecord visitorHash kind with
  | none => pure (publicSession none kind)
  | some record => do
    let unexpired ← future (some record.expiresAt)
    if unexpired = false then do
      closeMeterOf record
      let record ← deps.closeExpired record
      pure (publicSession (some record) kind)
    else do
      let record ← if timedOut record then do
          let stopped ← settle (call (.stopAndDelete record.providerName) id)
          deps.update record.id (.timeoutStopped stopped.isOk)
        else pure record
      let record ← if record.status = .starting ∨ record.status = .ready then deps.reconcile record
        else pure record
      pure (publicSession (some record) kind)

/-- `start`, from the answer of `create` on. -/
def Deps.launch (deps : Deps) (turns : Nat) (id : SessionId) (created : ProviderView) :
    Promise SessionRecord := do
  let launchFence ← deps.updateFenced id [.starting] true (.launchFence created)
  -- The session was given up while the sandbox was created, which then goes with it.
  if launchFence.applied = false then do
    let _ ← settle (call (.stopAndDelete created.name) fun x => x)
    pure launchFence.record
  else
    match ← settle (call (.launch created.name) fun x => x) with
    | .error _ => deps.update id .launchUnknown
    | .ok _ => deps.pollReady turns launchFence.record 8_000

/-- `start`, of a session it has reserved. -/
def Deps.create (deps : Deps) (turns : Nat) (id : SessionId) (kind : SandboxKind)
    (reserved : SessionRecord) : Promise SessionRecord := do
  let input : CreateInput :=
    ⟨reserved.providerName, kind, deps.gatewayToken id, reserved.expiresAt⟩
  let _ ← ask (Call.requestCreate input)
  match ← settle (call (.create input) fun x => x) with
  | .error _ => do
    let observed ← observe reserved.providerName
    deps.update id (.createUnknown observed)
  | .ok created => deps.launch turns id created

/-- `start`. -/
def Deps.start (deps : Deps) (turns : Nat) (visitorHash ipHash : Digest) (kind : SandboxKind)
    (expectedSessionId : Option SessionId) : Promise PublicSession := do
  let current ← currentRecord visitorHash kind
  sync (require (expectedSessionId = none ∨ current.map SessionRecord.id = expectedSessionId)
    (.http 409 "Session changed; refresh before starting." none))
  let id ← ask .newSessionId
  let reserved ← deps.reserve ⟨id, visitorHash, ipHash, kind, deps.providerName id⟩
  -- A session in use was there already and is shown instead.
  if reserved.applied = false then do
    let existing ← if reserved.record.status = .starting ∨ reserved.record.status = .ready then
        deps.reconcile reserved.record
      else pure reserved.record
    pure (publicSession (some existing) kind)
  else do
    let record ← deps.create turns id kind reserved.record
    pure (publicSession (some record) kind)

/-- The check of `reset` that no creation is under way. -/
def creationSettled (current : SessionRecord) : Promise Bool :=
  if current.status = .starting then pure false
  else if current.status = .failed ∧ current.providerStatus = some .unknown then do
    let now ← ask .now
    pure (holdsCapacity current now = false)
  else pure true

/-- `reset`. -/
def Deps.reset (deps : Deps) (turns : Nat) (visitorHash ipHash : Digest) (kind : SandboxKind)
    (expectedSessionId : Option SessionId) : Promise PublicSession := do
  let changed := Failure.http 409 "Session changed; refresh before resetting." none
  let current ← currentRecord visitorHash kind
  let current ← sync (okOr current changed)
  sync (require (expectedSessionId = some current.id) changed)
  let settled ← creationSettled current
  sync (require (settled = true)
    (.http 503 "Sandbox creation is still being reconciled. Try again later." (some 15)))
  let now : Instant ← ask Call.now
  sync (require (¬ current.createdAt.ms + deps.limits.creationCooldownMs > now.ms)
    (.http 429 "Wait before resetting this sandbox." (some 30)))
  closeMeterOf current
  let _ ← deps.update current.id (.resetting current)
  match ← stopOrObserve current.providerName with
  | (false, observed) => do
    let failed ← deps.update current.id (.resetFailed observed)
    pure (publicSession (some failed) kind)
  | (true, _) => do
    let _ ← deps.update current.id .resetDone
    deps.start turns visitorHash ipHash kind (some current.id)

/-! ## The proxy -/

/-- A request of a client. -/
structure ClientRequest where
  visitorHash : Digest
  kind : SandboxKind
  id : SessionId
  method : HttpMethod
  route : Route
  body : Option RequestBody

/-- The checks of `proxy` before it charges: the number of mutations asked for. -/
def ClientRequest.mutationCount (request : ClientRequest) : Except Failure Nat := do
  require (sessionRoute request.kind request.route = some request.method)
    (.http 404 "route not found" none)
  require (∀ body ∈ request.body, ¬ body.byteLength > maxRequestBytes)
    (.http 413 "Request body is too large." none)
  match request.method, request.body with
  | .get, _ => return 0
  | .post, none => .error (.http 400 "Request body is required." none)
  | .post, some body =>
    if request.kind = .wallet ∧ request.route = .rpc then validateRpc body else return 1

/-- `proxy`, when the session could not be charged. -/
def Deps.refuse (deps : Deps) (request : ClientRequest) (error : Failure) :
    Promise SessionRecord := do
  match error with
  | .ledger .conflict _ => do
    match ← byId request.id with
    | none => throw (.http 404 "route not found" none)
    | some record => do
      sync (require (record.visitorHash = request.visitorHash) (.http 404 "route not found" none))
      let unexpired ← future (some record.expiresAt)
      if unexpired = false then do
        let _ ← deps.closeExpired record
      throw (.http 410 "Sandbox session has expired." none)
  | error => throw error

/-- `proxy`, up to the request it passes on: the view of a sandbox that runs, of a session that may
be used. -/
def Deps.forwardable (deps : Deps) (request : ClientRequest) (charged : SessionRecord) :
    Promise ProviderView := do
  match ← observe charged.providerName with
  | none => throw (.http 503 "Sandbox provider is temporarily unavailable." none)
  | some view => do
    if view.status = .pending ∨ view.status = .snapshotting then do
      let _ ← deps.update request.id (.observe view)
      throw (.http 503 "Sandbox is temporarily unavailable." (some 5))
    let running ← if view.status = .running then future view.expiresAt else pure false
    if running = false then do
      closeMeterOf charged
      let _ ← deps.update request.id (.gone view)
      throw (.http 410 "Sandbox session has expired." none)
    if charged.meterVersion = some 1 then do
      assertMeterForwardable charged
      if request.method = .post then do
        let _ ← assertForwardable charged
    else do
      let _ ← assertForwardable charged
    pure view

/-- What `proxy` returns. -/
structure ProxyResult where
  status : Nat
  value : JsonValue

/-- `!text`: it is missing or empty. -/
def absent (text : Option String) : Bool := text.getD "" = ""

/-- The end of `proxy`: the response of a session is checked against its identity. -/
def Deps.respond (deps : Deps) (request : ClientRequest) (charged : SessionRecord)
    (response : Response)
    (value : JsonValue) : Promise ProxyResult := do
  let status := if response.status ∈ knownUpstreamStatus then response.status else 502
  if response.ok = false then pure ⟨status, cleanError value⟩
  else match request.kind, request.route with
    | .wallet, .manifest =>
      match validateWalletManifest value charged with
      | .ok _ => pure ⟨status, cleanManifest value charged request.id⟩
      | .error _ => deps.failClosed charged "identity_changed"
    | .guided, .state => do
      let checked ← settle (do
        match ← sync (validateGuidedState value charged) with
        | none => pure ()
        | some genesisHash =>
          -- The source tests for a falsy hash: an empty one is replaced like a missing one.
          if absent charged.genesisHash then do
            let _ ← deps.update request.id (.pinGenesis genesisHash)
          else pure ())
      match checked with
      | .ok _ => pure ⟨status, cleanGuided request.id value⟩
      | .error _ => deps.failClosed charged "identity_changed"
    | .guided, .receipt => do
      sync (object value)
      match value.get? "runtimeId" with
      | none => pure ⟨status, cleanGuided request.id value⟩
      | some runtimeId =>
        if JsonValue.string? (some runtimeId) = charged.runtimeId then
          pure ⟨status, cleanGuided request.id value⟩
        else deps.failClosed charged "identity_changed"
    | .guided, _ => pure ⟨status, cleanGuided request.id value⟩
    | .wallet, _ => pure ⟨status, value⟩

/-- `proxy`. -/
def Deps.proxy (deps : Deps) (request : ClientRequest) : Promise ProxyResult := do
  let mutationCount ← sync request.mutationCount
  let charged ← tryCatch (deps.charge request.id request.visitorHash request.kind mutationCount)
    (deps.refuse request)
  let view ← deps.forwardable request charged
  let response ← tryCatch
    (deps.providerRequest charged view true request.method request.route.path request.body)
    fun error => match error with
      | .http status message retryAfter => throw (.http status message retryAfter)
      | _ => throw (.http 503 "Sandbox is temporarily unavailable." none)
  let value ← call (.boundedJson response) id
  deps.respond request charged response value

end Broker

end DividendX
