import DividendX.Devnet.Journal

/-!
# The hosted devnet service

`HostedDevnetService` of `service.ts`: `fund` and `refreshObservations` over the durable journal,
and the machine on which any number of instances run them against one store.
-/

namespace DividendX

namespace Devnet

open Service DurableJournal

/-- An asset of the manifest, as far as the service reads it. -/
structure RegistryAsset where
  id : String
  symbol : String

/-- `RegistryManifest`, as far as the service reads it. -/
structure RegistryManifest where
  runtimeId : String
  genesisHash : String
  assets : List RegistryAsset

/-- An instance of the service: which `writeDisabled` flag is its own, its manifest, and whether
`PublicKey` takes a text as a canonical on-curve address. -/
structure HostedDevnetService where
  index : Nat
  manifest : RegistryManifest
  validOwner : String → Bool

/-- `result`. -/
def result (operation : DurableOperation) (symbol : Option String) : PublicFundingResult :=
  let signatures := (operation.attempt.map SignedAttempt.signature).toList
  match operation.state with
  | .confirmed =>
    { signatures := signatures, status := .confirmed
      message := match symbol with
        | some symbol => "Funded 10 " ++ symbol ++ " synthetic devnet test units."
        | none => "Synthetic observation refreshed."
      error := none }
  | .failed =>
    { signatures := signatures, status := .failed
      message := "The recorded devnet operation did not complete."
      error := some "The recorded transaction failed." }
  | .expired =>
    { signatures := signatures, status := .failed
      message := "The recorded devnet operation did not complete."
      error := some "The signed transaction expired unresolved; no replacement was issued." }
  | .reserved | .prepared | .submitted =>
    { signatures := signatures, status := .pending
      message := "The recorded devnet operation is pending confirmation.", error := none }

namespace HostedDevnetService

variable (service : HostedDevnetService)

/-- `this.writeDisabled = true`. -/
def disableWrites : Service Unit := ask (.disableWrites service.index)

/-- `faucetAvailable`. -/
def faucetAvailable : Service Bool := do
  let disabled ← ask (.writeDisabled service.index)
  if disabled then pure false
  else
    tryCatch (do
      let ledger ← DurableJournal.read
      let now ← ask .now
      let daily := ledger.quotaOf (utcDay now)
      pure (ledger.faucetDisabledReason = none
        ∧ ledger.faucetLifetimeLamports + faucetReservationLamports ≤ faucetLifetimeLamports
        ∧ daily.grants < faucetDailyGrants
        ∧ daily.lamports + faucetReservationLamports ≤ faucetDailyLamports : Bool))
      fun _ => do
        service.disableWrites
        pure false

/-- The end of an operation whose transaction is confirmed: does the chain show the outcome? -/
def reconcileConfirmed (operation : DurableOperation) : Service DurableOperation := do
  let verified ← call (.verifyOutcome operation) id
  if verified then transition operation.id .confirmed none
  else transition operation.id .failed (some "OUTCOME_MISMATCH")

/-- The rest of `reconcile` for a transaction the chain does not know the end of: once its blockhash
is too old, it is looked up once more and given up. -/
def reconcileUndecided (operation : DurableOperation) (attempt : SignedAttempt) :
    Service DurableOperation := do
  let height ← call .blockHeight id
  if height > attempt.lastValidBlockHeight then do
    let final ← call (.transactionStatus attempt) id
    match final.state with
    | .confirmed => reconcileConfirmed operation
    | .failed => transition operation.id .failed (some "TRANSACTION_FAILED")
    | .missing | .pending => transition operation.id .expired (some "SIGNATURE_EXPIRED")
  else pure operation

/-- `reconcile`. -/
def reconcile (operation : DurableOperation) : Service DurableOperation :=
  if operation.state.terminal then pure operation
  else match operation.attempt with
    | none => pure operation
    | some attempt => do
      let status ← call (.transactionStatus attempt) id
      match status.state with
      | .confirmed => reconcileConfirmed operation
      | .failed =>
        transition operation.id .failed (some (status.errorCode.getD "TRANSACTION_FAILED"))
      | .missing | .pending => reconcileUndecided operation attempt

/-- `acquire`, with a busy lease as no lease. -/
def acquireUnlessBusy (operation : DurableOperation) : Service (Option PreparationLease) := do
  match ← settle (acquire operation) with
  | .ok lease => pure (some lease)
  | .error .leaseBusy => pure none
  | .error e => throw e

/-- `release`, and on failure the operation as it was known; writes are then disabled. -/
def releaseOrDisable (current : DurableOperation) (lease : PreparationLease)
    (state : OperationState) (errorCode : Option String) : Service DurableOperation :=
  tryCatch (release lease (some state) errorCode) fun _ => do
    service.disableWrites
    pure current

/-- `sendExact(current.attempt!)`. -/
def sendExact (current : DurableOperation) : Service Unit :=
  match current.attempt with
  | some attempt => call (.sendExact current.id attempt) id
  | none => throw typeError

/-- `prepare` and `persistPrepared` for an operation that is still reserved. -/
def prepareReserved (current : DurableOperation) (lease : PreparationLease)
    (prepare : Service SignedAttempt) : Service DurableOperation :=
  if current.state = .reserved then do
    let attempt ← prepare
    persistPrepared current.id lease attempt
  else pure current

/-- After `sendExact`. The last `reconcile` is returned as a promise and not awaited here, so what
it throws is not caught by `execute`. -/
def afterSend (current : DurableOperation) (lease : PreparationLease)
    (sent : Except Failure Unit) : Service (Service DurableOperation) :=
  match sent with
  | .error e =>
    if (e.serviceError?.map ServiceError.code) = some "SIGNATURE_MISMATCH" then do
      let operation ← service.releaseOrDisable current lease .failed (some "SIGNATURE_MISMATCH")
      pure (pure operation)
    else do
      let operation ← service.releaseOrDisable current lease .submitted
        (some "SUBMISSION_UNCERTAIN")
      pure (pure operation)
  | .ok () => do
    match ← settle (release lease (some .submitted) none) with
    | .ok operation => pure (reconcile operation)
    | .error _ => do
      service.disableWrites
      pure (pure current)

/-- The body of `execute` under its lease. -/
def submit (current : DurableOperation) (lease : PreparationLease)
    (prepare : Service SignedAttempt) :
    Service (Service DurableOperation) := do
  let current ← prepareReserved current lease prepare
  call (.verifyPrepared current) id
  assertSendFence current.id lease
  let sent ← settle (sendExact current)
  service.afterSend current lease sent

/-- `error.code.startsWith('IDENTITY_') || error.code === 'INSUFFICIENT_BALANCE'`. -/
def disabling (code : String) : Bool :=
  "IDENTITY_".isPrefixOf code || code == "INSUFFICIENT_BALANCE"

/-- The `catch` of `execute`. -/
def abandon (current : DurableOperation) (lease : PreparationLease) (e : Failure) :
    Service (Service DurableOperation) := do
  -- The lease is given back whatever was thrown.
  tryCatch (do
      let _ ← release lease none none
      pure ())
    fun _ => service.disableWrites
  match e.serviceError? with
  | some error =>
    if current.kind = .faucet ∧ disabling error.code then do
      service.disableWrites
      tryCatch (disableFaucet error.code) fun _ => pure ()
      throw e
    else throw e
  | none => throw e

/-- `execute`. -/
def execute (operation : DurableOperation) (prepare : Service SignedAttempt) :
    Service DurableOperation := do
  let current ← reconcile operation
  if current.state.terminal then pure current
  else do
    match ← acquireUnlessBusy current with
    | none => pure current
    | some lease => do
      let promise ← tryCatch (service.submit current lease prepare)
        fun e => service.abandon current lease e
      promise

/-- `fund`. -/
def fund (request : FaucetRequest) (visitorHash ipHash : Digest) : Service PublicFundingResult := do
  let disabled ← ask (.writeDisabled service.index)
  if disabled then
    throw (.service ⟨503, "The test faucet is disabled.", "FAUCET_DISABLED", none⟩)
  else if request.runtimeId ≠ service.manifest.runtimeId
      ∨ request.genesisHash ≠ service.manifest.genesisHash then
    throw (.service ⟨409, "runtime identity is stale", "STALE_RUNTIME", none⟩)
  else match service.manifest.assets.find? fun candidate => candidate.id == request.assetId with
    | none => throw (.service ⟨400, "assetId is invalid", "ASSET_INVALID", none⟩)
    | some asset =>
      if service.validOwner request.owner = false then
        throw (.service ⟨400, "owner is invalid", "OWNER_INVALID", none⟩)
      else do
        let operation ← tryCatch (do
            let operation ← reserveGrant request.owner request.assetId visitorHash ipHash
            service.execute operation
              (call (.prepareFaucet request operation.reservationLamports) id))
          fun e => match e.serviceError? with
            | some _ => throw e
            | none => do
              service.disableWrites
              throw e
        pure (result operation (some asset.symbol))

/-- One turn of the loop of `refreshObservations`. -/
def refreshObservation (asset : RegistryAsset) : Service PublicFundingResult := do
  let operation ← reserveObservation asset.id
  let completed ← service.execute operation
    (call (.prepareObservation asset.id operation.reservationLamports) id)
  pure (result completed none)

/-- The loop of `refreshObservations`. -/
def refreshAssets : List RegistryAsset → Service (List PublicFundingResult)
  | [] => pure []
  | asset :: rest => do
    match ← settle (service.refreshObservation asset) with
    | .error e =>
      pure [{ signatures := [], status := .failed
              message := "Observation refresh stopped before this asset completed."
              error := some
                ((e.serviceError?.map ServiceError.code).getD "OBSERVATION_REFRESH_FAILED") }]
    | .ok value =>
      if value.status = .failed then pure [value]
      else do
        let values ← refreshAssets rest
        pure (value :: values)

/-- `refreshObservations`. -/
def refreshObservations : Service (List PublicFundingResult) :=
  service.refreshAssets service.manifest.assets

end HostedDevnetService

/-! ## Any number of instances over one store -/

/-- The store and the `writeDisabled` flag of every instance. -/
structure World where
  store : CasStore Change HostedDevnetLedger
  writeDisabled : Nat → Bool

/-- The ledger in the store. -/
def World.ledger (w : World) : HostedDevnetLedger := CasStore.content emptyLedger w.store.cell

/-- How a call may be answered. The clock, the chain and the source of random ids may answer
anything; so may leases expire at any time. -/
inductive Answers : (c : Call) → World → Answer c → World → Prop
  | now {w : World} (t : Instant) : Answers .now w t w
  | randomUUID {w : World} (holder : String) : Answers .randomUUID w holder w
  | writeDisabled {w : World} {service : Nat} :
      Answers (.writeDisabled service) w (w.writeDisabled service) w
  | disableWrites {w : World} {service : Nat} : Answers (.disableWrites service) w ()
      { w with writeDisabled := Function.update w.writeDisabled service true }
  | read {w : World} : Answers .read w (.ok w.store.cell) w
  | readFails {w : World} (e : Failure) : Answers .read w (.error e) w
  | put {w : World} {p : Put Change HostedDevnetLedger} {x : Except Failure Bool}
      {store : CasStore Change HostedDevnetLedger} : w.store.Puts p x store →
      Answers (.put p) w x { w with store := store }
  | prepareFaucet {w : World} {request : FaucetRequest} {lamports : Nat}
      (x : Except Failure SignedAttempt) : Answers (.prepareFaucet request lamports) w x w
  | prepareObservation {w : World} {assetId : String} {lamports : Nat}
      (x : Except Failure SignedAttempt) : Answers (.prepareObservation assetId lamports) w x w
  | verifyPrepared {w : World} {operation : DurableOperation} (x : Except Failure Unit) :
      Answers (.verifyPrepared operation) w x w
  | sendExact {w : World} {operationId : OperationId} {attempt : SignedAttempt}
      (x : Except Failure Unit) : Answers (.sendExact operationId attempt) w x w
  | transactionStatus {w : World} {attempt : SignedAttempt} (x : Except Failure TransactionStatus) :
      Answers (.transactionStatus attempt) w x w
  | blockHeight {w : World} (x : Except Failure Nat) : Answers .blockHeight w x w
  | verifyOutcome {w : World} {operation : DurableOperation} (x : Except Failure Bool) :
      Answers (.verifyOutcome operation) w x w

/-- A write in flight takes effect late. -/
inductive Drifts : Put Change HostedDevnetLedger → World → World → Prop
  | lands {w : World} {p : Put Change HostedDevnetLedger}
      {store : CasStore Change HostedDevnetLedger} :
      w.store.Lands p store → Drifts p w { w with store := store }

/-- What may be started at any time, by any instance: the service's methods, and the journal's
reservations on their own. -/
inductive Starts : Async Call Answer Unit → Prop
  | fund (service : HostedDevnetService) (request : FaucetRequest) (visitorHash ipHash : Digest) :
      Starts (service.fund request visitorHash ipHash).run.forget
  | refreshObservations (service : HostedDevnetService) :
      Starts service.refreshObservations.run.forget
  | faucetAvailable (service : HostedDevnetService) : Starts service.faucetAvailable.run.forget
  | reserveGrant (owner assetId : String) (visitorHash ipHash : Digest) :
      Starts (reserveGrant owner assetId visitorHash ipHash).run.forget
  | reserveObservation (assetId : String) : Starts (reserveObservation assetId).run.forget

/-- The hosted devnet service. -/
def machine : Machine World Call Answer (Put Change HostedDevnetLedger) := ⟨Answers, Drifts, Starts⟩

/-- The store is empty and nothing runs. -/
def start : Site World Call Answer := ⟨⟨⟨none, []⟩, fun _ => false⟩, []⟩

/-! ## One program on its own -/

/-- What the environment says in a run without failures; the store answers for itself. -/
inductive Reply
  | time (t : Instant)
  | uuid (holder : String)
  | flag
  | store
  | attempt (a : SignedAttempt)
  | done
  | status (status : TransactionStatus)
  | height (n : Nat)
  | verified (b : Bool)

/-- The answer to a call and the world after it. -/
def World.answer (w : World) : (c : Call) → Reply → Option (Answer c × World)
  | .now, .time t => some (t, w)
  | .randomUUID, .uuid holder => some (holder, w)
  | .writeDisabled service, .flag => some (w.writeDisabled service, w)
  | .disableWrites service, .flag =>
    some ((), { w with writeDisabled := Function.update w.writeDisabled service true })
  | .read, .store => some (.ok w.store.cell, w)
  | .put p, .store =>
    if p.expected = CasStore.etag w.store.cell then
      some (.ok true, { w with store := w.store.write p })
    else some (.ok false, w)
  | .prepareFaucet _ _, .attempt a => some (.ok a, w)
  | .prepareObservation _ _, .attempt a => some (.ok a, w)
  | .verifyPrepared _, .done => some (.ok (), w)
  | .sendExact _ _, .done => some (.ok (), w)
  | .transactionStatus _, .status status => some (.ok status, w)
  | .blockHeight, .height n => some (.ok n, w)
  | .verifyOutcome _, .verified b => some (.ok b, w)
  | _, _ => none

theorem answers_of_answer {w w' : World} {c : Call} {r : Reply} {x : Answer c}
    (h : w.answer c r = some (x, w')) : Answers c w x w' := by
  cases c <;> cases r <;> simp only [World.answer, reduceCtorEq, Option.some.injEq,
    Prod.mk.injEq] at h
  case put.store p =>
    split at h
    · rename_i heq
      simp only [Option.some.injEq, Prod.mk.injEq] at h
      obtain ⟨rfl, rfl⟩ := h
      exact .put (.saved heq)
    · simp only [Option.some.injEq, Prod.mk.injEq] at h
      obtain ⟨rfl, rfl⟩ := h
      exact .put .refused
  case disableWrites.flag =>
    obtain ⟨-, rfl⟩ := h
    exact .disableWrites
  all_goals
    obtain ⟨rfl, rfl⟩ := h
    constructor

/-- Run one program as far as the replies go. -/
def play : List Reply → World → Async Call Answer Unit → Option (World × Async Call Answer Unit)
  | [], w, p => some (w, p)
  | _ :: _, _, .done _ => none
  | r :: rs, w, .await c k => (w.answer c r).bind fun (x, w') => play rs w' (k x)

/-- Running one program is a run of the machine. -/
theorem steps_of_play {w w' : World} {p p' : Async Call Answer Unit} {rs : List Reply}
    (h : play rs w p = some (w', p')) : machine.Steps ⟨w, [p]⟩ ⟨w', [p']⟩ := by
  induction rs generalizing w p with
  | nil =>
    cases h
    exact .refl
  | cons r rs ih =>
    cases p with
    | done u => cases h
    | await c k =>
      rw [play, Option.bind_eq_some_iff] at h
      obtain ⟨⟨x, w₁⟩, hanswer, hrest⟩ := h
      have hstep : machine.Step ⟨w, [] ++ .await c k :: []⟩ (.answered c x) ⟨w₁, [] ++ k x :: []⟩ :=
        .answer (answers_of_answer hanswer)
      exact .head ⟨_, hstep⟩ (ih hrest)

/-- A program that may be started, run from an empty store. -/
theorem steps_of_start {w : World} {p p' : Async Call Answer Unit} {rs : List Reply}
    (hstart : Starts p) (h : play rs start.world p = some (w, p')) :
    machine.Steps start ⟨w, [p']⟩ :=
  .head ⟨.started, .start hstart⟩ (steps_of_play h)

namespace Sample

/-- Noon on 18 September 2026. -/
def noon : Instant := ⟨1_789_732_800_000, Instant.noon_valid⟩

/-- A signed attempt. -/
def attempt : SignedAttempt :=
  { signature := "5Sig", blockhash := "9hash", lastValidBlockHeight := 100
    serializedTransactionBase64 := "c2lnbmVk", preparedAt := "2026-09-18T12:00:00.000Z"
    intent := (∅ : Record String String).set "operation" "faucet" }

/-- An instance with one asset. -/
def service : HostedDevnetService :=
  { index := 0, manifest := ⟨"runtime", "genesis", [⟨"asset", "TEST"⟩]⟩,
    validOwner := fun _ => true }

/-- A request for that asset. -/
def request : FaucetRequest := ⟨"owner", "asset", "runtime", "genesis"⟩

/-- The digest of a visitor and of its address. -/
def digest : Digest := List.Vector.replicate 32 7

end Sample

end Devnet

end DividendX
