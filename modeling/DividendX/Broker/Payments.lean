import DividendX.Broker.Sessions
import DividendX.Lib.Monitor

/-!
# One charge for one request

What the calls of the broker pay for, read off the calls a program makes. `charge` writes until one
write is not refused and stops there, so a call of it charges at most once; only `proxy` passes
requests on, one at most, and only after its charge was saved. Everything else neither charges nor
passes anything on.
-/

namespace DividendX

namespace Broker

open Devnet (Instant Digest)
open Result Async

/-- How far a call has come: its charge is not written yet, it was saved in a meter or in the
ledger, or nothing more is to come, since the write was lost or the request was passed on. -/
inductive Standing
  | unpaid
  | paid (metered : Bool)
  | over
deriving DecidableEq

/-- The session and the number of mutations of a call that charges, and whether it charges a
meter. -/
def Call.charge? : Call → Option (SessionId × Nat × Bool)
  | .putMeter id p => match p.change with
    | .charge _ mutationCount => some (id, mutationCount, true)
    | .create | .close => none
  | .putLedger p => match p.change.request with
    | .charge id _ _ mutationCount => some (id, mutationCount, false)
    | .reserve _ | .update _ _ | .updateFenced _ _ _ _ => none
  | _ => none

/-- A client's request that is passed on. -/
def Call.forwards : Call → Bool
  | .fetch request => request.forwarded
  | _ => false

/-- What an answer to a write says. -/
def Standing.written (standing : Standing) (metered : Bool) : Except Failure Bool → Standing
  | .ok true => .paid metered
  | .ok false => standing
  | .error _ => .over

/-- The standing after an answer. -/
def Standing.next (standing : Standing) : (c : Call) → Answer c → Standing
  | .putMeter _ p, (x : Except Failure Bool) => match p.change with
    | .charge _ _ => standing.written true x
    | .create | .close => standing
  | .putLedger p, (x : Except Failure Bool) => match p.change.request with
    | .charge _ _ _ _ => standing.written false x
    | .reserve _ | .update _ _ | .updateFenced _ _ _ _ => standing
  | .fetch request, _ => if request.forwarded then .over else standing
  | _, _ => standing

/-- Watches what a call may charge, and that it charges and passes on once. -/
def payments (charge : Option (SessionId × Nat)) : Monitor Standing Call Answer where
  may standing c :=
    (∀ id mutationCount metered, c.charge? = some (id, mutationCount, metered) →
      standing = .unpaid ∧ charge = some (id, mutationCount))
    ∧ (c.forwards = true → ∃ metered, standing = .paid metered)
  next := Standing.next

/-- The answer to a charge. -/
def chargeAnswer : (c : Call) → Answer c → Option (Except Failure Bool)
  | .putMeter _ p, (x : Except Failure Bool) => match p.change with
    | .charge _ _ => some x
    | .create | .close => none
  | .putLedger p, (x : Except Failure Bool) => match p.change.request with
    | .charge _ _ _ _ => some x
    | .reserve _ | .update _ _ | .updateFenced _ _ _ _ => none
  | _, _ => none

/-- A write that was not refused took effect, or may still do so. -/
def unrefused : Except Failure Bool → Bool
  | .ok saved => saved
  | .error _ => true

/-- A write that is known to have taken effect. -/
def saved : Except Failure Bool → Bool
  | .ok saved => saved
  | .error _ => false

/-- A call that neither charges nor passes on. -/
structure Call.Quiet (c : Call) : Prop where
  charge : c.charge? = none
  forwards : c.forwards = false

variable {charge : Option (SessionId × Nat)} {standing : Standing}
    {c : Call} {deps : Deps} {α : Type}

/-- A call that neither charges nor passes anything on may be made at any standing. -/
theorem Call.Quiet.may (h : c.Quiet) : (payments charge).may standing c := by
  refine ⟨fun id mutationCount metered hc => ?_, fun hf => ?_⟩
  · rw [h.charge] at hc
    cases hc
  · rw [h.forwards] at hf
    cases hf

/-- Its answer changes no standing. -/
theorem Call.Quiet.next (h : c.Quiet) (x : Answer c) :
    (payments charge).next standing c x = standing := by
  obtain ⟨hcharge, hforwards⟩ := h
  cases c with
  | putMeter id p =>
    cases hp : p.change with
    | charge now mutationCount => simp [Call.charge?, hp] at hcharge
    | create | close => simp [payments, Standing.next, hp]
  | putLedger p =>
    cases hp : p.change.request with
    | charge id visitorHash kind mutationCount => simp [Call.charge?, hp] at hcharge
    | reserve | update | updateFenced => simp [payments, Standing.next, hp]
  | fetch request =>
    have hforwarded : request.forwarded = false := hforwards
    simp [payments, Standing.next, hforwarded]
  | _ => rfl

/-- A program of one such call keeps the standing. -/
theorem keeps_call {g : Answer c → Except Failure α} (h : c.Quiet) :
    (payments charge).Keeps standing (call c g) :=
  .call h.may h.next

theorem keeps_ask (h : c.Quiet) : (payments charge).Keeps standing (ask c : Promise (Answer c)) :=
  .ask h.may h.next

/-- **One call under the monitor**: it changes nothing, it is the charge, or it is passed on. -/
theorem Standing.next_cases (h : (payments charge).may standing c) (x : Answer c) :
    (chargeAnswer c x = none ∧ c.forwards = false ∧ standing.next c x = standing)
    ∨ (∃ id mutationCount metered y, c.charge? = some (id, mutationCount, metered)
        ∧ charge = some (id, mutationCount) ∧ chargeAnswer c x = some y ∧ c.forwards = false
        ∧ standing = .unpaid ∧ standing.next c x = standing.written metered y)
    ∨ (chargeAnswer c x = none ∧ c.forwards = true ∧ (∃ metered, standing = .paid metered)
        ∧ standing.next c x = .over) := by
  obtain ⟨hcharge, hforwards⟩ := h
  cases c with
  | putMeter id p =>
    cases hp : p.change with
    | charge now mutationCount =>
      have hc : (Call.putMeter id p).charge? = some (id, mutationCount, true) := by
        simp [Call.charge?, hp]
      obtain ⟨hunpaid, hinput⟩ := hcharge _ _ _ hc
      exact .inr
        (.inl ⟨id, mutationCount, true, x, hc, hinput, by simp [chargeAnswer, hp], rfl, hunpaid,
        by simp [Standing.next, hp]⟩)
    | create | close => exact .inl ⟨by simp [chargeAnswer, hp], rfl, by simp [Standing.next, hp]⟩
  | putLedger p =>
    cases hp : p.change.request with
    | charge id visitorHash kind mutationCount =>
      have hc : (Call.putLedger p).charge? = some (id, mutationCount, false) := by
        simp [Call.charge?, hp]
      obtain ⟨hunpaid, hinput⟩ := hcharge _ _ _ hc
      exact .inr
        (.inl ⟨id, mutationCount, false, x, hc, hinput, by simp [chargeAnswer, hp], rfl, hunpaid,
        by simp [Standing.next, hp]⟩)
    | reserve | update | updateFenced =>
      exact .inl ⟨by simp [chargeAnswer, hp], rfl, by simp [Standing.next, hp]⟩
  | fetch request =>
    cases hf : request.forwarded with
    | true => exact .inr (.inr ⟨rfl, hf, hforwards hf, by simp [Standing.next, hf]⟩)
    | false => exact .inl ⟨rfl, hf, by simp [Standing.next, hf]⟩
  | _ => exact .inl ⟨rfl, rfl, rfl⟩

/-- The calls of a trace. -/
abbrev Trace : Type := List (Σ c, Answer c)

/-- The charges of a trace with an answer that passes a test. -/
def Trace.charges (tr : Trace) (test : Except Failure Bool → Bool) : Nat :=
  tr.countP fun entry => (chargeAnswer entry.1 entry.2).any test

/-- The requests of a trace that were passed on. -/
def Trace.forwards (tr : Trace) : Nat := tr.countP fun entry => entry.1.forwards

/-- **A call charges once at most**, and passes on what it has paid for. -/
theorem counts_of_accepts {tr : Trace} (h : (payments charge).Accepts standing tr) :
    tr.charges unrefused ≤ (if standing = .unpaid then 1 else 0)
      ∧ tr.forwards ≤ tr.charges saved
        + (if standing = .unpaid ∨ standing = .over then 0 else 1) := by
  induction tr generalizing standing with
  | nil => simp [Trace.charges, Trace.forwards]
  | cons entry tr ih =>
    obtain ⟨c, x⟩ := entry
    obtain ⟨hmay, hrest⟩ := h
    have hrec := ih hrest
    simp only [Trace.charges, Trace.forwards, List.countP_cons] at hrec ⊢
    rcases Standing.next_cases hmay x with ⟨hanswer, hforwards, hnext⟩ |
      ⟨id, mutationCount, metered, y, -, -, hanswer, hforwards, hunpaid, hnext⟩ |
      ⟨hanswer, hforwards, ⟨metered, hpaid⟩, hnext⟩
    · rw [show (payments charge).next standing c x = standing from hnext] at hrec
      simpa [hanswer, hforwards] using hrec
    · subst hunpaid
      rw [show (payments charge).next .unpaid c x = Standing.written .unpaid metered y from hnext]
        at hrec
      -- refused: as before; saved or lost: nothing more is charged
      rcases y with e | saved'
      · simpa [hanswer, hforwards, Standing.written, unrefused, saved] using hrec
      · cases saved' with
        | false => simpa [hanswer, hforwards, Standing.written, unrefused, saved] using hrec
        | true => simpa [hanswer, hforwards, Standing.written, unrefused, saved] using hrec
    · subst hpaid
      rw [show (payments charge).next (.paid metered) c x = .over from hnext] at hrec
      simpa [hanswer, hforwards] using hrec

/-- A charge of a meter. -/
theorem Call.charge?_metered {id : SessionId} {mutationCount : Nat}
    (h : c.charge? = some (id, mutationCount, true)) :
    ∃ p now, c = .putMeter id p ∧ p.change = .charge now mutationCount := by
  cases c with
  | putMeter id' p =>
    cases hp : p.change with
    | charge now n =>
      simp only [Call.charge?, hp, Option.some.injEq, Prod.mk.injEq, and_true] at h
      exact ⟨p, now, by rw [h.1], by rw [h.2] at hp; exact hp⟩
    | create | close => simp [Call.charge?, hp] at h
  | putLedger p => cases hp : p.change.request <;> simp [Call.charge?, hp] at h
  | _ => cases h

/-- Where the charge is paid by a meter, its write was saved. -/
theorem saved_of_paid {tr : Trace} (h : (payments charge).Accepts standing tr)
    (hne : standing ≠ .paid true)
    (hafter : (payments charge).after standing tr = .paid true) :
    ∃ id mutationCount p now, charge = some (id, mutationCount)
      ∧ p.change = .charge now mutationCount
      ∧ (⟨.putMeter id p, .ok true⟩ : Σ c, Answer c) ∈ tr := by
  induction tr generalizing standing with
  | nil => exact absurd hafter hne
  | cons entry tr ih =>
    obtain ⟨c, x⟩ := entry
    obtain ⟨hmay, hrest⟩ := h
    have hlater : standing.next c x ≠ .paid true → ∃ id mutationCount p now,
        charge = some (id, mutationCount) ∧ p.change = .charge now mutationCount
        ∧ (⟨.putMeter id p, .ok true⟩ : Σ c, Answer c) ∈ (⟨c, x⟩ :: tr : Trace) := by
      intro hnext
      obtain ⟨id, mutationCount, p, now, hinput, hchange, hmem⟩ := ih hrest hnext hafter
      exact ⟨id, mutationCount, p, now, hinput, hchange, List.mem_cons_of_mem _ hmem⟩
    rcases Standing.next_cases hmay x with ⟨-, -, hnext⟩ |
      ⟨id, mutationCount, metered, y, hcharge, hinput, hanswer, -, -, hnext⟩ | ⟨-, -, -, hnext⟩
    · exact hlater (by rw [hnext]; exact hne)
    · by_cases hpaid : standing.next c x = .paid true
      · rw [hnext] at hpaid
        -- this is the write
        rcases y with e | saved'
        · cases hpaid
        · cases saved' with
          | false => exact absurd hpaid hne
          | true =>
            cases hpaid
            obtain ⟨p, now, rfl, hchange⟩ := Call.charge?_metered hcharge
            simp only [chargeAnswer, hchange, Option.some.injEq] at hanswer
            subst hanswer
            exact ⟨id, mutationCount, p, now, hinput, hchange, List.mem_cons_self⟩
      · exact hlater hpaid
    · exact hlater (by rw [hnext]; nofun)

/-! ## The repository -/

/-- Any number of attempts at a transaction that is no charge. -/
theorem keeps_transactionLoop {limits : Limits} {request : Request}
    (h : ∀ p : Put Transaction SessionLedger, p.change.request = request →
      (Call.putLedger p).charge? = none)
    (attempts : Nat) : (payments charge).Keeps standing
    (transactionLoop limits request attempts) := by
  induction attempts with
  | zero => exact .throw _
  | succ attempts ih =>
    refine (keeps_call ⟨rfl, rfl⟩).bind fun current => (keeps_ask ⟨rfl, rfl⟩).bind fun now => ?_
    refine (Monitor.Keeps.sync _).bind fun ⟨ledger, outcome⟩ => ?_
    exact (keeps_call ⟨h _ rfl, rfl⟩).bind fun saved => .ite (.pure _) ih

theorem keeps_update {id : SessionId} {mutation : Mutation} :
    (payments charge).Keeps standing (deps.update id mutation) := by
  refine (keeps_transactionLoop (fun p hp => ?_) 12).bind fun _ => .pure _
  simp [Call.charge?, hp]

theorem keeps_updateFenced {id : SessionId} {allowed : List StoredSessionStatus}
    {requireLatest : Bool}
    {mutation : Mutation} : (payments charge).Keeps standing
    (deps.updateFenced id allowed requireLatest mutation) := by
  refine keeps_transactionLoop (fun p hp => ?_) 12
  simp [Call.charge?, hp]

theorem keeps_reserve {input : ReserveInput} :
    (payments charge).Keeps standing (deps.reserve input) := by
  refine keeps_transactionLoop (fun p hp => ?_) 12
  simp [Call.charge?, hp]

theorem keeps_readNormalized : (payments charge).Keeps standing readNormalized := by
  refine (keeps_call ⟨rfl, rfl⟩).bind fun current => ?_
  cases current with
  | none => exact .pure _
  | some current =>
    exact (keeps_ask ⟨rfl, rfl⟩).bind fun now => (Monitor.Keeps.sync _).bind fun _ => .pure _

theorem keeps_currentRecord {visitorHash : Digest} {kind : SandboxKind} :
    (payments charge).Keeps standing (currentRecord visitorHash kind) := by
  refine keeps_readNormalized.bind fun result => ?_
  cases result with
  | none => exact .pure _
  | some result => exact .pure _

theorem keeps_byId {id : SessionId} : (payments charge).Keeps standing (byId id) := by
  refine keeps_readNormalized.bind fun result => ?_
  cases result with
  | none => exact .pure _
  | some result => exact .pure _

theorem keeps_readMeter {id : SessionId} : (payments charge).Keeps standing (readMeter id) := by
  refine (keeps_call ⟨rfl, rfl⟩).bind fun current => ?_
  cases current with
  | none => exact .pure _
  | some current => exact (Monitor.Keeps.sync _).bind fun _ => .pure _

theorem keeps_initializeMeter {record : SessionRecord} {runtimeId : String} :
    (payments charge).Keeps standing (initializeMeter record runtimeId) := by
  refine (Monitor.Keeps.sync _).bind fun _ => (keeps_ask ⟨rfl, rfl⟩).bind fun now => ?_
  refine (keeps_call ⟨rfl, rfl⟩).bind fun saved => .ite (.pure _) ?_
  exact keeps_readMeter.bind fun existing => .sync _

/-- Closing a meter writes to it, and charges nothing. -/
theorem keeps_closeLoop {record : SessionRecord} (attempts : Nat) :
    (payments charge).Keeps standing (closeLoop record attempts) := by
  induction attempts with
  | zero => exact .throw _
  | succ attempts ih =>
    refine (keeps_call ⟨rfl, rfl⟩).bind fun current => (Monitor.Keeps.sync _).bind fun meter => ?_
    exact .ite (.pure _) ((keeps_call ⟨rfl, rfl⟩).bind fun saved => .ite (.pure _) ih)

theorem keeps_closeMeter {record : SessionRecord} :
    (payments charge).Keeps standing (closeMeter record) := by
  rw [closeMeter]
  split
  · exact .pure _
  · exact (Monitor.Keeps.sync _).bind fun _ => keeps_closeLoop 12

theorem keeps_assertMeter {record : SessionRecord} :
    (payments charge).Keeps standing (assertMeter record) := by
  rw [assertMeter]
  split
  · exact .pure _
  · exact (Monitor.Keeps.sync _).bind fun _ => keeps_readMeter.bind fun meter => .sync _

theorem keeps_assertForwardable {record : SessionRecord} :
    (payments charge).Keeps standing (assertForwardable record) := by
  refine keeps_readNormalized.bind fun result => ?_
  cases result with
  | none => exact .throw _
  | some result =>
    refine (Monitor.Keeps.sync _).bind fun latest => (Monitor.Keeps.sync _).bind fun _ => ?_
    exact keeps_assertMeter.bind fun _ => .pure _

theorem keeps_assertMeterForwardable {record : SessionRecord} :
    (payments charge).Keeps standing (assertMeterForwardable record) := by
  refine (Monitor.Keeps.sync _).bind fun _ => (keeps_ask ⟨rfl, rfl⟩).bind fun now => ?_
  exact (Monitor.Keeps.sync _).bind fun _ => keeps_readMeter.bind fun meter => .sync _

/-- The charged record is only read again before the request is passed on. -/
theorem keeps_forwardableById {id : SessionId} {visitorHash : Digest} {kind : SandboxKind} :
    (payments charge).Keeps standing (forwardableById id visitorHash kind) := by
  refine keeps_readNormalized.bind fun result => ?_
  cases result with
  | none => exact .throw _
  | some result =>
    refine (Monitor.Keeps.sync _).bind fun record => (Monitor.Keeps.sync _).bind fun _ => ?_
    exact keeps_assertMeter.bind fun _ => .pure _

/-! ## The broker -/

theorem keeps_future {value : Option Instant} :
    (payments charge).Keeps standing (future value) := by
  cases value with
  | none => exact .pure _
  | some value => exact (keeps_ask ⟨rfl, rfl⟩).bind fun now => .pure _

theorem keeps_request {record : SessionRecord} {view : ProviderView}
    {method : HttpMethod} {path : String}
    {body : Option RequestBody} :
    (payments charge).Keeps standing (deps.providerRequest record view false method path body) :=
  (Monitor.Keeps.sync _).bind fun _ => (Monitor.Keeps.sync _).bind fun _ => keeps_call ⟨rfl, rfl⟩

/-- The meter of a record that is no longer ready is closed; there may be none. -/
theorem keeps_closeMeterOf {record : SessionRecord} :
    (payments charge).Keeps standing (closeMeterOf record) :=
  .ite keeps_closeMeter (.pure _)

theorem keeps_observe {name : String} : (payments charge).Keeps standing (observe name) := by
  refine (keeps_call ⟨rfl, rfl⟩).settle.bind fun result => ?_
  cases result with
  | ok view => exact .pure _
  | error e => exact .pure _

/-- Stopping a sandbox, or finding out why it could not be stopped. -/
theorem keeps_stopOrObserve {name : String} :
    (payments charge).Keeps standing (stopOrObserve name) := by
  refine (keeps_call ⟨rfl, rfl⟩).settle.bind fun result => ?_
  cases result with
  | ok _ => exact .pure _
  | error e => exact keeps_observe.bind fun observed => .pure _

/-- It closes the meter and the session, and throws. -/
theorem keeps_failClosed {record : SessionRecord} {code : String} :
    (payments charge).Keeps standing (deps.failClosed record code : Promise α) := by
  refine keeps_closeMeterOf.settle.bind fun _ =>
    keeps_stopOrObserve.bind fun ⟨stopped, observed⟩ => ?_
  exact keeps_updateFenced.bind fun _ => .throw _

/-- The broker asks the gateway for its health and its manifest on its own account. -/
theorem keeps_probe {record : SessionRecord} {view : ProviderView} :
    (payments charge).Keeps standing (deps.probe record view) := by
  refine keeps_request.bind fun response => .ite (.pure _) ?_
  refine (keeps_call ⟨rfl, rfl⟩).bind fun value => (Monitor.Keeps.sync _).bind fun runtimeId => ?_
  refine keeps_request.bind fun identityResponse => .ite (.pure _) ?_
  exact (keeps_call ⟨rfl, rfl⟩).bind fun identity => .pure _

/-- The record becomes ready once its meter was created. -/
theorem keeps_probeReady {record : SessionRecord} {view : ProviderView} :
    (payments charge).Keeps standing (deps.probeReady record view) := by
  refine .tryCatch (keeps_probe.bind fun result => ?_) fun _ => .pure _
  cases result with
  | none => exact .pure _
  | some result =>
    refine .ite ?_ (keeps_updateFenced.bind fun _ => .pure _)
    exact keeps_initializeMeter.bind fun _ => keeps_updateFenced.bind fun _ => .pure _

theorem keeps_reconcileRunning {record : SessionRecord} {view : ProviderView} :
    (payments charge).Keeps standing (deps.reconcileRunning record view) := by
  refine .ite keeps_failClosed ?_
  exact .bindIte keeps_update (.pure _) fun updated => .ite keeps_probeReady (.pure _)

theorem keeps_reconcile {record : SessionRecord} :
    (payments charge).Keeps standing (deps.reconcile record) := by
  refine keeps_observe.bind fun result => ?_
  cases result with
  | none => exact .pure _
  | some view =>
    refine .ite (.pure _) (.ite (keeps_closeMeterOf.bind fun _ => keeps_update) ?_)
    refine .bindIte keeps_future (.pure _) fun running => ?_
    exact .ite (.ite keeps_update (.pure _)) keeps_reconcileRunning

/-- Each turn reconciles the record and waits. -/
theorem keeps_pollLoop {provisioningDeadline : Instant} {deadline : Int}
    (turns : Nat) (latest : SessionRecord) :
    (payments charge).Keeps standing
      (deps.pollLoop provisioningDeadline deadline turns latest) := by
  induction turns generalizing latest with
  | zero => exact .pure _
  | succ turns ih =>
    refine (keeps_ask ⟨rfl, rfl⟩).bind fun date => .ite ?_ (.pure _)
    refine (keeps_ask ⟨rfl, rfl⟩).bind fun now => .ite ?_ (.pure _)
    exact keeps_reconcile.bind fun latest => .ite (.pure _) (ih latest)

theorem keeps_pollReady {turns : Nat} {record : SessionRecord} {durationMs : Int} :
    (payments charge).Keeps standing (deps.pollReady turns record durationMs) :=
  (keeps_ask ⟨rfl, rfl⟩).bind fun _ => keeps_pollLoop turns record

theorem keeps_closeExpired {record : SessionRecord} :
    (payments charge).Keeps standing (deps.closeExpired record) :=
  keeps_stopOrObserve.bind fun _ => keeps_update

/-- `current` reconciles, and passes nothing on. -/
theorem keeps_current {visitorHash : Digest} {kind : SandboxKind} :
    (payments charge).Keeps standing (deps.current visitorHash kind) := by
  refine keeps_currentRecord.bind fun result => ?_
  cases result with
  | none => exact .pure _
  | some record =>
    refine keeps_future.bind fun unexpired => .ite ?_ ?_
    · exact keeps_closeMeterOf.bind fun _ => keeps_closeExpired.bind fun _ => .pure _
    · have hreconcile : ∀ record, (payments charge).Keeps standing
          (if record.status = .starting ∨ record.status = .ready then
            deps.reconcile record >>= fun record => pure (publicSession (some record) kind)
          else pure record >>= fun record => pure (publicSession (some record) kind)) :=
        fun record => .bindIte keeps_reconcile (.pure _) fun _ => .pure _
      refine .ite ?_ (hreconcile record)
      exact (keeps_call ⟨rfl, rfl⟩).settle.bind fun stopped => keeps_update.bind fun record =>
        hreconcile record

theorem keeps_launch {turns : Nat} {id : SessionId} {created : ProviderView} :
    (payments charge).Keeps standing (deps.launch turns id created) := by
  refine keeps_updateFenced.bind fun launchFence => .ite ?_ ?_
  · exact (keeps_call ⟨rfl, rfl⟩).settle.bind fun _ => .pure _
  · refine (keeps_call ⟨rfl, rfl⟩).settle.bind fun result => ?_
    cases result with
    | ok _ => exact keeps_pollReady
    | error e => exact keeps_update

/-- A reserved sandbox is asked for, launched and polled. -/
theorem keeps_create {turns : Nat} {id : SessionId} {kind : SandboxKind}
    {reserved : SessionRecord} :
    (payments charge).Keeps standing (deps.create turns id kind reserved) := by
  refine (keeps_ask ⟨rfl, rfl⟩).bind fun _ => (keeps_call ⟨rfl, rfl⟩).settle.bind fun result => ?_
  cases result with
  | ok created => exact keeps_launch
  | error e => exact keeps_observe.bind fun observed => keeps_update

/-- `start` reserves; the reservation is a transaction that is no charge. -/
theorem keeps_start {turns : Nat} {visitorHash ipHash : Digest} {kind : SandboxKind}
    {expectedSessionId : Option SessionId} :
    (payments charge).Keeps standing
      (deps.start turns visitorHash ipHash kind expectedSessionId) := by
  refine keeps_currentRecord.bind fun current => (Monitor.Keeps.sync _).bind fun _ => ?_
  refine (keeps_ask ⟨rfl, rfl⟩).bind fun id => keeps_reserve.bind fun reserved => .ite ?_ ?_
  · exact .bindIte keeps_reconcile (.pure _) fun _ => .pure _
  · exact keeps_create.bind fun _ => .pure _

theorem keeps_creationSettled {current : SessionRecord} :
    (payments charge).Keeps standing (creationSettled current) :=
  .ite (.pure _) (.ite ((keeps_ask ⟨rfl, rfl⟩).bind fun _ => .pure _) (.pure _))

/-- `reset` stops one sandbox and reserves the next. -/
theorem keeps_reset {turns : Nat} {visitorHash ipHash : Digest} {kind : SandboxKind}
    {expectedSessionId : Option SessionId} :
    (payments charge).Keeps standing
      (deps.reset turns visitorHash ipHash kind expectedSessionId) := by
  refine keeps_currentRecord.bind fun current => (Monitor.Keeps.sync _).bind fun current => ?_
  refine (Monitor.Keeps.sync _).bind fun _ => keeps_creationSettled.bind fun settled => ?_
  refine (Monitor.Keeps.sync _).bind fun _ => (keeps_ask ⟨rfl, rfl⟩).bind fun now => ?_
  refine (Monitor.Keeps.sync _).bind fun _ => keeps_closeMeterOf.bind fun _ =>
    keeps_update.bind fun _ => ?_
  refine keeps_stopOrObserve.bind fun ⟨stopped, observed⟩ => ?_
  cases stopped with
  | false => exact keeps_update.bind fun _ => .pure _
  | true => exact keeps_update.bind fun _ => keeps_start

/-! ## Charges and the proxy -/

variable {id : SessionId} {visitorHash : Digest} {kind : SandboxKind}
    {mutationCount : Nat} {limits : Limits}

/-- A charge in the ledger is for a record without a meter. -/
theorem meterVersion_of_charge {now : Instant} {ledger : SessionLedger}
    {r : SessionLedger × Outcome}
    (h : Transaction.apply ⟨now, .charge id visitorHash kind mutationCount⟩ limits ledger = .ok r) :
    r.2.record.meterVersion = none := by
  simp only [Transaction.apply, Request.apply, SessionLedger.charge,
    bind_eq_ok, require_eq_ok, pure_eq_ok] at h
  obtain ⟨_, -, ⟨_, outcome⟩, ⟨record, -, _, ⟨-, -, hnone, -⟩, _, -, _, -, heq⟩, rfl⟩ := h
  cases heq
  exact hnone

/-- A loop over the meter ends with the first write that is not refused. -/
theorem gives_chargeLoop_once {snapshot : SessionRecord} (attempts : Nat) :
    (payments (some (id, mutationCount))).Gives (fun r s => r = snapshot ∧ s = .paid true)
      (fun _ => True)
      (chargeLoop limits snapshot id mutationCount attempts) .unpaid := by
  induction attempts with
  | zero => exact .throw trivial
  | succ attempts ih =>
    refine Monitor.Gives.bind (Q := fun _ s => s = .unpaid) (.call (Call.Quiet.may ⟨rfl, rfl⟩)
      (fun _ _ _ => rfl) fun _ _ _ => trivial) fun current _ hs => ?_
    subst hs
    refine Monitor.Gives.bind (Q := fun _ s => s = .unpaid) (.sync (fun _ _ => rfl) trivial)
      fun meter _ hs => ?_
    subst hs
    refine Monitor.Gives.bind (Q := fun _ s => s = .unpaid)
      (.ask (Call.Quiet.may ⟨rfl, rfl⟩) fun _ => rfl)
      fun now _ hs => ?_
    subst hs
    refine Monitor.Gives.bind (Q := fun _ s => s = .unpaid) (.sync (fun _ _ => rfl) trivial)
      fun charged _ hs => ?_
    subst hs
    -- the write: `true` ends the loop with the charge paid, `false` goes on unpaid
    refine Monitor.Gives.bind (Q := fun saved s => s = if saved then .paid true else .unpaid)
      (.call ⟨fun _ _ _ hc => ?_, nofun⟩ (fun x saved hx => ?_) fun _ _ _ => trivial)
        fun saved s hs => ?_
    · cases hc
      exact ⟨rfl, rfl⟩
    · cases hx
      cases saved <;> rfl
    · subst hs
      cases saved with
      | true => exact .pure ⟨rfl, rfl⟩
      | false => exact ih

/-- The loop over the ledger, of a session without a meter, likewise. -/
theorem gives_transactionLoop_once (attempts : Nat) :
    (payments (some (id, mutationCount))).Gives
      (fun outcome s => outcome.record.meterVersion = none ∧ s = .paid false) (fun _ => True)
      (transactionLoop limits (.charge id visitorHash kind mutationCount) attempts) .unpaid := by
  induction attempts with
  | zero => exact .throw trivial
  | succ attempts ih =>
    refine Monitor.Gives.bind (Q := fun _ s => s = .unpaid) (.call (Call.Quiet.may ⟨rfl, rfl⟩)
      (fun _ _ _ => rfl) fun _ _ _ => trivial) fun current _ hs => ?_
    subst hs
    refine Monitor.Gives.bind (Q := fun _ s => s = .unpaid)
      (.ask (Call.Quiet.may ⟨rfl, rfl⟩) fun _ => rfl)
      fun now _ hs => ?_
    subst hs
    refine Monitor.Gives.bind (Q := fun r s => r.2.record.meterVersion = none ∧ s = .unpaid)
      (.sync (fun r hr => ⟨meterVersion_of_charge hr, rfl⟩) trivial)
        fun ⟨ledger, outcome⟩ _ ⟨hnone, hs⟩ => ?_
    subst hs
    refine Monitor.Gives.bind (Q := fun saved s => s = if saved then .paid false else .unpaid)
      (.call ⟨fun _ _ _ hc => ?_, nofun⟩ (fun x saved hx => ?_) fun _ _ _ => trivial)
        fun saved s hs => ?_
    · cases hc
      exact ⟨rfl, rfl⟩
    · cases hx
      cases saved <;> rfl
    · subst hs
      cases saved with
      | true => exact .pure ⟨hnone, rfl⟩
      | false => exact ih

/-- **`charge`** that returns was paid for by one write, of the meter if the session has one. -/
theorem gives_charge_once :
    (payments (some (id, mutationCount))).Gives (fun r s => s = .paid r.meterVersion.isSome)
      (fun _ => True)
      (deps.charge id visitorHash kind mutationCount) .unpaid := by
  refine Monitor.Gives.bind (Q := fun _ s => s = .unpaid) (.sync (fun _ _ => rfl) trivial)
    fun _ _ hs => ?_
  subst hs
  refine Monitor.Gives.bind (keeps_forwardableById.mono (fun _ _ hs => hs) fun _ _ => trivial)
    fun snapshot _ hs => ?_
  subst hs
  cases hversion : snapshot.meterVersion with
  | none =>
    refine Monitor.Gives.bind (gives_transactionLoop_once 12) fun outcome s ⟨hnone, hs⟩ => .pure ?_
    rw [hs, hnone]
    rfl
  | some meterVersion =>
    refine Monitor.Gives.bind (Q := fun _ s => s = .unpaid) (.sync (fun _ _ => rfl) trivial)
      fun _ _ hs => ?_
    subst hs
    refine (gives_chargeLoop_once 12).mono (fun r s ⟨hr, hs⟩ => ?_) fun _ _ => trivial
    rw [hs, hr, hversion]
    rfl

/-- A client is refused: nothing is returned. -/
theorem gives_refuse_never {request : ClientRequest} {error : Failure} :
    (payments charge).Gives (fun _ _ => False) (fun _ => True)
      (deps.refuse request error) standing := by
  simp only [Deps.refuse]
  split
  · refine Monitor.Gives.bind (keeps_byId.mono (fun _ _ hs => hs) fun _ _ => trivial)
      fun result _ _ => ?_
    cases result with
    | none => exact .throw trivial
    | some record =>
      refine Monitor.Gives.bind (Q := fun _ _ => True) (.sync (fun _ _ => trivial) trivial)
        fun _ _ _ => ?_
      refine Monitor.Gives.bind (keeps_future.mono (fun _ _ hs => hs) fun _ _ => trivial)
        fun unexpired _ _ => ?_
      refine .ite (fun _ => ?_) fun _ => .throw trivial
      exact Monitor.Gives.bind (keeps_closeExpired.mono (fun _ _ hs => hs) fun _ _ => trivial)
        fun _ _ _ => .throw trivial
  · exact .throw trivial

/-- What is checked between the charge and the request leaves the standing as it is. -/
theorem keeps_forwardable {request : ClientRequest} {charged : SessionRecord} :
    (payments charge).Keeps standing (deps.forwardable request charged) := by
  refine keeps_observe.bind fun result => ?_
  cases result with
  | none => exact .throw _
  | some view =>
    refine .ite (keeps_update.bind fun _ => .throw _)
      (.bindIte keeps_future (.pure _) fun running => ?_)
    refine .ite (keeps_closeMeterOf.bind fun _ => keeps_update.bind fun _ => .throw _) (.ite ?_ ?_)
    · exact keeps_assertMeterForwardable.bind fun _ =>
        .ite (keeps_assertForwardable.bind fun _ => .pure _) (.pure _)
    · exact keeps_assertForwardable.bind fun _ => .pure _

/-- So does what is done with the response. -/
theorem keeps_respond {request : ClientRequest} {charged : SessionRecord} {response : Response}
    {value : JsonValue} : (payments charge).Keeps standing
    (deps.respond request charged response value) := by
  rw [Deps.respond]
  refine .ite (.pure _) ?_
  split
  · split
    · exact .pure _
    · exact keeps_failClosed
  · refine (Monitor.Keeps.settle ((Monitor.Keeps.sync _).bind fun genesisHash => ?_)).bind
      fun checked => ?_
    · cases genesisHash with
      | none => exact .pure _
      | some genesisHash => exact .ite (keeps_update.bind fun _ => .pure _) (.pure _)
    · cases checked with
      | ok _ => exact .pure _
      | error e => exact keeps_failClosed
  · refine (Monitor.Keeps.sync _).bind fun _ => ?_
    split
    · exact .pure _
    · exact .ite (.pure _) keeps_failClosed
  · exact .pure _
  · exact .pure _

/-- A client's request is passed on where the charge is paid. -/
theorem gives_forward_once {record : SessionRecord} {view : ProviderView}
    {method : HttpMethod} {path : String}
    {body : Option RequestBody} {metered : Bool} :
    (payments charge).Gives (fun _ _ => True) (fun _ => True)
      (deps.providerRequest record view true method path body) (.paid metered) := by
  refine Monitor.Gives.bind (Q := fun _ s => s = .paid metered) (.sync (fun _ _ => rfl) trivial)
    fun _ _ hs => ?_
  subst hs
  refine Monitor.Gives.bind (Q := fun _ s => s = .paid metered) (.sync (fun _ _ => rfl) trivial)
    fun _ _ hs => ?_
  subst hs
  exact .call ⟨nofun, fun _ => ⟨metered, rfl⟩⟩ (fun _ _ _ => trivial) fun _ _ _ => trivial

/-- **`proxy`** passes on one request at most, after its charge. -/
theorem gives_proxy_once {request : ClientRequest}
    (hcount : request.mutationCount = .ok mutationCount) :
    (payments (some (request.id, mutationCount))).Gives (fun _ _ => True) (fun _ => True)
      (deps.proxy request) .unpaid := by
  refine Monitor.Gives.bind (Q := fun n s => n = mutationCount ∧ s = .unpaid)
    (.sync (fun n hn => ⟨Except.ok.inj (hn.symm.trans hcount), rfl⟩) trivial) fun n _ ⟨hn, hs⟩ => ?_
  subst hn hs
  refine Monitor.Gives.bind (Q := fun r s => s = .paid r.meterVersion.isSome)
    (.tryCatch gives_charge_once fun _ _ _ => ?_) fun charged _ hs => ?_
  · exact gives_refuse_never.mono (fun _ _ hfalse => hfalse.elim) fun _ _ => trivial
  subst hs
  refine Monitor.Gives.bind (keeps_forwardable.mono (fun _ _ hs => hs) fun _ _ => trivial)
    fun view _ hs => ?_
  subst hs
  refine Monitor.Gives.bind (.tryCatch gives_forward_once fun error _ _ => ?_)
    fun response _ _ => ?_
  · split <;> exact .throw trivial
  · refine Monitor.Gives.bind
      ((keeps_call ⟨rfl, rfl⟩).mono (fun _ _ _ => trivial) fun _ _ => trivial)
      fun value _ _ => ?_
    exact keeps_respond.mono (fun _ _ _ => trivial) fun _ _ => trivial

end Broker

end DividendX
