import DividendX.Broker.Sessions
import DividendX.Lib.History
import DividendX.Lib.Schedule

/-!
# The world of the broker

Any number of broker calls over one ledger document, one meter document for every session, one
clock and one provider. A sandbox is asked for once under its name; from then on it may come alive
at any time before the end it was given, and it dies once.

What a run may rely on beyond that (a clock that does not go back, a provider that tells the truth)
is a relation on answers, the `Rules` of a machine. Under no rules the clock, the provider and the
sandboxes answer anything; only the domain of a sandbox is never empty, since `checkedDomain` gives
the origin of an address.
-/

namespace DividendX

namespace Broker

open Devnet (Instant Digest)
open Async

/-- What became of a sandbox. -/
inductive Stage
  | unborn
  | live
  | dead
deriving DecidableEq, Repr

/-- The last reading of the clock, the documents, the session ids that were drawn, the ends the
provider was given with each name, and the sandboxes. -/
structure World where
  clock : Instant
  ledger : History Transaction SessionLedger
  meters : SessionId → History MeterChange SessionMeter
  issued : List SessionId
  requested : String → Option Instant
  sandbox : String → Stage

/-- The stored ledger. -/
def World.sessionLedger (w : World) : SessionLedger := History.content emptyLedger w.ledger.log

/-- What is left of a sandbox that is stopped. -/
def Stage.stopped : Stage → Stage
  | .unborn => .unborn
  | .live | .dead => .dead

/-- The world after a sandbox was stopped. -/
def World.kill (w : World) (name : String) : World :=
  { w with sandbox := Function.update w.sandbox name (w.sandbox name).stopped }

/-- How calls are answered, and what that does to the world. -/
inductive Replies : (c : Call) → World → Answer c → World → Prop
  | now {w : World} (t : Instant) : Replies .now w t { w with clock := t }
  | dateNow {w : World} (ms : Int) : Replies .dateNow w ms w
  | newSessionId {w : World} {id : SessionId} : id ∉ w.issued →
      Replies .newSessionId w id { w with issued := id :: w.issued }
  | readLedger {w : World} : Replies .readLedger w (.ok w.ledger.cell) w
  | readLedgerFails {w : World} (e : Failure) : Replies .readLedger w (.error e) w
  | putLedger {w : World} {p : Put Transaction SessionLedger} {x : Except Failure Bool}
      {ledger : History Transaction SessionLedger} : w.ledger.Puts p x ledger →
      Replies (.putLedger p) w x { w with ledger := ledger }
  | readMeter {w : World} {id : SessionId} : Replies (.readMeter id) w (.ok (w.meters id).cell) w
  | readMeterFails {w : World} {id : SessionId} (e : Failure) :
    Replies (.readMeter id) w (.error e) w
  | putMeter {w : World} {id : SessionId} {p : Put MeterChange SessionMeter}
    {x : Except Failure Bool}
      {meter : History MeterChange SessionMeter} : (w.meters id).Puts p x meter →
      Replies (.putMeter id p) w x { w with meters := Function.update w.meters id meter }
  | requestCreate {w : World} {input : CreateInput} : Replies (.requestCreate input) w ()
      { w with requested := Function.update w.requested input.name (some input.expiresAt) }
  | create {w : World} {input : CreateInput} {x : Except Failure ProviderView} :
      (∀ view, x = .ok view → view.domain ≠ some "") → Replies (.create input) w x w
  | launch {w : World} {name : String} (x : Except Failure Unit) : Replies (.launch name) w x w
  | get {w : World} {name : String} {x : Except Failure ProviderView} :
      (∀ view, x = .ok view → view.domain ≠ some "") → Replies (.get name) w x w
  | stops {w : World} {name : String} : Replies (.stopAndDelete name) w (.ok ()) (w.kill name)
  | stopFails {w : World} {name : String} (e : Failure) :
      Replies (.stopAndDelete name) w (.error e) w
  | stopFailsLate {w : World} {name : String} (e : Failure) :
      Replies (.stopAndDelete name) w (.error e) (w.kill name)
  | fetch {w : World} {request : ProviderRequest} (x : Except Failure Response) :
      Replies (.fetch request) w x w
  | boundedJson {w : World} {response : Response} (x : Except Failure JsonValue) :
      Replies (.boundedJson response) w x w

/-- What may be relied on. -/
abbrev Rules : Type := (c : Call) → World → Answer c → World → Prop

/-- Answers within the rules. -/
def Answers (rules : Rules) (c : Call) (w : World) (x : Answer c) (w' : World) : Prop :=
  Replies c w x w' ∧ rules c w x w'

/-- What happens without a call. -/
inductive Drift
  | ledger (p : Put Transaction SessionLedger)
  | meter (id : SessionId) (p : Put MeterChange SessionMeter)
  | born (name : String)
  | died (name : String)

/-- Writes in flight take effect late, sandboxes come alive and die. -/
inductive Drifts : Drift → World → World → Prop
  | ledger {w : World} {p : Put Transaction SessionLedger}
      {ledger : History Transaction SessionLedger} : w.ledger.Lands p ledger →
      Drifts (.ledger p) w { w with ledger := ledger }
  | meter {w : World} {id : SessionId} {p : Put MeterChange SessionMeter}
      {meter : History MeterChange SessionMeter} : (w.meters id).Lands p meter →
      Drifts (.meter id p) w { w with meters := Function.update w.meters id meter }
  | born {w : World} {name : String} {expiresAt : Instant} : w.requested name = some expiresAt →
      w.clock.ms < expiresAt.ms → w.sandbox name = .unborn →
      Drifts (.born name) w { w with sandbox := Function.update w.sandbox name .live }
  | died {w : World} {name : String} : w.sandbox name = .live → Drifts (.died name) w (w.kill name)

/-- A machine of the broker: its rules, and what may be started. -/
def machine (rules : Rules) (starts : Async Call Answer Unit → Prop) :
    Machine World Call Answer Drift := ⟨Answers rules, Drifts, starts⟩

/-- Nothing has happened yet. -/
def World.empty (clock : Instant) : World :=
  { clock := clock, ledger := ⟨[], []⟩, meters := fun _ => ⟨[], []⟩, issued := []
    requested := fun _ => none, sandbox := fun _ => .unborn }

/-- No call is under way yet. -/
def launched (clock : Instant) : Site World Call Answer := ⟨World.empty clock, []⟩

/-- What may be started: the broker's methods, and those of its repository that deal with a
meter. -/
inductive Starts (deps : Deps) : Async Call Answer Unit → Prop
  | current (visitorHash : Digest) (kind : SandboxKind) :
      Starts deps (deps.current visitorHash kind).run.forget
  | start (turns : Nat) (visitorHash ipHash : Digest) (kind : SandboxKind)
      (expectedSessionId : Option SessionId) :
      Starts deps (deps.start turns visitorHash ipHash kind expectedSessionId).run.forget
  | reset (turns : Nat) (visitorHash ipHash : Digest) (kind : SandboxKind)
      (expectedSessionId : Option SessionId) :
      Starts deps (deps.reset turns visitorHash ipHash kind expectedSessionId).run.forget
  | proxy (request : ClientRequest) : Starts deps (deps.proxy request).run.forget
  | initializeMeter (record : SessionRecord) (runtimeId : String) :
      Starts deps (initializeMeter record runtimeId).run.forget
  | closeMeter (record : SessionRecord) : Starts deps (closeMeter record).run.forget
  | charge (id : SessionId) (visitorHash : Digest) (kind : SandboxKind) (mutationCount : Nat) :
      Starts deps (deps.charge id visitorHash kind mutationCount).run.forget

/-! ## Schedules -/

/-- How a call is answered in a schedule. -/
inductive Hint
  | now (t : Instant)
  | date (ms : Int)
  | issue (id : SessionId)
  | store
  | accept
  | view (x : Except Failure ProviderView)
  | settle (x : Except Failure Unit)
  | response (x : Except Failure Response)
  | json (x : Except Failure JsonValue)

/-- A view of a sandbox that may be answered. -/
def sound (x : Except Failure ProviderView) : Bool :=
  match x with
  | .ok view => view.domain ≠ some ""
  | .error _ => true

theorem domain_of_sound {x : Except Failure ProviderView} (h : sound x = true) (view : ProviderView)
    (hx : x = .ok view) : view.domain ≠ some "" := by
  subst hx
  exact of_decide_eq_true h

/-- The answer to a call and what it does to the world. -/
def World.answer (w : World) : (c : Call) → Hint → Option (Answer c × World)
  | .now, .now t => some (t, { w with clock := t })
  | .dateNow, .date ms => some (ms, w)
  | .newSessionId, .issue id =>
    if id ∉ w.issued then some (id, { w with issued := id :: w.issued }) else none
  | .readLedger, .store => some (.ok w.ledger.cell, w)
  | .putLedger p, .store =>
    if History.version p.expected = w.ledger.log.length then
      some (.ok true, { w with ledger := w.ledger.append p })
    else some (.ok false, w)
  | .readMeter id, .store => some (.ok (w.meters id).cell, w)
  | .putMeter id p, .store =>
    if History.version p.expected = (w.meters id).log.length then
      some (.ok true, { w with meters := Function.update w.meters id ((w.meters id).append p) })
    else some (.ok false, { w with meters := Function.update w.meters id (w.meters id) })
  | .requestCreate input, .accept =>
    some ((), { w with requested := Function.update w.requested input.name (some input.expiresAt) })
  | .create _, .view x => if sound x then some (x, w) else none
  | .launch _, .settle x => some (x, w)
  | .get _, .view x => if sound x then some (x, w) else none
  | .stopAndDelete name, .settle (.ok ()) => some (.ok (), w.kill name)
  | .stopAndDelete _, .settle (.error e) => some (.error e, w)
  | .fetch _, .response x => some (x, w)
  | .boundedJson _, .json x => some (x, w)
  | _, _ => none

theorem World.replies_of_answer {w w' : World} {c : Call} {hint : Hint} {x : Answer c}
    (h : w.answer c hint = some (x, w')) : Replies c w x w' := by
  simp only [World.answer] at h
  split at h
  case h_16 => cases h
  case h_3 => split at h <;> cases h; exact .newSessionId ‹_›
  case h_5 => split at h <;> cases h <;> [exact .putLedger (.saved ‹_›); exact .putLedger .refused]
  case h_9 | h_11 =>
    split at h
    · rename_i hsound
      cases h
      constructor
      exact domain_of_sound hsound
    · cases h
  case h_7 => split at h <;> cases h <;> [exact .putMeter (.saved ‹_›); exact .putMeter .refused]
  all_goals cases h; constructor

/-- What happens without a call. -/
def World.drift (w : World) : Drift → Option World
  | .born name =>
    if (w.requested name).any (fun expiresAt => w.clock.ms < expiresAt.ms)
        && w.sandbox name = .unborn then
      some { w with sandbox := Function.update w.sandbox name .live }
    else none
  | .died name => if w.sandbox name = .live then some (w.kill name) else none
  | _ => none

theorem World.drifts_of_drift {w w' : World} {d : Drift} (h : w.drift d = some w') :
    Drifts d w w' := by
  cases d with
  | ledger p => cases h
  | meter id p => cases h
  | born name =>
    simp only [World.drift, Bool.and_eq_true, Option.any_eq_true, decide_eq_true_eq] at h
    split at h
    · rename_i hborn
      obtain ⟨⟨expiresAt, hrequested, hclock⟩, hunborn⟩ := hborn
      cases h
      exact .born hrequested hclock hunborn
    · cases h
  | died name =>
    simp only [World.drift] at h
    split at h
    · cases h
      exact .died ‹_›
    · cases h

/-- Plays schedules, within rules that can be checked. -/
def player (rules : Rules) (starts : Async Call Answer Unit → Prop)
    (legal : (c : Call) → World → Answer c → World → Bool)
    (hlegal : ∀ c w x w', legal c w x w' = true → rules c w x w') :
    Player (machine rules starts) Hint where
  answer c hint w := (w.answer c hint).filter fun r => legal c w r.1 r.2
  drift d w := w.drift d
  answers h := by
    obtain ⟨hanswer, hok⟩ := Option.filter_eq_some_iff.mp h
    exact ⟨World.replies_of_answer hanswer, hlegal _ _ _ _ hok⟩
  drifts h := World.drifts_of_drift h

end Broker

end DividendX
