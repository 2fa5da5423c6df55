import DividendX.Broker.Payments
import DividendX.Broker.Pinning
import DividendX.Broker.Quotas
import Mathlib.Algebra.BigOperators.Group.Finset.Basic

/-!
# Metering loses and duplicates nothing

Every call of the broker that was started keeps its place in the story of a run, so the charges in
the history of a meter can be told apart by the call that made them: a call makes one write at most
that is not refused, a write that is not refused is made against a version nobody else can write
again, and a call that returns had its write saved. The totals of a meter are those of the calls
whose charge took effect (`sessions_metered`).
-/

namespace DividendX

namespace Broker

open Devnet (Instant Digest)
open History Async

/-! ## Methods -/

/-- What may be started, with its arguments. -/
inductive Method
  | current (visitorHash : Digest) (kind : SandboxKind)
  | start (turns : Nat) (visitorHash ipHash : Digest) (kind : SandboxKind)
      (expectedSessionId : Option SessionId)
  | reset (turns : Nat) (visitorHash ipHash : Digest) (kind : SandboxKind)
      (expectedSessionId : Option SessionId)
  | proxy (request : ClientRequest)
  | initializeMeter (record : SessionRecord) (runtimeId : String)
  | closeMeter (record : SessionRecord)
  | charge (id : SessionId) (visitorHash : Digest) (kind : SandboxKind) (mutationCount : Nat)

/-- The program of a method. -/
def Method.program (deps : Deps) : Method → Async Call Answer Unit
  | .current visitorHash kind => (deps.current visitorHash kind).run.forget
  | .start turns visitorHash ipHash kind expectedSessionId =>
    (deps.start turns visitorHash ipHash kind expectedSessionId).run.forget
  | .reset turns visitorHash ipHash kind expectedSessionId =>
    (deps.reset turns visitorHash ipHash kind expectedSessionId).run.forget
  | .proxy request => (deps.proxy request).run.forget
  | .initializeMeter record runtimeId => (Broker.initializeMeter record runtimeId).run.forget
  | .closeMeter record => (Broker.closeMeter record).run.forget
  | .charge id visitorHash kind mutationCount =>
    (deps.charge id visitorHash kind mutationCount).run.forget

/-- The arguments of a `charge`. -/
structure ChargeInput where
  id : SessionId
  visitorHash : Digest
  kind : SandboxKind
  mutationCount : Nat

/-- The `charge` a method makes: a call of its own, or the one of `proxy`. -/
def Method.charge? : Method → Option ChargeInput
  | .charge id visitorHash kind mutationCount => some ⟨id, visitorHash, kind, mutationCount⟩
  | .proxy request => match request.mutationCount with
    | .ok mutationCount => some ⟨request.id, request.visitorHash, request.kind, mutationCount⟩
    | .error _ => none
  | .current _ _ | .start _ _ _ _ _ | .reset _ _ _ _ _ | .initializeMeter _ _ | .closeMeter _ =>
    none

/-- What its monitor is told of it. -/
def Method.account (method : Method) : Option (SessionId × Nat) :=
  method.charge?.map fun input => (input.id, input.mutationCount)

variable {deps : Deps} {rules : Rules} {method : Method}

theorem Method.starts (deps : Deps) (method : Method) : Starts deps (method.program deps) := by
  cases method <;> constructor

/-- **Every method obeys its monitor.** -/
theorem Method.obeys (deps : Deps) (method : Method) :
    (payments method.account).Obeys (fun _ _ => True) (method.program deps) .unpaid := by
  cases method with
  | current => exact Monitor.Obeys.forget keeps_current
  | start => exact Monitor.Obeys.forget keeps_start
  | reset => exact Monitor.Obeys.forget keeps_reset
  | proxy request =>
    cases hcount : request.mutationCount with
    | ok mutationCount =>
      simp only [Method.account, Method.charge?, hcount]
      exact Monitor.Obeys.forget (gives_proxy_once hcount)
    | error e =>
      -- the checks before the charge throw
      refine Monitor.Obeys.forget (Q := fun _ _ => True) ?_
      simp only [Deps.proxy, hcount]
      exact trivial
  | initializeMeter => exact Monitor.Obeys.forget keeps_initializeMeter
  | closeMeter => exact Monitor.Obeys.forget keeps_closeMeter
  | charge => exact Monitor.Obeys.forget gives_charge_once

/-! ## Stories -/

/-- A run with all its calls. -/
abbrev BrokerStory : Type := Story World Call Answer Method

/-- No call was started yet. -/
def begun (clock : Instant) : BrokerStory := ⟨World.empty clock, []⟩

/-- The history of a meter. -/
def meterLog (s : BrokerStory) (id : SessionId) : MeterLog := (s.world.meters id).log

/-- The number of mutations a call was to charge. -/
def mutationCountOf (s : BrokerStory) (n : Nat) : Nat :=
  ((s.calls[n]?.map Started.label).bind Method.charge?).elim 0 ChargeInput.mutationCount

variable {s s' : BrokerStory} {id : SessionId}

/-- Two writes of one call that charge and are not refused are one write. -/
def ChargesOnce (s : BrokerStory) : Prop :=
  ∀ n id id' p p' x x', s.Made n ⟨.putMeter id p, x⟩ → s.Made n ⟨.putMeter id' p', x'⟩ →
    p.change.chargedAt ≠ none → p'.change.chargedAt ≠ none → unrefused x = true →
      unrefused x' = true →
    id = id' ∧ p = p'

/-- The charges of a meter are those of some calls, each of one. -/
structure Authored (s : BrokerStory) (id : SessionId) (committed : Finset Nat) : Prop where
  wrote : ∀ n ∈ committed, ∃ p x, s.Made n ⟨.putMeter id p, x⟩ ∧ unrefused x = true
    ∧ p.change.chargedAt ≠ none ∧ (meterLog s id)[version p.expected]? = some ⟨p.change, p.value⟩
  saved : ∀ n p, s.Made n ⟨.putMeter id p, .ok true⟩ → p.change.chargedAt ≠ none → n ∈ committed
  inflight : ∀ p ∈ (s.world.meters id).inflight, p.change.chargedAt ≠ none →
    ∃ n e, s.Made n ⟨.putMeter id p, .error e⟩
  count : committed.card = charges (meterLog s id) fun _ => true
  sum : ∑ n ∈ committed, mutationCountOf s n = mutations (meterLog s id)

/-- What a call has done was allowed. -/
theorem accepts_of_tracked (ht : s.Tracked (Method.program deps)) {e : Started Call Answer Method}
    (he : e ∈ s.calls) : (payments e.label.account).Accepts .unpaid e.trace :=
  ht.accepts he (Method.obeys deps e.label)

theorem account_of_accepts {charge : Option (SessionId × Nat)} {standing : Standing}
    {tr : Trace} {c : Call}
    {x : Answer c} {mutationCount : Nat} {metered : Bool}
    (h : (payments charge).Accepts standing tr)
    (hmem : ⟨c, x⟩ ∈ tr) (hcharge : c.charge? = some (id, mutationCount, metered)) :
    charge = some (id, mutationCount) := by
  induction tr generalizing standing with
  | nil => cases hmem
  | cons entry tr ih =>
    obtain ⟨hmay, hrest⟩ := h
    rcases List.mem_cons.mp hmem with rfl | hmem
    · exact (hmay.1 _ _ _ hcharge).2
    · exact ih hrest hmem

/-- A call charges the meter and the number it was called with. -/
theorem label_of_made (ht : s.Tracked (Method.program deps)) {n : Nat}
    {p : Put MeterChange SessionMeter}
    {x : Except Failure Bool} (hmade : s.Made n ⟨.putMeter id p, x⟩)
    (hcharge : p.change.chargedAt ≠ none) :
    ∃ method input, s.calls[n]?.map Started.label = some method ∧ method.charge? = some input
      ∧ input.id = id ∧ input.mutationCount = p.change.mutations := by
  obtain ⟨e, he, hmem⟩ := hmade
  have haccepts := accepts_of_tracked ht (List.mem_of_getElem? he)
  cases hp : p.change with
  | charge now mutationCount =>
    have hc : (Call.putMeter id p).charge? = some (id, mutationCount, true) := by
      simp [Call.charge?, hp]
    obtain ⟨input, hinput, heq⟩ := Option.map_eq_some_iff.mp (account_of_accepts haccepts hmem hc)
    cases heq
    exact ⟨e.label, input, by rw [he]; rfl, hinput, rfl, rfl⟩
  | create | close =>
    rw [hp] at hcharge
    exact absurd rfl hcharge

theorem mutationCountOf_of_made (ht : s.Tracked (Method.program deps)) {n : Nat}
    {p : Put MeterChange SessionMeter} {x : Except Failure Bool}
    (hmade : s.Made n ⟨.putMeter id p, x⟩)
    (hcharge : p.change.chargedAt ≠ none) : mutationCountOf s n = p.change.mutations := by
  obtain ⟨method, input, hlabel, hinput, -, hcount⟩ := label_of_made ht hmade hcharge
  simp [mutationCountOf, hlabel, hinput, hcount]

theorem chargesOnce_of_tracked (ht : s.Tracked (Method.program deps)) : ChargesOnce s := by
  intro n id id' p p' x x' ⟨e, he, hmem⟩ ⟨e', he', hmem'⟩ hcharge hcharge' hx hx'
  rw [he] at he'
  cases he'
  have hone := (counts_of_accepts (accepts_of_tracked ht (List.mem_of_getElem? he))).1
  rw [if_pos rfl, Trace.charges, List.countP_eq_length_filter] at hone
  have hfilter : ∀ {id : SessionId} {p : Put MeterChange SessionMeter} {x : Except Failure Bool},
      (⟨.putMeter id p, x⟩ : Σ c, Answer c) ∈ e.trace → p.change.chargedAt ≠ none →
        unrefused x = true →
      (⟨.putMeter id p, x⟩ : Σ c, Answer c)
        ∈ e.trace.filter fun entry => (chargeAnswer entry.1 entry.2).any unrefused := by
    intro id p x hmem hcharge hx
    refine List.mem_filter.mpr ⟨hmem, ?_⟩
    cases hp : p.change with
    | charge now mutationCount => simp [chargeAnswer, hp, hx]
    | create | close =>
      rw [hp] at hcharge
      exact absurd rfl hcharge
  obtain ⟨i, hi, hget⟩ := List.getElem_of_mem (hfilter hmem hcharge hx)
  obtain ⟨j, hj, hget'⟩ := List.getElem_of_mem (hfilter hmem' hcharge' hx')
  obtain rfl : i = j := by omega
  cases hget.symm.trans hget'
  exact ⟨rfl, rfl⟩

/-! ## One moment -/

/-- A later moment of a story. -/
structure Extends (s s' : BrokerStory) : Prop where
  made : ∀ n entry, s.Made n entry → s'.Made n entry
  label : ∀ (n : Nat) method, s.calls[n]?.map Started.label = some method →
    s'.calls[n]?.map Started.label = some method

variable {committed : Finset Nat} {n : Nat} {p : Put MeterChange SessionMeter}
    {x : Except Failure Bool}

theorem Extends.mutationCountOf (h : Extends s s') {entry : Σ c, Answer c}
    (hmade : s.Made n entry) :
    mutationCountOf s' n = mutationCountOf s n := by
  obtain ⟨e, he, -⟩ := hmade
  have hlabel : s.calls[n]?.map Started.label = some e.label := by
    rw [he]
    rfl
  rw [Broker.mutationCountOf, Broker.mutationCountOf, hlabel, h.label n _ hlabel]

theorem Extends.sum (h : Extends s s') (ha : Authored s id committed) :
    ∑ n ∈ committed, Broker.mutationCountOf s' n = ∑ n ∈ committed, Broker.mutationCountOf s n := by
  refine Finset.sum_congr rfl fun n hn => ?_
  obtain ⟨p, x, hmade, -⟩ := ha.wrote n hn
  exact h.mutationCountOf hmade

/-- Nobody writes the meter: what was in flight may be more than before. -/
theorem Authored.keep (ha : Authored s id committed) (h : Extends s s')
    (hlog : meterLog s' id = meterLog s id)
    (hsaved : ∀ n p, s'.Made n ⟨.putMeter id p, .ok true⟩ → p.change.chargedAt ≠ none →
      s.Made n ⟨.putMeter id p, .ok true⟩)
    (hinflight : ∀ p ∈ (s'.world.meters id).inflight, p ∈ (s.world.meters id).inflight
      ∨ ∃ n e, s'.Made n ⟨.putMeter id p, .error e⟩) : Authored s' id committed := by
  refine ⟨fun n hn => ?_, fun n p hmade hcharge => ha.saved n p (hsaved n p hmade hcharge) hcharge,
    fun p hp hcharge => ?_, by rw [hlog]; exact ha.count, by rw [hlog, h.sum ha]; exact ha.sum⟩
  · obtain ⟨p, x, hmade, hrest⟩ := ha.wrote n hn
    exact ⟨p, x, h.made _ _ hmade, by rw [hlog]; exact hrest⟩
  · rcases hinflight p hp with hold | hnew
    · obtain ⟨n, e, hmade⟩ := ha.inflight p hold hcharge
      exact ⟨n, e, h.made _ _ hmade⟩
    · exact hnew

/-- **A charge takes effect**: it is that of a call none of whose charges took effect before. -/
theorem Authored.charge (ha : Authored s id committed) (h : Extends s s')
    (ht : s'.Tracked (Method.program deps))
    (hlog : meterLog s' id = meterLog s id ++ [⟨p.change, p.value⟩])
    (hexpected : version p.expected = (meterLog s id).length) (hcharge : p.change.chargedAt ≠ none)
    (hmade : s'.Made n ⟨.putMeter id p, x⟩) (hx : unrefused x = true)
    (hsaved : ∀ m q, s'.Made m ⟨.putMeter id q, .ok true⟩ → q.change.chargedAt ≠ none →
      s.Made m ⟨.putMeter id q, .ok true⟩ ∨ m = n)
    (hinflight : (s'.world.meters id).inflight = (s.world.meters id).inflight) :
    Authored s' id (insert n committed) := by
  have hold : ∀ m ∈ committed, ∃ q y, s'.Made m ⟨.putMeter id q, y⟩ ∧ unrefused y = true
      ∧ q.change.chargedAt ≠ none ∧ (meterLog s id)[version q.expected]?
        = some ⟨q.change, q.value⟩ := by
    intro m hm
    obtain ⟨q, y, hq, hrest⟩ := ha.wrote m hm
    exact ⟨q, y, h.made _ _ hq, hrest⟩
  have hlt : ∀ {k : Nat} {v}, (meterLog s id)[k]? = some v → k < (meterLog s id).length := fun hv =>
    (List.getElem?_eq_some_iff.mp hv).1
  -- the write of a committed call stands at an earlier version than this one
  have hnew : n ∉ committed := by
    intro hn
    obtain ⟨q, y, hq, hy, hqcharge, hget⟩ := hold n hn
    obtain ⟨-, rfl⟩ := chargesOnce_of_tracked ht n id id p q x y hmade hq hcharge hqcharge hx hy
    have := hlt hget
    omega
  refine ⟨fun m hm => ?_, fun m q hq hqcharge => ?_, fun q hq hqcharge => ?_, ?_, ?_⟩
  · rcases Finset.mem_insert.mp hm with rfl | hm
    · refine ⟨p, x, hmade, hx, hcharge, ?_⟩
      rw [hlog, hexpected, List.getElem?_concat_length]
    · obtain ⟨q, y, hq, hy, hqcharge, hget⟩ := hold m hm
      exact ⟨q, y, hq, hy, hqcharge, by rw [hlog, List.getElem?_append_left (hlt hget), hget]⟩
  · rcases hsaved m q hq hqcharge with hq | rfl
    · exact Finset.mem_insert_of_mem (ha.saved m q hq hqcharge)
    · exact Finset.mem_insert_self _ _
  · rw [hinflight] at hq
    obtain ⟨m, e, hm⟩ := ha.inflight q hq hqcharge
    exact ⟨m, e, h.made _ _ hm⟩
  · rw [Finset.card_insert_of_notMem hnew, ha.count, hlog, charges_append,
      if_pos (by obtain ⟨t, ht⟩ := Option.ne_none_iff_exists'.mp hcharge; simp [ht])]
  · rw [Finset.sum_insert hnew, h.sum ha, ha.sum, hlog, mutations_append,
      mutationCountOf_of_made ht hmade hcharge, Nat.add_comm]

/-- A meter is created or closed. -/
theorem Authored.other (ha : Authored s id committed) (h : Extends s s')
    (hlog : meterLog s' id = meterLog s id ++ [⟨p.change, p.value⟩])
    (hcharge : p.change.chargedAt = none)
    (hsaved : ∀ m q, s'.Made m ⟨.putMeter id q, .ok true⟩ → q.change.chargedAt ≠ none →
      s.Made m ⟨.putMeter id q, .ok true⟩)
    (hinflight : (s'.world.meters id).inflight = (s.world.meters id).inflight) :
    Authored s' id committed := by
  refine ⟨fun m hm => ?_, fun m q hq hqcharge => ha.saved m q (hsaved m q hq hqcharge) hqcharge,
    fun q hq hqcharge => ?_, ?_, ?_⟩
  · obtain ⟨q, y, hq, hy, hqcharge, hget⟩ := ha.wrote m hm
    obtain ⟨hlt, -⟩ := List.getElem?_eq_some_iff.mp hget
    exact ⟨q, y, h.made _ _ hq, hy, hqcharge, by rw [hlog, List.getElem?_append_left hlt, hget]⟩
  · rw [hinflight] at hq
    obtain ⟨m, e, hm⟩ := ha.inflight q hq hqcharge
    exact ⟨m, e, h.made _ _ hm⟩
  · rw [ha.count, hlog, charges_append, hcharge]
    rfl
  · have hzero : p.change.mutations = 0 := by
      cases hp : p.change with
      | charge now mutationCount =>
        rw [hp] at hcharge
        cases hcharge
      | create | close => rfl
    rw [h.sum ha, ha.sum, hlog, mutations_append, hzero]
    rfl

/-- What an answer does to the meters. -/
theorem meters_of_replies {c : Call} {y : Answer c} {w w' : World} (h : Replies c w y w') :
    (w'.meters = w.meters ∧ ∀ id p x, (⟨c, y⟩ : Σ c, Answer c) ≠ ⟨.putMeter id p, x⟩)
    ∨ ∃ id p x meter, (⟨c, y⟩ : Σ c, Answer c) = ⟨.putMeter id p, x⟩ ∧ (w.meters id).Puts p x meter
      ∧ w'.meters = Function.update w.meters id meter := by
  cases h with
  | @putMeter _ id p x meter hputs => exact .inr ⟨id, p, x, meter, rfl, hputs, rfl⟩
  | now | newSessionId | putLedger | requestCreate | stops | stopFailsLate | dateNow | readLedger
  | readLedgerFails | readMeter | readMeterFails | create | launch | get | stopFails | fetch
  | boundedJson =>
    exact .inl ⟨rfl, fun _ _ _ heq => by cases heq⟩

theorem extends_of_tells {starts : Async Call Answer Unit → Prop}
    (hstep : (machine rules starts).Tells (Method.program deps) s s') : Extends s s' := by
  refine ⟨fun n entry hmade => ?_, fun n method => Story.label_tells hstep⟩
  rcases Story.made_tells hstep with ⟨m, c, x, -, hiff⟩ | ⟨-, hiff⟩
  · exact (hiff n entry).mpr (.inl hmade)
  · exact (hiff n entry).mpr hmade

/-- **A write of the meter is answered.** -/
theorem Authored.puts (ha : Authored s id committed) (h : Extends s s')
    (ht : s'.Tracked (Method.program deps))
    {meter : History MeterChange SessionMeter} (hputs : (s.world.meters id).Puts p x meter)
    (hmeter : s'.world.meters id = meter)
    (hmade : ∀ m entry, s'.Made m entry ↔ s.Made m entry ∨ (m = n ∧ entry = ⟨.putMeter id p, x⟩)) :
    ∃ committed', committed ⊆ committed' ∧ Authored s' id committed' := by
  have hthis : s'.Made n ⟨.putMeter id p, x⟩ := (hmade _ _).mpr (.inr ⟨rfl, rfl⟩)
  have hsaved : ∀ m q, s'.Made m ⟨.putMeter id q, .ok true⟩ → q.change.chargedAt ≠ none →
      s.Made m ⟨.putMeter id q, .ok true⟩ ∨ (m = n ∧ q = p ∧ x = .ok true) := by
    intro m q hq _
    rcases (hmade _ _).mp hq with hold | ⟨hm, hentry⟩
    · exact .inl hold
    · cases hentry
      exact .inr ⟨hm, rfl, rfl⟩
  cases hputs with
  | saved hexpected =>
    have hlog : meterLog s' id = meterLog s id ++ [⟨p.change, p.value⟩] := by
      rw [meterLog, hmeter, log_append]
      rfl
    have hinflight : (s'.world.meters id).inflight = (s.world.meters id).inflight := by
      rw [hmeter]
      rfl
    -- Only a write that charges adds a call to those that made one.
    by_cases hcharge : p.change.chargedAt = none
    · refine ⟨committed, subset_rfl, ha.other h hlog hcharge (fun m q hq hqcharge => ?_) hinflight⟩
      rcases hsaved m q hq hqcharge with hold | ⟨-, rfl, -⟩
      · exact hold
      · exact absurd hcharge hqcharge
    · refine ⟨insert n committed, Finset.subset_insert _ _,
        ha.charge h ht hlog hexpected hcharge hthis rfl (fun m q hq hqcharge => ?_) hinflight⟩
      exact (hsaved m q hq hqcharge).imp_right And.left
  | refused =>
    refine ⟨committed, subset_rfl,
      ha.keep h (by rw [meterLog, hmeter]; rfl) (fun m q hq hqcharge => ?_)
      fun q hq => .inl (hmeter ▸ hq)⟩
    exact (hsaved m q hq hqcharge).elim (fun hold => hold) fun ⟨_, _, hfalse⟩ => by cases hfalse
  | lost e =>
    refine ⟨committed, subset_rfl,
      ha.keep h (by rw [meterLog, hmeter]; rfl) (fun m q hq hqcharge => ?_) fun q hq => ?_⟩
    · exact (hsaved m q hq hqcharge).elim (fun hold => hold) fun ⟨_, _, hfalse⟩ => by cases hfalse
    · rw [hmeter] at hq
      rcases List.mem_cons.mp hq with rfl | hq
      · exact .inr ⟨n, e, hthis⟩
      · exact .inl hq

/-- **A write of the meter takes effect late.** -/
theorem Authored.lands (ha : Authored s id committed) (h : Extends s s')
    (ht : s'.Tracked (Method.program deps))
    {meter : History MeterChange SessionMeter} (hlands : (s.world.meters id).Lands p meter)
    (hmeter : s'.world.meters id = meter) (hmade : ∀ m entry, s'.Made m entry ↔ s.Made m entry) :
    ∃ committed', committed ⊆ committed' ∧ Authored s' id committed' := by
  cases hlands with
  | late hmem hexpected =>
    have hlog : meterLog s' id = meterLog s id ++ [⟨p.change, p.value⟩] := by
      rw [meterLog, hmeter, log_append]
      rfl
    have hinflight : (s'.world.meters id).inflight = (s.world.meters id).inflight := by
      rw [hmeter]
      rfl
    by_cases hcharge : p.change.chargedAt = none
    · exact ⟨committed, subset_rfl,
        ha.other h hlog hcharge (fun m q hq _ => (hmade _ _).mp hq) hinflight⟩
    · obtain ⟨m, e, hm⟩ := ha.inflight p hmem hcharge
      exact ⟨insert m committed, Finset.subset_insert _ _,
        ha.charge h ht hlog hexpected hcharge (h.made _ _ hm) rfl
          (fun k q hq _ => .inl ((hmade _ _).mp hq)) hinflight⟩

/-- Nothing happens to the meter. -/
theorem Authored.same (ha : Authored s id committed) (h : Extends s s')
    (hmeter : s'.world.meters id = s.world.meters id)
    (hmade : ∀ m p, s'.Made m ⟨.putMeter id p, .ok true⟩ → s.Made m ⟨.putMeter id p, .ok true⟩) :
    Authored s' id committed :=
  ha.keep h (by rw [meterLog, hmeter]; rfl) (fun m p hq _ => hmade m p hq) fun q hq =>
    .inl (hmeter ▸ hq)

/-- **One moment**: the charges of a meter remain those of the calls that made them. -/
theorem Authored.tells {starts : Async Call Answer Unit → Prop} (ha : Authored s id committed)
    (ht : s'.Tracked (Method.program deps))
    (hstep : (machine rules starts).Tells (Method.program deps) s s') :
    ∃ committed', committed ⊆ committed' ∧ Authored s' id committed' := by
  have h := extends_of_tells hstep
  rcases Story.made_tells hstep with ⟨m, c, y, ⟨hreplies, -⟩, hmade⟩
    | ⟨hworld | ⟨d, hdrifts⟩, hmade⟩
  · rcases meters_of_replies hreplies with ⟨hmeters, hno⟩
      | ⟨id', p, x, meter, hentry, hputs, hmeters⟩
    · refine ⟨committed, subset_rfl, ha.same h (by rw [hmeters]) fun k q hq => ?_⟩
      exact ((hmade _ _).mp hq).elim (fun hold => hold) fun ⟨_, heq⟩ => absurd heq.symm (hno _ _ _)
    · rw [hentry] at hmade
      by_cases hid : id = id'
      · subst hid
        exact ha.puts h ht hputs (by rw [hmeters, Function.update_self]) hmade
      · refine ⟨committed, subset_rfl,
          ha.same h (by rw [hmeters, Function.update_of_ne hid]) fun k q hq => ?_⟩
        refine ((hmade _ _).mp hq).elim (fun hold => hold) fun ⟨_, heq⟩ => ?_
        cases heq
        exact absurd rfl hid
  · exact ⟨committed, subset_rfl, ha.same h (by rw [hworld]) fun k q hq => (hmade _ _).mp hq⟩
  · have hsame : s'.world.meters id = s.world.meters id →
        ∃ committed', committed ⊆ committed' ∧ Authored s' id committed' := fun heq =>
      ⟨committed, subset_rfl, ha.same h heq fun k q hq => (hmade _ _).mp hq⟩
    generalize hw' : s'.world = w' at hdrifts
    have hmeter : s'.world.meters id = w'.meters id := by rw [hw']
    cases hdrifts with
    | ledger | born | died => exact hsame hmeter
    | @meter _ id' p meter hlands =>
      by_cases hid : id = id'
      · subst hid
        exact ha.lands h ht hlands (hmeter.trans (Function.update_self ..)) hmade
      · exact hsame (hmeter.trans (Function.update_of_ne hid ..))

/-! ## All interleavings -/

theorem steady_steady : Steady steady := fun _ _ _ h => h

variable {clock : Instant}

theorem tracked_of_told
    (h : (machine rules (Starts deps)).Told (Method.program deps) (begun clock) s) :
    s.Tracked (Method.program deps) :=
  Story.Tracked.told (fun _ he => (List.not_mem_nil he).elim) h

theorem authored_of_told
    (h : (machine rules (Starts deps)).Told (Method.program deps) (begun clock) s)
    (id : SessionId) : ∃ committed, Authored s id committed := by
  induction h with
  | refl =>
    refine ⟨∅, fun n hn => by simp at hn, fun n p hmade => ?_, fun p hp => ?_, rfl, rfl⟩
    · obtain ⟨e, he, -⟩ := hmade
      cases he
    · cases hp
  | tail hsteps hstep ih =>
    obtain ⟨committed, ha⟩ := ih
    obtain ⟨committed', -, ha'⟩ := ha.tells (tracked_of_told (hsteps.tail hstep)) hstep
    exact ⟨committed', ha'⟩

/-- The `charge` of a call returned this record: a part of what the call did is a run of it to its
end. -/
def ChargeReturned (deps : Deps) (s : BrokerStory) (n : Nat) (input : ChargeInput)
    (record : SessionRecord) : Prop :=
  ∃ e tr, s.calls[n]? = some e ∧ e.label.charge? = some input ∧ tr <+: e.trace
    ∧ Ends (deps.charge input.id input.visitorHash input.kind input.mutationCount).run tr
      (.ok record)

/-- The charge of a call is in the history of the meter. -/
def ChargeCommitted (s : BrokerStory) (id : SessionId) (n : Nat) : Prop :=
  ∃ e input p now x, s.calls[n]? = some e ∧ e.label.charge? = some input ∧ input.id = id
    ∧ p.change = .charge now input.mutationCount ∧ ⟨.putMeter id p, x⟩ ∈ e.trace
      ∧ unrefused x = true
    ∧ (meterLog s id)[version p.expected]? = some ⟨p.change, p.value⟩

/-- What the meters of a run say. -/
structure Metering (deps : Deps) (s : BrokerStory) : Prop where
  /-- the totals of a meter are those of the calls whose charge took effect, among them all that
  returned -/
  totals : ∀ id, ∃ committed : Finset Nat, (∀ n ∈ committed, ChargeCommitted s id n)
    ∧ (∀ n input record, ChargeReturned deps s n input record → input.id = id →
      record.meterVersion = some 1 → n ∈ committed)
    ∧ committed.card = charges (meterLog s id) (fun _ => true)
    ∧ ∀ v, (meterLog s id).getLast? = some v → v.value.forwardedTotal = committed.card
      ∧ v.value.mutationTotal = ∑ n ∈ committed, mutationCountOf s n
      ∧ v.value.forwardedTotal ≤ deps.limits.requestsTotal
      ∧ v.value.mutationTotal ≤ deps.limits.mutationsTotal
  minutes : ∀ id k, chargesIn (meterLog s id) k ≤ deps.limits.requestsPerMinute
  closed : ∀ id l v r, meterLog s id = l ++ v :: r → v.value.opened = false →
    ∀ u ∈ r, u.value.opened = false ∧ u.change.chargedAt = none
  ready : ∀ id r, s.world.sessionLedger.sessions.get? id = some r → r.status = .ready →
    ∃ v runtimeId, (meterLog s id).getLast? = some v ∧ r.runtimeId = some runtimeId
      ∧ BoundTo v.value r runtimeId
  forwards : ∀ e ∈ s.calls, Trace.forwards e.trace ≤ Trace.charges e.trace saved
    ∧ Trace.charges e.trace saved ≤ 1

theorem Authored.stands (ha : Authored s id committed) (ht : s.Tracked (Method.program deps))
    (hn : n ∈ committed) : ChargeCommitted s id n := by
  obtain ⟨p, x, ⟨e, he, hmem⟩, hx, hcharge, hget⟩ := ha.wrote n hn
  obtain ⟨method, input, hlabel, hinput, hid, hcount⟩ := label_of_made ht ⟨e, he, hmem⟩ hcharge
  rw [he] at hlabel
  cases hlabel
  cases hp : p.change with
  | charge now mutationCount =>
    rw [hp] at hcount
    refine ⟨e, input, p, now, x, he, hinput, hid, ?_, hmem, hx, hget⟩
    rw [hp, hcount]
    rfl
  | create | close =>
    rw [hp] at hcharge
    exact absurd rfl hcharge

/-- A charge that returned was saved. -/
theorem Authored.returned (ha : Authored s id committed) {input : ChargeInput}
    {record : SessionRecord}
    (hreturned : ChargeReturned deps s n input record) (hid : input.id = id)
    (hversion : record.meterVersion = some 1) : n ∈ committed := by
  obtain ⟨e, tr, he, -, htr, hends⟩ := hreturned
  obtain ⟨haccepts, hpaid⟩ := Monitor.Obeys.ends gives_charge_once hends
  have hafter : (payments (some (input.id, input.mutationCount))).after .unpaid tr
      = .paid record.meterVersion.isSome := hpaid
  rw [hversion] at hafter
  obtain ⟨id', mutationCount, p, now, hinput, hchange, hmem⟩ := saved_of_paid haccepts nofun hafter
  cases hinput
  rw [hid] at hmem
  exact ha.saved n p ⟨e, he, htr.subset hmem⟩ (by rw [hchange]; nofun)

theorem saved_le_unrefused (tr : Trace) : tr.charges saved ≤ tr.charges unrefused := by
  refine List.countP_mono_left fun entry _ h => ?_
  obtain ⟨x, hx, hsaved⟩ := (Option.any_eq_true _ _).mp h
  refine (Option.any_eq_true _ _).mpr ⟨x, hx, ?_⟩
  cases x with
  | ok b => exact hsaved
  | error e => rfl

/-- **Metering loses and duplicates nothing**, in any interleaving of broker calls with a clock that
does not go back. -/
theorem sessions_metered
    (h : (machine steady (Starts deps)).Told (Method.program deps) (begun clock) s) :
    Metering deps s := by
  have hi : Inv deps steady s.world := (ownership_sound (h.steps (Method.starts deps))).inv
  have ht := tracked_of_told h
  have hmeters : ∀ id, MeterHistory deps.limits (Steady steady) id (meterLog s id) := fun id =>
    meterHistory_of_legal (hi.meters id).legal
  refine ⟨fun id => ?_, fun id k => ?_, fun id => (hmeters id).closed,
    fun id r hr hready => ?_, fun e he => ?_⟩
  · obtain ⟨committed, ha⟩ := authored_of_told h id
    refine ⟨committed, fun n hn => ha.stands ht hn, fun n input record => ha.returned,
      ha.count, fun v hv => ?_⟩
    obtain ⟨hforwarded, hforwarded_le, hmutation, hmutation_le⟩ := (hmeters id).metered v hv
    exact ⟨hforwarded.trans ha.count.symm, hmutation.trans ha.sum.symm, hforwarded_le, hmutation_le⟩
  · cases hlast : (meterLog s id).getLast? with
    | none =>
      rw [List.getLast?_eq_none_iff.mp hlast]
      exact Nat.zero_le _
    | some v => exact ((hmeters id).windowed steady_steady v hlast).within k
  · have hshape := hi.logShape id r hr
    obtain ⟨runtimeId, hruntime⟩ := Option.ne_none_iff_exists'.mp (hshape.ready hready)
    obtain ⟨-, u, hu, hbound⟩ := (hi.known id r hr).bound runtimeId hruntime
    rw [hshape.keyed] at hu
    have hne : meterLog s id ≠ [] := by
      intro hnil
      rw [show (s.world.meters id).log = [] from hnil] at hu
      cases hu
    -- the meter is still bound as it was created
    have hsame := (hmeters id).bound u hu _ (List.getLast_mem hne)
    exact ⟨_, runtimeId, List.getLast?_eq_some_getLast hne, hruntime,
      ⟨hsame.id.trans hbound.id, hsame.visitorHash.trans hbound.visitorHash,
        hsame.kind.trans hbound.kind,
        hsame.providerName.trans hbound.providerName, hsame.runtimeId.trans hbound.runtimeId,
        hsame.expiresAt.trans hbound.expiresAt⟩⟩
  · obtain ⟨hone, hforwards⟩ := counts_of_accepts (accepts_of_tracked ht he)
    simp only [true_or, if_true, Nat.add_zero] at hone hforwards
    exact ⟨hforwards, (saved_le_unrefused e.trace).trans hone⟩

/-- The answers of a schedule, for a story. -/
def answersOf (as : List (Entry (machine steady (Starts sampleDeps)) Hint)) :
    List (Telling Method Drift Hint) :=
  as.filterMap (Entry.telling Method)

/-- A guided session is started, and two requests for its state are charged and passed on. -/
def twoCharges : List (Telling Method Drift Hint) :=
  .start (.start 1 sampleVisitor sampleVisitor .guided none) :: answersOf (guidedStart steady)
  ++ [.start (.proxy stateRequest), .start (.proxy stateRequest)]
  ++ answersOf (stateCharged 1 ++ stateCharged 2)
  ++ [.reply 1 (.response (.ok ⟨200⟩)), .reply 2 (.response (.ok ⟨200⟩))]

/-- Two charges, each of one call that has passed on one request. -/
theorem sessions_metered_sample : ∃ s : BrokerStory,
    (machine steady (Starts sampleDeps)).Told (Method.program sampleDeps) (begun midday) s
      ∧ ((meterLog s 1).getLast?.any fun v => v.value.forwardedTotal = 2)
      ∧ s.calls.map (fun e => Trace.forwards e.trace) = [0, 1, 1] ∧ Metering sampleDeps s := by
  have htell : ((player steady (Starts sampleDeps) steadyLegal steady_of_legal).tellAll
      (Method.program sampleDeps) (begun midday) twoCharges).any (fun s =>
        ((meterLog s 1).getLast?.any fun v => v.value.forwardedTotal = 2)
          && s.calls.map (fun e => Trace.forwards e.trace) = [0, 1, 1]) = true := by
    decide +kernel
  obtain ⟨s, hs, hfacts⟩ := (Option.any_eq_true _ _).mp htell
  obtain ⟨htotal, hforwards⟩ := Bool.and_eq_true_iff.mp hfacts
  have htold := Player.told_of_tellAll hs
  exact ⟨s, htold, htotal, of_decide_eq_true hforwards, sessions_metered htold⟩

end Broker

end DividendX
