import DividendX.Gateway.Server

/-!
# Lifecycle and admission of the gateway

Slots, the queue of mutations and the phases of a gateway, in any order of events. A handler holds
its slot until it has answered; an operation in the queue runs after those before it have settled;
and the phase only moves on: from starting to ready or away, and from ready away for good.
-/

namespace DividendX

namespace Gateway

open JsonValue
open Broker (Route SandboxKind sessionRoute)

/-! ## Phases -/

/-- A phase may come after another. -/
def Phase.Leads (a b : Phase) : Prop := b = a ∨ b ≠ .starting ∧ (b = .ready → a = .starting)

namespace Phase.Leads

theorem refl (a : Phase) : Leads a a := .inl rfl

theorem trans {a b c : Phase} (h : Leads a b) (h' : Leads b c) : Leads a c := by
  rcases h' with rfl | ⟨hstarting, hready⟩
  · exact h
  · refine .inr ⟨hstarting, fun hc => ?_⟩
    have hb := hready hc
    rcases h with rfl | ⟨hnot, -⟩
    · exact hb
    · exact absurd hb hnot

/-- A gateway that has left `ready` is not ready again. -/
theorem left {a b : Phase} (h : Leads .ready a) (h' : Leads a b)
    (ha : a ≠ .ready) : b ≠ .ready := by
  rintro rfl
  rcases h' with heq | ⟨-, hstarting⟩
  · exact ha heq.symm
  · rcases h with heq | ⟨hnot, -⟩
    · exact ha heq
    · exact hnot (hstarting rfl)

end Phase.Leads

namespace HostedGateway

variable {p : Platform} {s s' : HostedGateway} {e : Event} {i : Nat} {h old n : Handler}

/-- A gateway that fails leaves the phases of a healthy one. -/
theorem leads_fail {phase : Phase} (hphase : phase ≠ .starting ∧ phase ≠ .ready) :
    s.phase.Leads (s.fail phase).phase := by
  simp only [fail]
  split
  · exact .refl _
  · exact .inr ⟨hphase.1, fun heq => absurd heq hphase.2⟩

/-- A gateway that closes does too. -/
theorem leads_close : s.phase.Leads s.close.phase := by
  simp only [close]
  split
  · exact .refl _
  · exact .inr ⟨by simp, by simp⟩

/-- And one that expires. -/
theorem leads_expire : s.phase.Leads s.expire.phase := by
  simp only [expire]
  split
  · exact .refl _
  · exact .inr ⟨by simp, by simp⟩

/-- `discover` makes a gateway ready that is still starting. -/
theorem leads_found {runtimeId : Option JsonValue} {identity : Identity} :
    s.phase.Leads (s.found runtimeId identity).phase := by
  simp only [found]
  split
  · rename_i hstarting
    exact .inr ⟨by simp, fun _ => hstarting⟩
  · exact .refl _

end HostedGateway

/-! ## Slots and the queue -/

namespace Place

/-- The handler has answered. -/
def isFinished : Place → Bool
  | .finished _ _ => true
  | _ => false

/-- The operation of the handler is still to run. -/
def isQueued : Place → Bool
  | .queued => true
  | _ => false

/-- The handler awaits the body of its request. -/
def isReading : Place → Bool
  | .reading => true
  | _ => false

end Place

namespace Handler

/-- A handler that keeps its slot. -/
def holds (h : Handler) : Bool := !h.place.isFinished

/-- A handler that `mutationCount` counts. -/
def counted (h : Handler) : Bool := h.mutation && !h.place.isFinished

/-- A mutation that waits for its turn, or whose operation runs. -/
def underWay (h : Handler) : Bool := h.mutation && !h.place.isOver

/-- A guided start that was forwarded. -/
def started (h : Handler) : Bool := h.route = .start && h.forwarded

end Handler

namespace HostedGateway

variable {p : Platform} {s s' : HostedGateway} {i : Nat} {h old n : Handler}

/-- The counters count, and the chain is in order. -/
structure Sound (s : HostedGateway) : Prop where
  inflight : s.inflight = (s.handlers.countP Handler.holds : Int)
  mutations : s.mutationCount = (s.handlers.countP Handler.counted : Int)
  slots : s.inflight ≤ MAX_INFLIGHT
  full : s.mutationCount ≤ MAX_MUTATIONS
  chained : ∀ {i}, i ∈ s.chain ↔ ∃ h, s.handlers[i]? = some h ∧ h.mutation = true
  once : s.chain.Nodup
  unread : ∀ h ∈ s.handlers, h.place.isReading = true → h.mutation = false ∧ h.forwarded = false
  waits : ∀ h ∈ s.handlers, h.place.isQueued = true → h.mutation = true
  order : ∀ {j k a b : Nat} {ha hb : Handler}, j < k → s.chain[j]? = some a → s.chain[k]? = some b →
    s.handlers[a]? = some ha → s.handlers[b]? = some hb → hb.place.isQueued = false →
    ha.place.isOver = true
  kinds : ∀ h ∈ s.handlers, h.mutation = true ∨ h.forwarded = true →
    isMutation h.route h.envelope = h.mutation
  routes : ∀ h ∈ s.handlers, h.route = .start → s.kind = .guided
  starts : s.handlers.countP Handler.started ≤ if s.guidedStartClaimed then 1 else 0

/-- A handler moves on, perhaps to its end. -/
structure Moves (s : HostedGateway) (i : Nat) (old n : Handler) : Prop where
  found : s.handlers[i]? = some old
  unfinished : old.place.isFinished = false
  route : n.route = old.route
  mutation : n.mutation = old.mutation
  ended : old.place.isOver = true → n.place.isOver = true
  queued : n.place.isQueued = true → old.place.isQueued = true
  read : n.place.isReading = false
  turn : old.place.isQueued = true → n.place.isQueued = false →
    ∀ {j k a : Nat} {ha : Handler}, j < k →
    s.chain[j]? = some a → s.chain[k]? = some i → s.handlers[a]? = some ha → ha.place.isOver = true
  kind : n.mutation = true ∨ n.forwarded = true → isMutation n.route n.envelope = n.mutation

/-- What is counted when one handler is replaced. -/
theorem countP_set {l : List Handler} {i : Nat} {old n : Handler} (hold : l[i]? = some old)
    (q : Handler → Bool) : ((l.set i n).countP q : Int) =
      l.countP q - (if q old then 1 else 0) + (if q n then 1 else 0) := by
  obtain ⟨hlt, hget⟩ := List.getElem?_eq_some_iff.mp hold
  have hpos : (if q old then 1 else 0) ≤ l.countP q := by
    split
    · rename_i hq
      exact List.countP_pos_iff.mpr ⟨old, List.mem_of_getElem? hold, hq⟩
    · exact Nat.zero_le _
  rw [List.countP_set hlt, hget]
  push_cast [hpos]
  rfl

/-- A handler is replaced, the others stay. -/
theorem getElem?_put {l : List Handler} (hold : l[i]? = some old) (j : Nat) :
    (l.set i n)[j]? = if j = i then some n else l[j]? := by
  obtain ⟨hlt, -⟩ := List.getElem?_eq_some_iff.mp hold
  rw [List.getElem?_set]
  by_cases hj : i = j
  · subst hj
    simp [hlt]
  · simp [hj, Ne.symm hj]

/-- What holds of every handler holds after one of them has moved. -/
theorem forall_put {l : List Handler} {P : Handler → Prop} (hall : ∀ h ∈ l, P h) (hnew : P n) :
    ∀ h ∈ l.set i n, P h := by
  intro h hmem
  rcases List.mem_or_eq_of_mem_set hmem with hmem | rfl
  · exact hall h hmem
  · exact hnew

/-- **One handler moves on.** -/
theorem Sound.move (hs : Sound s) (hm : Moves s i old n)
    (hhandlers : s'.handlers = s.handlers.set i n) (hchain : s'.chain = s.chain)
    (hkind : s'.kind = s.kind)
    (hinflight : s'.inflight = s.inflight - if n.place.isFinished then 1 else 0)
    (hcount : s'.mutationCount = s.mutationCount
      - if n.place.isFinished = true ∧ n.mutation = true then 1 else 0)
    (hstarted : n.started = true → old.started = true ∨
      s.guidedStartClaimed = false ∧ s'.guidedStartClaimed = true)
    (hclaimed : s.guidedStartClaimed = true → s'.guidedStartClaimed = true) : Sound s' := by
  have hmem := List.mem_of_getElem? hm.found
  have hset := fun q => countP_set (n := n) hm.found q
  refine ⟨?_, ?_, ?_, ?_, fun {j} => ?_, ?_, ?_, ?_, ?_, ?_, ?_, ?_⟩
  · rw [hinflight, hs.inflight, hhandlers, hset]
    cases hfinished : n.place.isFinished <;> simp [Handler.holds, hm.unfinished, hfinished]
  · rw [hcount, hs.mutations, hhandlers, hset]
    cases hfinished : n.place.isFinished <;> cases hmutation : old.mutation <;>
      simp [Handler.counted, hm.unfinished, hm.mutation, hfinished, hmutation]
  · have hle := hs.slots
    rw [hinflight]
    split <;> omega
  · have hle := hs.full
    rw [hcount]
    split <;> omega
  · rw [hchain, hs.chained, hhandlers, getElem?_put hm.found]
    by_cases hj : j = i
    · subst hj
      simp [hm.found, hm.mutation]
    · simp [hj]
  · rw [hchain]
    exact hs.once
  · rw [hhandlers]
    refine forall_put hs.unread fun hreading => ?_
    rw [hm.read] at hreading
    cases hreading
  · rw [hhandlers]
    refine forall_put hs.waits fun hqueued => ?_
    rw [hm.mutation]
    exact hs.waits old hmem (hm.queued hqueued)
  · intro j k a b ha hb hjk hj hk hga hgb hqueued
    rw [hchain] at hj hk
    rw [hhandlers, getElem?_put hm.found] at hga hgb
    -- first what the later one says about the earlier one as it was
    have hover : ∀ ha', s.handlers[a]? = some ha' → ha'.place.isOver = true := by
      intro ha' hga'
      split at hgb
      · rename_i hb'
        cases hgb
        rw [hb'] at hk
        cases hold : old.place.isQueued with
        | true => exact hm.turn hold hqueued hjk hj hk hga'
        | false => exact hs.order hjk hj hk hga' hm.found hold
      · exact hs.order hjk hj hk hga' hgb hqueued
    split at hga
    · rename_i ha'
      cases hga
      rw [ha'] at hover
      exact hm.ended (hover old hm.found)
    · exact hover ha hga
  · rw [hhandlers]
    exact forall_put hs.kinds hm.kind
  · rw [hhandlers, hkind]
    refine forall_put hs.routes fun hroute => ?_
    rw [hm.route] at hroute
    exact hs.routes old hmem hroute
  · have hle := hs.starts
    have hcountP := hset Handler.started
    rw [hhandlers]
    cases hnew : n.started with
    | false =>
      have hless : ((s.handlers.set i n).countP Handler.started : Int)
          ≤ s.handlers.countP Handler.started := by
        rw [hcountP, hnew]
        split <;> simp
      have hmono : (if s.guidedStartClaimed then 1 else 0) ≤
          if s'.guidedStartClaimed then 1 else 0 := by
        cases hc : s.guidedStartClaimed with
        | true => simp [hclaimed hc]
        | false => simp
      omega
    | true =>
      rw [hnew] at hcountP
      rcases hstarted hnew with hold | ⟨hbefore, hafter⟩
      · have hmono : (if s.guidedStartClaimed then 1 else 0) ≤
            if s'.guidedStartClaimed then 1 else 0 := by
          cases hc : s.guidedStartClaimed with
          | true => simp [hclaimed hc]
          | false => simp
        simp only [hold, if_true] at hcountP
        omega
      · simp only [hbefore, Bool.false_eq_true, if_false] at hle
        simp only [hafter, if_true]
        simp only [if_true] at hcountP
        split at hcountP <;> omega

/-- Handlers, counters and the chain are as they were. -/
structure Quiet (s s' : HostedGateway) : Prop where
  handlers : s'.handlers = s.handlers
  chain : s'.chain = s.chain
  kind : s'.kind = s.kind
  inflight : s'.inflight = s.inflight
  mutationCount : s'.mutationCount = s.mutationCount
  guidedStartClaimed : s'.guidedStartClaimed = s.guidedStartClaimed

/-- What touches no handler and no slot keeps the state sound. -/
theorem Sound.quiet (hs : Sound s) (hq : Quiet s s') : Sound s' := by
  obtain ⟨hhandlers, hchain, hkind, hinflight, hcount, hclaimed⟩ := hq
  obtain ⟨h₁, h₂, h₃, h₄, h₅, h₆, h₇, h₈, h₉, h₁₀, h₁₁, h₁₂⟩ := hs
  refine ⟨?_, ?_, ?_, ?_, fun {j} => ?_, ?_, ?_, ?_, ?_, ?_, ?_, ?_⟩
  · rwa [hinflight, hhandlers]
  · rwa [hcount, hhandlers]
  · rwa [hinflight]
  · rwa [hcount]
  · rw [hchain, hhandlers]
    exact h₅
  · rwa [hchain]
  · rwa [hhandlers]
  · rwa [hhandlers]
  · rw [hchain, hhandlers]
    exact h₉
  · rwa [hhandlers]
  · rwa [hhandlers, hkind]
  · rwa [hhandlers, hclaimed]

theorem quiet_fail (phase : Phase) : Quiet s (s.fail phase) := by
  simp only [fail]
  split <;> exact ⟨rfl, rfl, rfl, rfl, rfl, rfl⟩

theorem quiet_loop : Quiet s s.loop := by
  obtain ⟨h₁, h₂, h₃, h₄, h₅, h₆⟩ := quiet_fail (s := s) .startupFailed
  simp only [loop]
  split_ifs
  · exact ⟨rfl, rfl, rfl, rfl, rfl, rfl⟩
  · exact ⟨h₁, h₂, h₃, h₄, h₅, h₆⟩
  · exact ⟨rfl, rfl, rfl, rfl, rfl, rfl⟩

theorem quiet_close : Quiet s s.close := by
  simp only [close]
  split <;> exact ⟨rfl, rfl, rfl, rfl, rfl, rfl⟩

theorem quiet_expire : Quiet s s.expire := by
  simp only [expire]
  split <;> exact ⟨rfl, rfl, rfl, rfl, rfl, rfl⟩

/-- A handler that is about to run its operation, perhaps with what it has just read. -/
structure Operating (s : HostedGateway) (i : Nat) (old h : Handler) : Prop where
  found : s.handlers[i]? = some old
  before : old.place.isOver = false
  route : h.route = old.route
  mutation : h.mutation = old.mutation
  forwarded : h.forwarded = old.forwarded
  kind : isMutation h.route h.envelope = h.mutation
  turn : old.place.isQueued = true → ∀ {j k a : Nat} {ha : Handler}, j < k →
    s.chain[j]? = some a → s.chain[k]? = some i → s.handlers[a]? = some ha → ha.place.isOver = true

/-- Who is not past its operation has not answered. -/
theorem Place.unfinished {place : Place} (h : place.isOver = false) : place.isFinished = false := by
  cases place with
  | finished => cases h
  | _ => rfl

/-- The handler of a running operation moves on. -/
theorem Operating.moves (ho : Operating s i old h) (hroute : n.route = h.route)
    (henvelope : n.envelope = h.envelope) (hmutation : n.mutation = h.mutation)
    (hqueued : n.place.isQueued = false) (hread : n.place.isReading = false) : Moves s i old n where
  found := ho.found
  unfinished := Place.unfinished ho.before
  route := hroute.trans ho.route
  mutation := hmutation.trans ho.mutation
  ended := by
    rw [ho.before]
    intro hfalse
    cases hfalse
  queued := by
    rw [hqueued]
    intro hfalse
    cases hfalse
  read := hread
  turn := fun hold _ => ho.turn hold
  kind := by
    intro _
    rw [hroute, henvelope, hmutation]
    exact ho.kind

/-- The operation has settled, without a start that was forwarded. -/
theorem Sound.settle (hs : Sound s) (ho : Operating s i old h) (hq : Quiet s s')
    (result : Except Failure Unit) :
    Sound (s'.settle i h result) := by
  refine hs.move (ho.moves (n := { h with place := .returned result }) rfl rfl rfl rfl rfl) ?_
    hq.chain hq.kind
    ?_ ?_ (fun hstarted => .inl ?_) fun hclaimed => ?_
  · simp only [HostedGateway.settle, put, hq.handlers]
  · simpa [HostedGateway.settle, put, Place.isFinished] using hq.inflight
  · simpa [HostedGateway.settle, put, Place.isFinished] using hq.mutationCount
  · rw [← hstarted]
    simp only [Handler.started, ho.route, ho.forwarded]
  · exact hq.guidedStartClaimed.trans hclaimed

/-- An operation is forwarded; a start only by the one who claims it. -/
theorem Sound.forward (hs : Sound s) (ho : Operating s i old h)
    (hstart : h.route = .start → s.guidedStartClaimed = false) :
    Sound
      ({ s with guidedStartClaimed := s.guidedStartClaimed
        || decide (h.route = Route.start) }.forward i h) := by
  have hmoved : ∀ {place : Place}, place.isQueued = false → place.isReading = false →
      place.isFinished = false → Sound
        ({ s with guidedStartClaimed := s.guidedStartClaimed
          || decide (h.route = Route.start) }.put i
        { h with forwarded := true, place := place }) := by
    intro place hqueued hread hfinished
    refine hs.move
      (ho.moves (n := { h with forwarded := true, place := place }) rfl rfl rfl hqueued hread) rfl
      rfl rfl ?_ ?_ (fun hstarted => .inr ?_) fun hclaimed => ?_
    · simp [put, hfinished]
    · simp [put, hfinished]
    · have hroute : h.route = .start := by simpa [Handler.started] using hstarted
      exact ⟨hstart hroute, by simp [put, hroute]⟩
    · simp [put, hclaimed]
  simp only [HostedGateway.forward]
  split
  · exact hmoved rfl rfl rfl
  · exact hmoved rfl rfl rfl

/-- An operation runs, and forwards its request or throws. -/
theorem Sound.operate (hs : Sound s) (ho : Operating s i old h) : Sound (s.operate i h) := by
  have hquiet : Quiet s s := ⟨rfl, rfl, rfl, rfl, rfl, rfl⟩
  have hroute : h.route = .start → s.kind = .guided := by
    rw [ho.route]
    exact hs.routes old (List.mem_of_getElem? ho.found)
  simp only [HostedGateway.operate]
  split_ifs with hphase hexpired hguided hclaimed
  · exact hs.settle ho hquiet _
  · exact hs.settle ho quiet_expire _
  · exact hs.settle ho hquiet _
  · have hforward := hs.forward ho fun _ => by simpa using hclaimed
    simpa [hguided.2] using hforward
  · -- any other route
    have hnot : h.route ≠ .start := fun hstart => hguided ⟨hroute hstart, hstart⟩
    have hforward := hs.forward ho fun hstart => absurd hstart hnot
    simpa [hnot] using hforward

/-- Only guided gateways have a start. -/
theorem routeOf_start {kind : SandboxKind} {method url : String}
    (h : routeOf kind method url = some .start) : kind = .guided := by
  have hfound := List.find?_some h
  cases kind with
  | guided => rfl
  | wallet => simp [sessionRoute] at hfound

/-- What is admitted: a route of this kind, while the gateway is ready and has a slot. -/
theorem admission_eq_ok {r : Request} {route : Route} (h : s.admission r = .ok route) :
    s.phase = .ready ∧ s.inflight < MAX_INFLIGHT ∧ routeOf s.kind r.method r.url = some route := by
  simp only [admission, Result.bind_eq_ok, Result.exists_unit, Result.require_eq_ok,
    Result.okOr_eq_ok] at h
  exact ⟨h.1, not_le.mp h.2.1, h.2.2⟩

/-- **A slot is taken.** -/
theorem Sound.reserve (hs : Sound s) {r : Request} {route : Route}
    (hadmitted : s.admission r = .ok route) :
    Sound (s.reserve route) := by
  obtain ⟨-, hfree, hroute⟩ := admission_eq_ok hadmitted
  -- The new handler is no mutation and stands in no queue, so whatever is either was there before.
  have hget : ∀ {j : Nat} {h : Handler}, h.mutation = true ∨ h.place.isQueued = false
      ∧ j < s.handlers.length →
      (s.reserve route).handlers[j]? = some h → s.handlers[j]? = some h := by
    intro j h hold hj
    rw [HostedGateway.reserve, List.getElem?_append] at hj
    split at hj
    · exact hj
    · rename_i hge
      rw [List.getElem?_singleton] at hj
      split at hj
      · cases hj
        rcases hold with hmutation | ⟨-, hlt⟩
        · cases hmutation
        · exact absurd hlt hge
      · cases hj
  have hbefore : ∀ {j : Nat}, j ∈ s.chain → j < s.handlers.length := by
    intro j hj
    obtain ⟨h, hh, -⟩ := hs.chained.mp hj
    exact (List.getElem?_eq_some_iff.mp hh).1
  have hsame : ∀ {j : Nat}, j < s.handlers.length →
      (s.reserve route).handlers[j]? = s.handlers[j]? := by
    intro j hj
    rw [HostedGateway.reserve, List.getElem?_append_left hj]
  refine ⟨?_, ?_, ?_, hs.full, fun {j} => ⟨fun hj => ?_, ?_⟩, hs.once, ?_, ?_, ?_, ?_, ?_, ?_⟩
  · have hcount := hs.inflight
    simp [HostedGateway.reserve, Handler.holds, Place.isFinished] at hcount ⊢
    omega
  · simpa [HostedGateway.reserve, Handler.counted] using hs.mutations
  · simp only [HostedGateway.reserve]
    omega
  · obtain ⟨h, hh, hmutation⟩ := hs.chained.mp hj
    exact ⟨h, (hsame (hbefore hj)).trans hh, hmutation⟩
  · rintro ⟨h, hh, hmutation⟩
    exact hs.chained.mpr ⟨h, hget (.inl hmutation) hh, hmutation⟩
  · intro h hmem hreading
    rcases List.mem_append.mp hmem with hmem | hmem
    · exact hs.unread h hmem hreading
    · rw [List.mem_singleton.mp hmem]
      exact ⟨rfl, rfl⟩
  · intro h hmem hqueued
    rcases List.mem_append.mp hmem with hmem | hmem
    · exact hs.waits h hmem hqueued
    · rw [List.mem_singleton.mp hmem] at hqueued
      cases hqueued
  · intro j k a b ha hb hjk hj hk hga hgb hqueued
    rw [hsame (hbefore (List.mem_of_getElem? hj))] at hga
    rw [hsame (hbefore (List.mem_of_getElem? hk))] at hgb
    exact hs.order hjk hj hk hga hgb hqueued
  · intro h hmem hkind
    rcases List.mem_append.mp hmem with hmem | hmem
    · exact hs.kinds h hmem hkind
    · rw [List.mem_singleton.mp hmem] at hkind
      simp at hkind
  · intro h hmem hstart
    rcases List.mem_append.mp hmem with hmem | hmem
    · exact hs.routes h hmem hstart
    · rw [List.mem_singleton.mp hmem] at hstart
      dsimp only at hstart
      rw [hstart] at hroute
      exact routeOf_start hroute
  · have hcount : (s.reserve route).handlers.countP Handler.started
        = s.handlers.countP Handler.started := by
      simp [HostedGateway.reserve, Handler.started]
    rw [hcount]
    exact hs.starts

/-- A handler whose operation was never run. -/
structure Unread (s : HostedGateway) (i : Nat) (old h : Handler) : Prop where
  found : s.handlers[i]? = some old
  place : old.place = .reading
  route : h.route = old.route
  mutation : h.mutation = false ∧ old.mutation = false
  forwarded : h.forwarded = false ∧ old.forwarded = false

/-- A handler that has not been read in ends with an error. -/
theorem Sound.throws (hs : Sound s) (hu : Unread s i old h)
    (e : Failure) : Sound (s.throws i h e) := by
  have hm :
      Moves s i old { h with place := .finished (s.answerOf e).1 (some (s.answerOf e).2) } := by
    refine ⟨hu.found, ?_, hu.route, hu.mutation.1.trans hu.mutation.2.symm,
      fun _ => rfl, ?_, rfl, ?_, ?_⟩
    · simp [hu.place, Place.isFinished]
    · simp [Place.isQueued]
    · simp [hu.place, Place.isQueued]
    · simp [hu.mutation.1, hu.forwarded.1]
  refine hs.move hm rfl rfl rfl rfl ?_ (fun hstarted => ?_) id
  · simp [HostedGateway.throws, finish, put, hu.mutation.1]
  · simp [Handler.started, hu.forwarded.1] at hstarted

/-- **A mutation is queued**, or turned away. -/
theorem Sound.mutate (hs : Sound s) (hu : Unread s i old h)
    (hkind : isMutation h.route h.envelope = true) :
    Sound (s.mutate i h) := by
  simp only [HostedGateway.mutate]
  split_ifs with hfull
  · exact hs.throws hu _
  · have hset := fun q => countP_set (n := { h with mutation := true, place := .queued }) hu.found q
    have hmem := List.mem_of_getElem? hu.found
    have hfresh : i ∉ s.chain := by
      intro hi
      obtain ⟨h', hh', hmutation⟩ := hs.chained.mp hi
      rw [hu.found] at hh'
      cases hh'
      rw [hu.mutation.2] at hmutation
      cases hmutation
    refine ⟨?_, ?_, hs.slots, ?_, fun {j} => ?_, ?_, ?_, ?_, ?_, ?_, ?_, ?_⟩
    · have hcount := hset Handler.holds
      simp only [Handler.holds, hu.place, Place.isFinished] at hcount
      simp only [put]
      rw [hs.inflight, hcount]
      simp
    · have hcount := hset Handler.counted
      simp only [put]
      rw [hcount, hs.mutations]
      simp [Handler.counted, hu.mutation.2, Place.isFinished]
    · simp only [MAX_MUTATIONS] at hfull ⊢
      omega
    · simp only [put, List.mem_append, List.mem_singleton, getElem?_put hu.found]
      by_cases hj : j = i
      · simp [hj]
      · simp [hj, hs.chained]
    · exact hs.once.append (List.nodup_singleton i) (by simpa using hfresh)
    · refine forall_put hs.unread fun hreading => ?_
      cases hreading
    · exact forall_put hs.waits fun _ => rfl
    · intro j k a b ha hb hjk hj hk hga hgb hqueued
      simp only [put, getElem?_put hu.found] at hga hgb
      have hkb : b ≠ i := by
        intro hbi
        rw [if_pos hbi] at hgb
        cases hgb
        cases hqueued
      rw [if_neg hkb] at hgb
      -- the last one in the chain is still queued
      have hklt : k < s.chain.length := by
        by_contra hge
        rw [List.getElem?_append_right (not_lt.mp hge), List.getElem?_singleton] at hk
        split at hk
        · cases hk
          exact hkb rfl
        · cases hk
      rw [List.getElem?_append_left hklt] at hk
      rw [List.getElem?_append_left (hjk.trans hklt)] at hj
      have hai : a ≠ i := by
        rintro rfl
        exact hfresh (List.mem_of_getElem? hj)
      rw [if_neg hai] at hga
      exact hs.order hjk hj hk hga hgb hqueued
    · exact forall_put hs.kinds fun _ => hkind
    · exact forall_put hs.routes fun hstart => hs.routes old hmem (hu.route ▸ hstart)
    · have hcount := hset Handler.started
      have hold : old.started = false := by simp [Handler.started, hu.forwarded.2]
      have hnew : ({ h with mutation := true, place := .queued } : Handler).started = false := by
        simp [Handler.started, hu.forwarded.1]
      rw [hold, hnew] at hcount
      have hsame :
          (s.handlers.set i { h with mutation := true, place := .queued }).countP Handler.started =
          s.handlers.countP Handler.started := by
        simp only [Bool.false_eq_true, if_false] at hcount
        omega
      simp only [put]
      rw [hsame]
      exact hs.starts

/-- A handler whose operation runs stays in it, or comes to its end. -/
theorem Sound.goOn (hs : Sound s) (hq : Quiet s s') (hfound : s.handlers[i]? = some old)
    (hrunning : old.place.isOver = false ∧ old.place.isQueued = false)
    (hsame : n.route = old.route ∧ n.envelope = old.envelope ∧ n.mutation = old.mutation
      ∧ n.forwarded = old.forwarded)
    (hplace : n.place.isQueued = false ∧ n.place.isFinished = false ∧ n.place.isReading = false) :
    Sound (s'.put i n) := by
  obtain ⟨hroute, henvelope, hmutation, hforwarded⟩ := hsame
  have hm : Moves s i old n := by
    refine ⟨hfound, Place.unfinished hrunning.1, hroute, hmutation, ?_, ?_,
      hplace.2.2, ?_, fun hkind => ?_⟩
    · simp [hrunning.1]
    · simp [hplace.1]
    · simp [hrunning.2]
    · rw [hmutation, hforwarded] at hkind
      rw [hroute, henvelope, hmutation]
      exact hs.kinds old (List.mem_of_getElem? hfound) hkind
  refine hs.move hm ?_ hq.chain hq.kind ?_ ?_ (fun hstarted => .inl ?_) fun hclaimed => ?_
  · simp only [put, hq.handlers]
  · simpa [put, hplace.2.1] using hq.inflight
  · simpa [put, hplace.2.1] using hq.mutationCount
  · simpa [Handler.started, hroute, hforwarded] using hstarted
  · exact hq.guidedStartClaimed.trans hclaimed

theorem Quiet.refl (s : HostedGateway) : Quiet s s := ⟨rfl, rfl, rfl, rfl, rfl, rfl⟩

/-- The child answers a forwarded request. -/
theorem Sound.replied (hs : Sound s) (hfound : s.handlers[i]? = some h)
    (hplace : h.place = .forwarding)
    (reply : Reply) : Sound (s.replied p i h reply) := by
  have hrunning : h.place.isOver = false ∧ h.place.isQueued = false := by
    simp [hplace, Place.isOver, Place.isQueued]
  have hgo : ∀ {n : Handler}, (n.route = h.route ∧ n.envelope = h.envelope ∧ n.mutation = h.mutation
      ∧ n.forwarded = h.forwarded) → (n.place.isQueued = false ∧ n.place.isFinished = false
      ∧ n.place.isReading = false) → Sound (s.put i n) := fun hsame hnew =>
        hs.goOn (.refl s) hfound hrunning hsame hnew
  have hself : h.route = h.route ∧ h.envelope = h.envelope ∧ h.mutation = h.mutation
      ∧ h.forwarded = h.forwarded := ⟨rfl, rfl, rfl, rfl⟩
  simp only [HostedGateway.replied, HostedGateway.settle]
  split
  · exact hgo hself ⟨rfl, rfl, rfl⟩
  · exact hgo hself ⟨rfl, rfl, rfl⟩
  · split
    · exact hgo hself ⟨rfl, rfl, rfl⟩
    · split
      · exact hgo hself ⟨rfl, rfl, rfl⟩
      · split
        · exact hgo hself ⟨rfl, rfl, rfl⟩
        · split
          · split <;> exact hgo hself ⟨rfl, rfl, rfl⟩
          · exact hgo hself ⟨rfl, rfl, rfl⟩
          · exact hgo hself ⟨rfl, rfl, rfl⟩
          · exact hgo hself ⟨rfl, rfl, rfl⟩
          · split <;> exact hgo hself ⟨rfl, rfl, rfl⟩
          · split <;> exact hgo hself ⟨rfl, rfl, rfl⟩
          · exact hgo hself ⟨rfl, rfl, rfl⟩

/-- A handler goes on where it waits. -/
theorem Sound.proceed (hs : Sound s) (hfound : s.handlers[i]? = some h)
    (hstep : s.proceed p i h = some s') :
    Sound s' := by
  simp only [HostedGateway.proceed, HostedGateway.settle] at hstep
  split at hstep
  · rename_i hplace
    cases hstep
    exact hs.goOn (.refl s) hfound (by simp [hplace, Place.isOver, Place.isQueued])
      ⟨rfl, rfl, rfl, rfl⟩ ⟨rfl, rfl, rfl⟩
  · rename_i hplace
    have hrunning : h.place.isOver = false ∧ h.place.isQueued = false := by
      simp [hplace, Place.isOver, Place.isQueued]
    split at hstep
    · cases hstep
      exact hs.goOn (.refl s) hfound hrunning ⟨rfl, rfl, rfl, rfl⟩ ⟨rfl, rfl, rfl⟩
    · cases hstep
      exact hs.goOn (.refl s) hfound hrunning ⟨rfl, rfl, rfl, rfl⟩ ⟨rfl, rfl, rfl⟩
    · cases hstep
      exact hs.goOn ⟨rfl, rfl, rfl, rfl, rfl, rfl⟩ hfound hrunning
        ⟨rfl, rfl, rfl, rfl⟩ ⟨rfl, rfl, rfl⟩
  · rename_i hplace
    cases hstep
    exact hs.goOn ⟨rfl, rfl, rfl, rfl, rfl, rfl⟩ hfound
      (by simp [hplace, Place.isOver, Place.isQueued])
      ⟨rfl, rfl, rfl, rfl⟩ ⟨rfl, rfl, rfl⟩
  · rename_i hplace
    cases hstep
    exact hs.goOn (quiet_fail _) hfound (by simp [hplace, Place.isOver, Place.isQueued])
      ⟨rfl, rfl, rfl, rfl⟩
      ⟨rfl, rfl, rfl⟩
  · cases hstep

/-- A verification is answered. -/
theorem Sound.answered (hs : Sound s) (hfound : s.handlers[i]? = some h) {v : Verification}
    {values : List JsonValue} (hplace : h.place = .verifying v values) (reply : Reply) :
    Sound (s.answered i h v values reply) := by
  have hrunning : h.place.isOver = false ∧ h.place.isQueued = false := by
    simp [hplace, Place.isOver, Place.isQueued]
  simp only [HostedGateway.answered]
  split
  · exact hs.goOn (.refl s) hfound hrunning ⟨rfl, rfl, rfl, rfl⟩ ⟨rfl, rfl, rfl⟩
  · exact hs.goOn (.refl s) hfound hrunning ⟨rfl, rfl, rfl, rfl⟩ ⟨rfl, rfl, rfl⟩
  · exact hs.goOn ⟨rfl, rfl, rfl, rfl, rfl, rfl⟩ hfound hrunning ⟨rfl, rfl, rfl, rfl⟩
      ⟨rfl, rfl, rfl⟩

/-- **A slot is given back**, and a mutation is no longer counted. -/
theorem Sound.resume (hs : Sound s) (hfound : s.handlers[i]? = some h)
    {result : Except Failure Unit}
    (hplace : h.place = .returned result) : Sound (s.resume i h result) := by
  have hfinish : ∀ status error, Sound ({ s with
      mutationCount :=
        if h.mutation then s.mutationCount - 1 else s.mutationCount }.finish i h status error) := by
    intro status error
    have hm : Moves s i h { h with place := .finished status error } := by
      refine ⟨hfound, ?_, rfl, rfl, fun _ => rfl, ?_, rfl, ?_, ?_⟩
      · simp [hplace, Place.isFinished]
      · simp [Place.isQueued]
      · simp [hplace, Place.isQueued]
      · exact hs.kinds h (List.mem_of_getElem? hfound)
    refine hs.move hm rfl rfl rfl rfl ?_ (fun hstarted => .inl hstarted) id
    cases hmutation : h.mutation <;> simp [finish, put, hmutation, Place.isFinished]
  simp only [HostedGateway.resume]
  split
  · exact hfinish _ _
  · split
    · exact hfinish _ _
    · exact hfinish _ _

/-- A body was read. -/
theorem Sound.received (hs : Sound s) (hfound : s.handlers[i]? = some h)
    (hplace : h.place = .reading)
    (body : BodyRead) : Sound (s.received p i h body) := by
  have hnew := hs.unread h (List.mem_of_getElem? hfound) (by simp [hplace, Place.isReading])
  have hunread : ∀ envelope, Unread s i h { h with envelope := envelope } := fun envelope =>
    ⟨hfound, hplace, rfl, ⟨hnew.1, hnew.1⟩, ⟨hnew.2, hnew.2⟩⟩
  simp only [HostedGateway.received]
  split
  · exact hs.throws (hunread h.envelope) _
  · rename_i envelope _
    split_ifs with hmutation
    · exact hs.mutate (hunread envelope) hmutation
    · refine hs.operate ⟨hfound, ?_, rfl, rfl, rfl, ?_, ?_⟩
      · simp [hplace, Place.isOver]
      · simp only [hnew.1]
        simpa using hmutation
      · simp [hplace, Place.isQueued]

/-- Without a body only a POST is a mutation. -/
theorem isMutation_routeOf {kind : SandboxKind} {method url : String} {route : Route}
    (h : routeOf kind method url = some route) (hmethod : method ≠ "POST") :
    isMutation route none = false := by
  have hfound := List.find?_some h
  simp only [hmethod, and_false, or_false, decide_eq_true_eq] at hfound
  obtain ⟨-, hget, -⟩ := hfound
  cases kind <;> cases route <;> simp [sessionRoute] at hget <;> rfl

/-- A request arrives. -/
theorem Sound.handle (hs : Sound s) (r : Request) : Sound (s.handle r) := by
  simp only [HostedGateway.handle]
  split_ifs
  · exact hs
  · exact hs.quiet quiet_expire
  · exact hs
  · split
    · exact hs
    · rename_i route hadmitted
      have hreserved := hs.reserve hadmitted
      have hfound : (s.reserve route).handlers[s.handlers.length]?
          = some { route := route, place := .reading } := by
        simp [HostedGateway.reserve]
      have hunread : Unread (s.reserve route) s.handlers.length
          { route := route, place := .reading }
          { route := route, place := .reading } := ⟨hfound, rfl, rfl, ⟨rfl, rfl⟩, ⟨rfl, rfl⟩⟩
      simp only [begin]
      split_ifs with hpost
      · split
        · exact hreserved.throws hunread _
        · exact hreserved
      · exact hreserved.throws hunread _
      · refine hreserved.operate ⟨hfound, rfl, rfl, rfl, rfl, ?_, by simp [Place.isQueued]⟩
        exact isMutation_routeOf (admission_eq_ok hadmitted).2.2 hpost

/-- **Every event keeps the counters and the order of the queue.** -/
theorem Sound.step (hs : Sound s) {e : Event} (hstep : s.step p e = some s') : Sound s' := by
  cases e with
  | request r =>
    cases hstep
    exact hs.handle r
  | body i body =>
    simp only [HostedGateway.step] at hstep
    split at hstep
    · split at hstep
      · cases hstep
        exact hs.received ‹_› ‹_› body
      · cases hstep
    · cases hstep
  | turn k =>
    simp only [HostedGateway.step] at hstep
    split at hstep
    · rename_i i hk
      split at hstep
      · rename_i h hfound
        split at hstep
        · rename_i hplace
          split_ifs at hstep with hnext
          cases hstep
          have hmem := List.mem_of_getElem? hfound
          have hmutation := hs.waits h hmem (by simp [hplace, Place.isQueued])
          refine hs.operate ⟨hfound, by simp [hplace, Place.isOver], rfl, rfl, rfl, ?_, fun _ => ?_⟩
          · exact hs.kinds h hmem (.inl hmutation)
          · intro j k' a ha hjk hj hk' hga
            -- the chain names every handler once
            have hkk : k' = k := by
              obtain ⟨hlt, heq⟩ := List.getElem?_eq_some_iff.mp hk
              obtain ⟨hlt', heq'⟩ := List.getElem?_eq_some_iff.mp hk'
              exact (hs.once.getElem_inj_iff).mp (heq'.trans heq.symm)
            subst hkk
            cases k' with
            | zero => exact absurd hjk (Nat.not_lt_zero j)
            | succ k =>
              simp only [isNext, Option.any_eq_true, Option.bind_eq_some_iff] at hnext
              obtain ⟨h', ⟨b, hb, hgb⟩, hover⟩ := hnext
              rcases (Nat.lt_succ_iff.mp hjk).eq_or_lt with rfl | hlt
              · rw [hj] at hb
                cases hb
                rw [hga] at hgb
                cases hgb
                exact hover
              · have hnot : h'.place.isQueued = false := by
                  cases hp : h'.place <;> simp [hp, Place.isOver, Place.isQueued] at hover ⊢
                exact hs.order hlt hj hb hga hgb hnot
        · cases hstep
      · cases hstep
    · cases hstep
  | reply i reply =>
    simp only [HostedGateway.step] at hstep
    split at hstep
    · split at hstep
      · cases hstep
        exact hs.replied ‹_› ‹_› reply
      · cases hstep
    · cases hstep
  | proceed i =>
    simp only [HostedGateway.step] at hstep
    split at hstep
    · exact hs.proceed ‹_› hstep
    · cases hstep
  | rpc i reply =>
    simp only [HostedGateway.step] at hstep
    split at hstep
    · split at hstep
      · cases hstep
        exact hs.answered ‹_› ‹_› reply
      · cases hstep
    · cases hstep
  | resume i =>
    simp only [HostedGateway.step] at hstep
    split at hstep
    · split at hstep
      · cases hstep
        exact hs.resume ‹_› ‹_›
      · cases hstep
    · cases hstep
  | discovered reply =>
    simp only [HostedGateway.step] at hstep
    split at hstep
    · cases hstep
      refine hs.quiet ?_
      simp only [HostedGateway.discovered, verifyRpc, found]
      repeat' split
      all_goals exact ⟨rfl, rfl, rfl, rfl, rfl, rfl⟩
    · cases hstep
  | discoveredRpc reply =>
    simp only [HostedGateway.step] at hstep
    split at hstep
    · cases hstep
      refine hs.quiet ?_
      simp only [HostedGateway.discoveredRpc]
      split <;> exact ⟨rfl, rfl, rfl, rfl, rfl, rfl⟩
    · cases hstep
  | discovers =>
    simp only [HostedGateway.step] at hstep
    split at hstep
    · cases hstep
      exact hs.quiet quiet_loop
    · cases hstep
      exact hs.quiet ⟨rfl, rfl, rfl, rfl, rfl, rfl⟩
    · cases hstep
  | childExited =>
    simp only [HostedGateway.step] at hstep
    split at hstep
    · cases hstep
    · cases hstep
      exact hs.quiet (quiet_fail _)
  | timer =>
    simp only [HostedGateway.step] at hstep
    split at hstep
    · cases hstep
    · cases hstep
      exact hs.quiet quiet_expire
  | close =>
    cases hstep
    exact hs.quiet quiet_close
  | clock now =>
    cases hstep
    exact hs.quiet ⟨rfl, rfl, rfl, rfl, rfl, rfl⟩

/-! ## What an event does -/

/-- Nothing is forwarded. -/
def Fresh (s s' : HostedGateway) : Prop :=
  ∀ (i : Nat) (h' : Handler), s'.handlers[i]? = some h' → h'.forwarded = true →
    ∃ h : Handler, s.handlers[i]? = some h ∧ h.forwarded = true

/-- The phase moves on, the chain grows, and what is forwarded is forwarded by a ready gateway in
time. -/
structure Effect (s s' : HostedGateway) : Prop where
  leads : s.phase.Leads s'.phase
  chain : s.chain <+: s'.chain
  forwards : Fresh s s' ∨ s.phase = .ready ∧ s.now < s.expiresAtMs

theorem Fresh.of_eq (h : s'.handlers = s.handlers) : Fresh s s' := by
  intro i h' hh' hforwarded
  rw [h] at hh'
  exact ⟨h', hh', hforwarded⟩

/-- Nothing new is forwarded if the handler says so. -/
theorem Fresh.of_put (hfound : s.handlers[i]? = some old)
    (hhandlers : s'.handlers = s.handlers.set i n)
    (hforwarded : n.forwarded = old.forwarded) : Fresh s s' := by
  intro j h' hh' hj
  rw [hhandlers, getElem?_put hfound] at hh'
  split at hh'
  · rename_i hji
    cases hh'
    rw [hforwarded] at hj
    exact ⟨old, by rw [hji, hfound], hj⟩
  · exact ⟨h', hh', hj⟩

/-- A handler moves on, and nothing else. -/
theorem Effect.of_put (hfound : s.handlers[i]? = some old)
    (hhandlers : s'.handlers = s.handlers.set i n)
    (hforwarded : n.forwarded = old.forwarded) (hphase : s'.phase = s.phase)
    (hchain : s.chain <+: s'.chain) :
    Effect s s' :=
  ⟨.inl hphase, hchain, .inl (.of_put hfound hhandlers hforwarded)⟩

/-- What touches no handler has no effect on any. -/
theorem Effect.quiet (hq : Quiet s s') (hleads : s.phase.Leads s'.phase) : Effect s s' :=
  ⟨hleads, hq.chain ▸ List.prefix_rfl, .inl (.of_eq hq.handlers)⟩

/-- What is forwarded is forwarded by a ready gateway, in time. -/
theorem effect_forward (hsame : s'.phase = s.phase ∧ s'.chain = s.chain)
    (hready : s.phase = .ready ∧ s.now < s.expiresAtMs) : Effect s (s'.forward i h) := by
  have hforward : (s'.forward i h).phase = s'.phase ∧ (s'.forward i h).chain = s'.chain := by
    simp only [HostedGateway.forward, HostedGateway.settle, put]
    split <;> exact ⟨rfl, rfl⟩
  refine ⟨.inl (hforward.1.trans hsame.1), ?_, .inr hready⟩
  rw [hforward.2, hsame.2]

/-- An operation forwards by itself only while the gateway is ready and in time. -/
theorem effect_operate (hfound : s.handlers[i]? = some old)
    (hforwarded : h.forwarded = old.forwarded) :
    Effect s (s.operate i h) := by
  simp only [HostedGateway.operate]
  split_ifs with hphase hexpired hguided hclaimed
  · exact .of_put (n := { h with place := _ }) hfound rfl hforwarded rfl List.prefix_rfl
  · have hq := quiet_expire (s := s)
    refine ⟨leads_expire, hq.chain ▸ List.prefix_rfl, .inl (.of_put
      (n := { h with place := .returned (.error unavailable) }) hfound ?_ hforwarded)⟩
    simp only [HostedGateway.settle, put, hq.handlers]
  · exact .of_put (n := { h with place := _ }) hfound rfl hforwarded rfl List.prefix_rfl
  · exact effect_forward ⟨rfl, rfl⟩ ⟨not_not.mp hphase, not_le.mp hexpired⟩
  · exact effect_forward ⟨rfl, rfl⟩ ⟨not_not.mp hphase, not_le.mp hexpired⟩

/-- A request that arrives is not forwarded yet. -/
theorem effect_handle (r : Request) : Effect s (s.handle r) := by
  simp only [HostedGateway.handle]
  split_ifs
  · exact .quiet (.refl s) (.refl _)
  · exact .quiet quiet_expire leads_expire
  · exact .quiet (.refl s) (.refl _)
  · split
    · exact .quiet (.refl s) (.refl _)
    · rename_i route hadmitted
      have hfound : (s.reserve route).handlers[s.handlers.length]?
          = some { route := route, place := .reading } := by
        simp [HostedGateway.reserve]
      have hfresh : Fresh s (s.reserve route) := by
        intro j h' hh' hforwarded
        rw [HostedGateway.reserve, List.getElem?_append] at hh'
        split at hh'
        · exact ⟨h', hh', hforwarded⟩
        · rw [List.getElem?_singleton] at hh'
          split at hh'
          · cases hh'
            cases hforwarded
          · cases hh'
      -- what `begin` does to the fresh handler, seen from before it was there
      have hafter : ∀ {t : HostedGateway}, Effect (s.reserve route) t → Effect s t := by
        intro t ht
        refine ⟨ht.leads, ht.chain, ht.forwards.imp_left fun h => ?_⟩
        intro j h' hh' hforwarded
        obtain ⟨h'', hh'', hforwarded'⟩ := h j h' hh' hforwarded
        exact hfresh j h'' hh'' hforwarded'
      refine hafter ?_
      simp only [begin]
      split_ifs
      · split
        · exact .of_put
            (n := { ({ route := route, place := .reading } : Handler) with place := _ }) hfound
            rfl rfl rfl List.prefix_rfl
        · exact .quiet (.refl _) (.refl _)
      · exact .of_put
          (n := { ({ route := route, place := .reading } : Handler) with place := _ }) hfound
          rfl rfl rfl List.prefix_rfl
      · exact effect_operate hfound rfl

/-- A body that was read forwards nothing by itself. -/
theorem effect_received (hfound : s.handlers[i]? = some h) (body : BodyRead) :
    Effect s (s.received p i h body) := by
  simp only [HostedGateway.received]
  split
  · exact .of_put (n := { h with place := _ }) hfound rfl rfl rfl List.prefix_rfl
  · rename_i envelope _
    split_ifs
    · simp only [HostedGateway.mutate]
      split_ifs
      · exact .of_put (n := { h with envelope := envelope, place := _ })
          hfound rfl rfl rfl List.prefix_rfl
      · exact .of_put (n := { h with envelope := envelope, mutation := true, place := _ })
          hfound rfl rfl rfl
          (List.prefix_append _ _)
    · exact effect_operate hfound rfl

/-- An answer of the child forwards nothing. -/
theorem effect_replied (hfound : s.handlers[i]? = some h) (reply : Reply) :
    Effect s (s.replied p i h reply) := by
  have hput : ∀ {n : Handler}, n.forwarded = h.forwarded → Effect s (s.put i n) := fun hforwarded =>
    .of_put hfound rfl hforwarded rfl List.prefix_rfl
  simp only [HostedGateway.replied, HostedGateway.settle]
  split
  · exact hput rfl
  · exact hput rfl
  · split
    · exact hput rfl
    · split
      · exact hput rfl
      · split
        · exact hput rfl
        · split
          · split <;> exact hput rfl
          · exact hput rfl
          · exact hput rfl
          · exact hput rfl
          · split <;> exact hput rfl
          · split <;> exact hput rfl
          · exact hput rfl

/-- A handler that goes on forwards at most its own request. -/
theorem effect_proceed (hfound : s.handlers[i]? = some h) (hstep : s.proceed p i h = some s') :
    Effect s s' := by
  simp only [HostedGateway.proceed, HostedGateway.settle] at hstep
  split at hstep
  · cases hstep
    exact .of_put (n := { h with place := _ }) hfound rfl rfl rfl List.prefix_rfl
  · split at hstep
    · cases hstep
      exact .of_put (n := { h with place := _ }) hfound rfl rfl rfl List.prefix_rfl
    · cases hstep
      exact .of_put (n := { h with place := _ }) hfound rfl rfl rfl List.prefix_rfl
    · cases hstep
      exact .of_put (n := { h with place := _ }) hfound rfl rfl rfl List.prefix_rfl
  · cases hstep
    exact .of_put (n := { h with place := _ }) hfound rfl rfl rfl List.prefix_rfl
  · cases hstep
    have hq := quiet_fail (s := s) .identityFailed
    refine ⟨leads_fail (by simp), hq.chain ▸ List.prefix_rfl, .inl (.of_put
      (n := { h with place := .returned (.error unavailable) }) hfound ?_ rfl)⟩
    simp only [put, hq.handlers]
  · cases hstep

/-- **What any event does.** -/
theorem effect_step {e : Event} (hstep : s.step p e = some s') : Effect s s' := by
  cases e with
  | request r =>
    cases hstep
    exact effect_handle r
  | body i body =>
    simp only [HostedGateway.step] at hstep
    split at hstep
    · split at hstep
      · cases hstep
        exact effect_received ‹_› body
      · cases hstep
    · cases hstep
  | turn k =>
    simp only [HostedGateway.step] at hstep
    split at hstep
    · split at hstep
      · split at hstep
        · split_ifs at hstep
          cases hstep
          exact effect_operate ‹_› rfl
        · cases hstep
      · cases hstep
    · cases hstep
  | reply i reply =>
    simp only [HostedGateway.step] at hstep
    split at hstep
    · split at hstep
      · cases hstep
        exact effect_replied ‹_› reply
      · cases hstep
    · cases hstep
  | proceed i =>
    simp only [HostedGateway.step] at hstep
    split at hstep
    · exact effect_proceed ‹_› hstep
    · cases hstep
  | rpc i reply =>
    simp only [HostedGateway.step] at hstep
    split at hstep
    · rename_i h hfound
      split at hstep
      · cases hstep
        -- whatever the answer, only this handler's place changes
        simp only [HostedGateway.answered]
        split
        · exact .of_put (n := { h with place := _ }) hfound rfl rfl rfl List.prefix_rfl
        · exact .of_put (n := { h with place := _ }) hfound rfl rfl rfl List.prefix_rfl
        · exact .of_put (n := { h with place := _ }) hfound rfl rfl rfl List.prefix_rfl
      · cases hstep
    · cases hstep
  | resume i =>
    simp only [HostedGateway.step] at hstep
    split at hstep
    · rename_i h hfound
      split at hstep
      · cases hstep
        simp only [HostedGateway.resume]
        split
        · exact .of_put (n := { h with place := _ }) hfound rfl rfl rfl List.prefix_rfl
        · split
          · exact .of_put (n := { h with place := _ }) hfound rfl rfl rfl List.prefix_rfl
          · exact .of_put (n := { h with place := _ }) hfound rfl rfl rfl List.prefix_rfl
      · cases hstep
    · cases hstep
  | discovered reply =>
    simp only [HostedGateway.step] at hstep
    split at hstep
    · cases hstep
      simp only [HostedGateway.discovered, verifyRpc]
      repeat' split
      all_goals first
        | exact .quiet ⟨rfl, rfl, rfl, rfl, rfl, rfl⟩ (.refl _)
        | exact .quiet ⟨rfl, rfl, rfl, rfl, rfl, rfl⟩ leads_found
    · cases hstep
  | discoveredRpc reply =>
    simp only [HostedGateway.step] at hstep
    split at hstep
    · cases hstep
      simp only [HostedGateway.discoveredRpc]
      split <;> exact .quiet ⟨rfl, rfl, rfl, rfl, rfl, rfl⟩ (.refl _)
    · cases hstep
  | discovers =>
    simp only [HostedGateway.step] at hstep
    split at hstep
    · cases hstep
      -- the loop of the discovery asks again, gives up, or is over
      refine .quiet quiet_loop ?_
      simp only [loop]
      split_ifs
      · exact .refl _
      · exact leads_fail (by simp)
      · exact .refl _
    · cases hstep
      exact .quiet ⟨rfl, rfl, rfl, rfl, rfl, rfl⟩ leads_found
    · cases hstep
  | childExited =>
    simp only [HostedGateway.step] at hstep
    split at hstep
    · cases hstep
    · cases hstep
      refine .quiet (quiet_fail _) (leads_fail ?_)
      split <;> simp
  | timer =>
    simp only [HostedGateway.step] at hstep
    split at hstep
    · cases hstep
    · cases hstep
      exact .quiet quiet_expire leads_expire
  | close =>
    cases hstep
    exact .quiet quiet_close leads_close
  | clock now =>
    cases hstep
    exact .quiet ⟨rfl, rfl, rfl, rfl, rfl, rfl⟩ (.refl _)

/-! ## Runs -/

/-- At the start there are no handlers. -/
theorem sound_start {config : Config} {now : Int} {spawned : Bool}
    (h : start config now spawned = some s) :
    Sound s := by
  have hempty : ∀ {t : HostedGateway}, t.handlers = [] → t.chain = [] →
      t.inflight = 0 → t.mutationCount = 0 → Sound t := by
    intro t hhandlers hchain hinflight hcount
    refine ⟨?_, ?_, ?_, ?_, fun {i} => ?_, ?_, ?_, ?_, ?_, ?_, ?_, ?_⟩
    all_goals simp [hhandlers, hchain, hinflight, hcount, MAX_INFLIGHT, MAX_MUTATIONS]
  simp only [start] at h
  split_ifs at h
  · rw [Option.some.injEq] at h
    subst h
    exact (hempty rfl rfl rfl rfl).quiet quiet_loop
  · rw [Option.some.injEq] at h
    subst h
    exact (hempty rfl rfl rfl rfl).quiet (quiet_fail _)

/-- Over a run the phase only moves on. -/
theorem leads_run {tr : List Event} (h : Run (step p) s tr s') : s.phase.Leads s'.phase := by
  induction h with
  | nil => exact .refl _
  | snoc _ hstep ih => exact ih.trans (effect_step hstep).leads

/-- A mutation under way is counted. -/
theorem Sound.underWay_le (hs : Sound s) : s.handlers.countP Handler.underWay ≤ 4 := by
  have hle : s.handlers.countP Handler.underWay ≤ s.handlers.countP Handler.counted := by
    refine List.countP_mono_left fun h _ hunder => ?_
    simp only [Handler.underWay, Bool.and_eq_true, Bool.not_eq_true'] at hunder
    simp [Handler.counted, hunder.1, Place.unfinished hunder.2]
  have hcount := hs.mutations
  have hfull := hs.full
  simp only [MAX_MUTATIONS] at hfull
  omega

/-- **Lifecycle and admission.** In every run of a gateway that was started:

* it becomes ready at most once, and once it has left that phase it is not ready again;
* a request is forwarded only while the gateway is ready and its session has not expired;
* mutations are queued in `chain`, at its end and once each; the operation of one runs only after
  those before it have settled, and at most four wait or run;
* `inflight` is the number of handlers with a slot, at most eight, and zero when all have answered;
* at most one guided start was forwarded.
-/
theorem gateway_lifecycle (p : Platform) {config : Config} {now : Int}
    {spawned : Bool} {s₀ : HostedGateway}
    (hstart : start config now spawned = some s₀) {tr : List Event} {s : HostedGateway}
    (hrun : Run (step p) s₀ tr s) :
    (∀ {e s₁ tr' s₂ e' s₃}, s.step p e = some s₁ → s.phase ≠ .ready → s₁.phase = .ready →
      Run (step p) s₁ tr' s₂ → s₂.step p e' = some s₃ → s₂.phase ≠ .ready → s₃.phase ≠ .ready)
    ∧ (∀ {tr' s₁ tr'' s₂}, s.phase = .ready → Run (step p) s tr' s₁ → s₁.phase ≠ .ready →
      Run (step p) s₁ tr'' s₂ → s₂.phase ≠ .ready)
    ∧ (∀ {e : Event} {s₁ : HostedGateway} {i : Nat} {h₁ : Handler},
      s.step p e = some s₁ → s₁.handlers[i]? = some h₁ → h₁.forwarded = true →
      (∀ h : Handler, s.handlers[i]? = some h → h.forwarded = false) →
        s.phase = .ready ∧ s.now < s.expiresAtMs)
    ∧ (∀ {j k a b : Nat} {ha hb : Handler}, j < k → s.chain[j]? = some a → s.chain[k]? = some b →
      s.handlers[a]? = some ha → s.handlers[b]? = some hb → hb.place.isQueued = false →
      ha.place.isOver = true)
    ∧ (∀ {e s₁}, s.step p e = some s₁ → s.chain <+: s₁.chain) ∧ s.chain.Nodup
    ∧ (∀ {i : Nat} {h : Handler}, s.handlers[i]? = some h → h.forwarded = true →
      isMutation h.route h.envelope = true → i ∈ s.chain)
    ∧ s.handlers.countP Handler.underWay ≤ 4
    ∧ s.inflight = s.handlers.countP Handler.holds ∧ s.inflight ≤ 8
    ∧ ((∀ h ∈ s.handlers, h.place.isFinished = true) → s.inflight = 0)
    ∧ s.handlers.countP Handler.started ≤ 1 := by
  have hs : Sound s := hrun.invariant (sound_start hstart) fun t e u ht hstep => ht.step hstep
  refine ⟨fun {e s₁ tr' s₂ e' s₃} _ _ hready hrun' hstep' hnot => ?_,
    fun {tr' s₁ tr'' s₂} hready hrun' hnot hrun'' => ?_,
    fun {e s₁ i h₁} hstep hh₁ hforwarded hbefore => ?_,
    fun hjk hj hk hga hgb => hs.order hjk hj hk hga hgb,
    fun hstep => (effect_step hstep).chain, hs.once, fun {i h} hh hforwarded hmutation => ?_,
    hs.underWay_le, hs.inflight, hs.slots, fun hall => ?_, ?_⟩
  · have hleads := leads_run hrun'
    rw [hready] at hleads
    exact hleads.left (effect_step hstep').leads hnot
  · have hleads := leads_run hrun'
    rw [hready] at hleads
    exact hleads.left (leads_run hrun'') hnot
  · -- Only a ready gateway whose session goes on forwards a handler that was not forwarded yet.
    rcases (effect_step hstep).forwards with hfresh | hready
    · obtain ⟨h, hh, htrue⟩ := hfresh i h₁ hh₁ hforwarded
      rw [hbefore h hh] at htrue
      cases htrue
    · exact hready
  · rw [hs.kinds h (List.mem_of_getElem? hh) (.inr hforwarded)] at hmutation
    exact hs.chained.mpr ⟨h, hh, hmutation⟩
  · have hzero : s.handlers.countP Handler.holds = 0 := by
      rw [List.countP_eq_zero]
      intro h hmem
      simp [Handler.holds, hall h hmem]
    rw [hs.inflight, hzero]
    rfl
  · have hle := hs.starts
    split at hle <;> omega

end HostedGateway

namespace Sample

/-- The addresses of two chains; nothing else is asked for here. -/
def platform : Platform where
  url value := match string? value with
    | some "http://127.0.0.1:19001/" => some
      { protocol := "http:", hostname := "127.0.0.1", port := some 19001,
        pathname := "/", username := ""
        password := "", search := "", hash := "", href := "http://127.0.0.1:19001/" }
    | some "http://127.0.0.1:19002/" => some
      { protocol := "http:", hostname := "127.0.0.1", port := some 19002,
        pathname := "/", username := ""
        password := "", search := "", hash := "", href := "http://127.0.0.1:19002/" }
    | _ => none
  text value := (string? value).getD "undefined"

/-- A guided gateway for a minute. -/
def config : Config where
  kind := .guided
  token := "aaaaaaaaaaaaaaaaaaaaaaaaaaaaaaaaaaaaaaaaaaaaaaaaaaaaaaaaaaaaaaaa"
  expiresAtMs := 60_000

/-- An authorized request. -/
def request (method url : String) (contentType : Option String) : Request where
  authorization := some ("Bearer " ++ config.token)
  method := method
  url := url
  contentType := contentType

/-- A guided state of a runtime. -/
def state (runtimeId status : String) : Reply :=
  .response 200 (some (.object [("schemaVersion", .number 4), ("runtimeId", .string runtimeId),
    ("status", .string status), ("asset", .null), ("snapshot", .null)]))

/-- The gateway gets ready and two steps are queued. What the runtime says to the first is another's
state, so that the gateway fails and the second is not forwarded. -/
def steps : List HostedGateway.Event :=
  [.discovered (state "guided-a" "idle"),
    .request (request "POST" "/step" (some "application/json")),
    .request (request "POST" "/step" (some "application/json")),
    .body 1 (.read 2 (some (.object []))), .body 0 (.read 2 (some (.object []))), .turn 0,
    .reply 1 (state "guided-b" "complete"), .proceed 1, .proceed 1, .turn 1, .resume 1, .resume 0]

end Sample

namespace HostedGateway

/-- Both have answered in the end, in the order in which their bodies were read. -/
theorem gateway_lifecycle_sample : ∃ s₀ s, start Sample.config 0 true = some s₀
    ∧ Run (step Sample.platform) s₀ Sample.steps s ∧ s.phase = .identityFailed ∧ s.chain = [1, 0]
    ∧ s.handlers.map Handler.forwarded = [false, true] ∧ s.inflight = 0 := by
  have hsample : (start Sample.config 0 true).any (fun s₀ =>
      (runAll (step Sample.platform) s₀ Sample.steps).any fun s =>
        s.phase = .identityFailed ∧ s.chain = [1, 0]
        ∧ s.handlers.map Handler.forwarded = [false, true]
        ∧ s.handlers.all (fun h => h.place.isFinished) = true) = true := by
    decide +kernel
  rw [Option.any_eq_true] at hsample
  obtain ⟨s₀, hstart, hsample⟩ := hsample
  rw [Option.any_eq_true] at hsample
  obtain ⟨s, hrun, hvalues⟩ := hsample
  obtain ⟨hready, hchain, hforwarded, hall⟩ := of_decide_eq_true hvalues
  have hrun := runAll_eq_some.mp hrun
  have hzero := (gateway_lifecycle Sample.platform hstart hrun).2.2.2.2.2.2.2.2.2.2.1
  exact ⟨s₀, s, hstart, hrun, hready, hchain, hforwarded, hzero (List.all_eq_true.mp hall)⟩

end HostedGateway

end Gateway

end DividendX
