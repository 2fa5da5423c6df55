import DividendX.Lib.Waiting
import Mathlib.Logic.Relation

/-!
# The browser's request slots

`RequestScheduler` of the wallet, `apps/web/src/wallet/runtime.ts`: at most `limit` requests at a
time, their starts an interval apart and not during a cooldown. A slot is granted with a function
that releases it; the function may be called any number of times.

As for the hosted service's scheduler, the state has the timers and the aborted signals around it,
the clock is a parameter that answers every read of `Date.now()`, and a waiter is numbered by
arrival. Times are rationals, exact for whole milliseconds; a cooldown from a fractional
`Retry-After` is added here without the rounding of binary64.
-/

namespace DividendX

namespace Web

/-- The arguments the constructor accepts. -/
structure RequestLimits where
  limit : ℤ
  minimumStartIntervalMs : ℚ
  limit_pos : 1 ≤ limit
  interval_nonneg : 0 ≤ minimumStartIntervalMs

/-- The checks of the constructor; `none` is a number that is not finite. -/
def RequestLimits.make (limit minimumStartIntervalMs : Option ℚ) : Except String RequestLimits :=
  match limit, minimumStartIntervalMs with
  | some limit, some interval =>
    if h : limit.den = 1 ∧ 1 ≤ limit.num ∧ 0 ≤ interval then .ok ⟨limit.num, interval, h.2.1, h.2.2⟩
    else .error "Request scheduler limits are invalid."
  | _, _ => .error "Request scheduler limits are invalid."

/-- `SlotWaiter`, numbered by arrival in place of its promise. -/
structure SlotWaiter where
  id : ℕ
  signal : ℕ
deriving DecidableEq, Repr

/-- `RequestScheduler`, the timers and signals around it, and what it did so far. A promise is
rejected with the reason of its signal. `released` has the waiters whose `released` flag is set. -/
structure RequestScheduler where
  active : ℤ := 0
  waiters : List SlotWaiter := []
  nextStartAt : ℚ := 0
  cooldownUntil : ℚ := 0
  timer : Option ℕ := none
  released : List ℕ := []
  timers : Timers := ⟨[], 0⟩
  aborted : List ℕ := []
  readings : ℕ := 0
  arrivals : List SlotWaiter := []
  history : List (Mark SlotWaiter ℕ) := []
deriving DecidableEq, Repr

namespace RequestScheduler

/-- The clock is read once more. -/
def read (s : RequestScheduler) : RequestScheduler := { s with readings := s.readings + 1 }

/-- `if (this.timer !== undefined) { clearTimeout(this.timer); this.timer = undefined; }`. -/
def clearTimer (s : RequestScheduler) : RequestScheduler :=
  match s.timer with
  | none => s
  | some id => { s with timer := none, timers := s.timers.clear id }

/-- `this.timer = setTimeout(…)`. -/
def setTimer (s : RequestScheduler) (due : ℚ) : RequestScheduler :=
  { s with timer := some s.timers.created, timers := s.timers.set due }

/-- A waiter is taken out of the queue and its promise rejected. -/
def reject (s : RequestScheduler) (w : SlotWaiter) : RequestScheduler :=
  { s with waiters := s.waiters.erase w, history := s.history ++ [.rejected w w.signal] }

/-- The closure that `releaseOnce` made for this waiter is there. -/
def Granted (s : RequestScheduler) (id : ℕ) : Prop := ∃ w ∈ startedOf s.history, w.id = id

instance (s : RequestScheduler) (id : ℕ) : Decidable (s.Granted id) :=
  inferInstanceAs (Decidable (∃ w ∈ startedOf s.history, w.id = id))

variable (limits : RequestLimits) (clock : ℕ → ℚ)

/-- A waiter is taken out of the queue and given a slot. -/
def grant (s : RequestScheduler) (w : SlotWaiter) (now : ℚ) : RequestScheduler :=
  { s with
    waiters := s.waiters.erase w
    active := s.active + 1
    nextStartAt := now + limits.minimumStartIntervalMs
    history := s.history ++ [.started w now] }

/-- The loop of `advance`, for at most so many turns. -/
def serve : ℕ → RequestScheduler → RequestScheduler
  | 0, s => s
  | n + 1, s =>
    match s.waiters with
    | [] => s
    | w :: _ =>
      if s.active < limits.limit then
        let now := clock s.readings
        let s := s.read
        let waitMs := max s.nextStartAt s.cooldownUntil - now
        if 0 < waitMs then s.setTimer (now + waitMs)
        else if w.signal ∈ s.aborted then serve n (s.reject w)
        else
          -- `Date.now()` is read again for the next start
          serve n (s.read.grant limits w (clock s.readings))
      else s

/-- `advance`. Every turn of its loop takes someone out of the queue or is the last. -/
def advance (s : RequestScheduler) : RequestScheduler :=
  serve limits clock s.waiters.length s.clearTimer

/-- `acquire`. -/
def acquire (signal : ℕ) (s : RequestScheduler) : RequestScheduler :=
  let waiter : SlotWaiter := ⟨s.arrivals.length, signal⟩
  let s := { s with arrivals := s.arrivals ++ [waiter] }
  if signal ∈ s.aborted then { s with history := s.history ++ [.rejected waiter signal] }
  else advance limits clock { s with waiters := s.waiters ++ [waiter] }

/-- `waiter.abort()`, of a waiter in the queue. -/
def abortWaiter (s : RequestScheduler) (w : SlotWaiter) : RequestScheduler :=
  advance limits clock (s.reject w)

/-- A signal aborts. Its listeners run in the order they were added; a waiter that has left the
queue meanwhile has taken its listener along. -/
def abort (signal : ℕ) (s : RequestScheduler) : RequestScheduler :=
  if signal ∈ s.aborted then s
  else
    let s := { s with aborted := signal :: s.aborted }
    (s.waiters.filter (·.signal = signal)).foldl
      (fun s w => if w ∈ s.waiters then abortWaiter limits clock s w else s) s

/-- `defer`, of a number; `none` is one that is not finite. -/
def defer (delayMs : Option ℚ) (s : RequestScheduler) : RequestScheduler :=
  match delayMs with
  | none => s
  | some delayMs =>
    if delayMs ≤ 0 then s
    else
      let cooldown := clock s.readings + delayMs
      let s := s.read
      advance limits clock { s with
        cooldownUntil := max s.cooldownUntil cooldown
        history := s.history ++ [.cooled cooldown] }

/-- The function that `releaseOnce` made for a waiter is called; there is none before the grant. -/
def release (id : ℕ) (s : RequestScheduler) : RequestScheduler :=
  if ¬s.Granted id ∨ id ∈ s.released then s
  else advance limits clock { s with released := id :: s.released, active := s.active - 1 }

/-- A pending timer runs, whenever the browser gets to it. -/
def fire (id : ℕ) (s : RequestScheduler) : RequestScheduler :=
  if ∃ t ∈ s.timers.pending, t.id = id then
    advance limits clock { s with timer := none, timers := s.timers.clear id }
  else s

/-- What can happen to a scheduler. -/
inductive Event where
  | acquire (signal : ℕ)
  | abort (signal : ℕ)
  | release (waiter : ℕ)
  | defer (delayMs : Option ℚ)
  | fire (timer : ℕ)
deriving DecidableEq, Repr

def step (s : RequestScheduler) : Event → RequestScheduler
  | .acquire signal => s.acquire limits clock signal
  | .abort signal => s.abort limits clock signal
  | .release waiter => s.release limits clock waiter
  | .defer delayMs => s.defer limits clock delayMs
  | .fire timer => s.fire limits clock timer

/-- A new scheduler, after some events. -/
def run (events : List Event) : RequestScheduler := events.foldl (step limits clock) {}

/-! ## What a turn can do -/

/-- The turns an `advance` is made of, with what the code checked before each. -/
inductive Turn (s : RequestScheduler) : RequestScheduler → Prop
  | cleared : Turn s s.clearTimer
  | armed (due : ℚ) : Turn s (s.read.setTimer due)
  | rejected {w : SlotWaiter} : w ∈ s.waiters → Turn s (s.read.reject w)
  | granted {w : SlotWaiter} {rest : List SlotWaiter} : s.waiters = w :: rest →
    s.active < limits.limit →
      s.nextStartAt ≤ clock s.readings → s.cooldownUntil ≤ clock s.readings →
      Turn s (s.read.read.grant limits w (clock s.read.readings))

/-- Any number of turns. -/
abbrev Turns : RequestScheduler → RequestScheduler → Prop :=
  Relation.ReflTransGen (Turn limits clock)

variable {limits clock} {s s' : RequestScheduler} {w : SlotWaiter}

/-- Nobody waits, so nothing is granted. -/
theorem serve_nil (h : s.waiters = []) (n : ℕ) : serve limits clock n s = s := by
  cases n with
  | zero => rfl
  | succ n => simp only [serve, h]

/-- The body of the loop. -/
theorem serve_cons {rest : List SlotWaiter} (h : s.waiters = w :: rest) (n : ℕ) :
    serve limits clock (n + 1) s =
      if s.active < limits.limit then
        if 0 < max s.nextStartAt s.cooldownUntil - clock s.readings then
          s.read.setTimer
            (clock s.readings + (max s.nextStartAt s.cooldownUntil - clock s.readings))
        else if w.signal ∈ s.aborted then serve limits clock n (s.read.reject w)
        else serve limits clock n (s.read.read.grant limits w (clock s.read.readings))
      else s := by
  simp only [serve, h]
  rfl

/-- `serve` is made of turns. -/
theorem turns_serve (n : ℕ) : Turns limits clock s (serve limits clock n s) := by
  induction n generalizing s with
  | zero => exact .refl
  | succ n ih =>
    cases hwaiters : s.waiters with
    | nil => rw [serve_nil hwaiters]
    | cons w rest =>
      rw [serve_cons hwaiters]
      split_ifs with hactive hwait haborted
      · exact .single (.armed _)
      · exact .head (.rejected (hwaiters ▸ List.mem_cons_self)) ih
      · -- `waitMs` is not positive: none of the times the scheduler keeps lies ahead
        have hpast := max_le_iff.mp (sub_nonpos.mp (not_lt.mp hwait))
        exact .head (.granted hwaiters hactive hpast.1 hpast.2) ih
      · exact .refl

/-- So is `advance`, after its timer was cleared. -/
theorem turns_advance : Turns limits clock s (advance limits clock s) :=
  .head .cleared (turns_serve _)

/-! ## What is kept -/

/-- **A sound scheduler**: its queue is orderly, the slots in use are those granted and not
released, and they are within the limit. -/
structure Sound (limits : RequestLimits) (clock : ℕ → ℚ) (s : RequestScheduler) : Prop where
  orderly : Orderly SlotWaiter.id limits.minimumStartIntervalMs (clock s.readings) s.nextStartAt
    s.cooldownUntil s.arrivals s.waiters s.history
  notShut : Mark.shut ∉ s.history
  counted : s.active = (startedOf s.history).length - s.released.length
  distinct : s.released.Nodup
  granted : ∀ id ∈ s.released, s.Granted id
  within : s.active ≤ limits.limit

theorem Sound.read (h : Sound limits clock s) (hclock : Monotone clock) :
    Sound limits clock s.read :=
  { h with orderly := h.orderly.tick (hclock (Nat.le_succ _)) }

theorem Sound.clearTimer (h : Sound limits clock s) : Sound limits clock s.clearTimer := by
  rw [RequestScheduler.clearTimer]
  cases s.timer with
  | none => exact h
  | some id => exact { h with }

/-- A rejection is no start. -/
theorem startedOf_rejected (history : List (Mark SlotWaiter ℕ)) (w : SlotWaiter) (why : ℕ) :
    startedOf (history ++ [Mark.rejected w why]) = startedOf history := by
  rw [startedOf_append]
  exact List.append_nil _

/-- A waiter that leaves the queue is settled with the reason of its signal. -/
theorem Sound.reject (h : Sound limits clock s) (hw : w ∈ s.waiters) :
    Sound limits clock (s.reject w) where
  orderly := h.orderly.reject List.erase_sublist
    ((List.perm_cons_erase hw).trans (List.perm_append_singleton _ _).symm)
  notShut := by
    intro hm
    exact h.notShut (by simpa [RequestScheduler.reject] using hm)
  counted := by
    rw [RequestScheduler.reject, startedOf_rejected]
    exact h.counted
  distinct := h.distinct
  granted := by
    intro id hid
    rw [Granted, RequestScheduler.reject, startedOf_rejected]
    exact h.granted id hid
  within := h.within

/-- The head of the queue may be granted a slot when the times the scheduler keeps have come. -/
theorem Sound.grant (h : Sound limits clock s) (hclock : Monotone clock) {rest : List SlotWaiter}
    (hwaiters : s.waiters = w :: rest) (hactive : s.active < limits.limit)
    (hnext : s.nextStartAt ≤ clock s.readings) (hcool : s.cooldownUntil ≤ clock s.readings) :
    Sound limits clock (s.read.grant limits w (clock s.readings)) := by
  have hstarted : startedOf (s.history ++ [Mark.started w (clock s.readings)])
      = startedOf s.history ++ [w] :=
    startedOf_append _ _
  refine ⟨?_, ?_, ?_, h.distinct, ?_, hactive⟩
  · have horderly := h.orderly
    rw [hwaiters] at horderly
    have hrest : (s.read.grant limits w (clock s.readings)).waiters = rest := by
      change s.waiters.erase w = rest
      rw [hwaiters, List.erase_cons_head]
    rw [hrest]
    exact (horderly.start hnext hcool).tick (hclock (Nat.le_succ _))
  · intro hm
    rcases List.mem_append.mp hm with hm | hm
    · exact h.notShut hm
    · simp at hm
  · change s.active + 1 =
      (startedOf (s.history ++ [Mark.started w (clock s.readings)])).length - s.released.length
    rw [hstarted, List.length_append, List.length_singleton, h.counted]
    omega
  · intro id hid
    obtain ⟨w', hw', heq⟩ := h.granted id hid
    refine ⟨w', ?_, heq⟩
    change w' ∈ startedOf (s.history ++ [Mark.started w (clock s.readings)])
    rw [hstarted]
    exact List.mem_append_left _ hw'

/-- A turn leaves a sound scheduler. -/
theorem Sound.turn (h : Sound limits clock s) (hclock : Monotone clock)
    (hturn : Turn limits clock s s') :
    Sound limits clock s' := by
  cases hturn with
  | cleared => exact h.clearTimer
  | armed due => exact { h.read hclock with }
  | rejected hw => exact (h.read hclock).reject hw
  | granted hwaiters hactive hnext hcool =>
    -- the second read of the clock is no earlier than the first
    have hlater : clock s.readings ≤ clock s.read.readings := hclock (Nat.le_succ _)
    exact (h.read hclock).grant hclock hwaiters hactive (hnext.trans hlater) (hcool.trans hlater)

/-- Any number of turns keep the state sound. -/
theorem Sound.turns (h : Sound limits clock s) (hclock : Monotone clock)
    (hturns : Turns limits clock s s') : Sound limits clock s' := by
  induction hturns with
  | refl => exact h
  | tail _ hturn ih => exact ih.turn hclock hturn

theorem Sound.advance (h : Sound limits clock s) (hclock : Monotone clock) :
    Sound limits clock (advance limits clock s) := h.turns hclock turns_advance

/-! ## No lost wake-up -/

/-- **Armed**: while a slot is free and anyone waits, the scheduler's timer is pending, and it is
due when the head may start. -/
def Armed (limits : RequestLimits) (s : RequestScheduler) : Prop :=
  s.active < limits.limit → s.waiters ≠ [] →
    ∃ t ∈ s.timers.pending, s.timer = some t.id ∧ t.due ≤ max s.nextStartAt s.cooldownUntil

/-- A loop with turns enough ends without a free slot, without a waiter, or with its timer set. -/
theorem armed_serve {n : ℕ} (h : s.waiters.length ≤ n) : Armed limits (serve limits clock n s) := by
  induction n generalizing s with
  | zero =>
    intro _ hne
    exact absurd (List.length_eq_zero_iff.mp (Nat.le_zero.mp h)) hne
  | succ n ih =>
    cases hwaiters : s.waiters with
    | nil =>
      rw [serve_nil hwaiters]
      intro _ hne
      exact absurd hwaiters hne
    | cons w rest =>
      have hrest : (s.waiters.erase w).length ≤ n := by
        rw [hwaiters, List.length_cons] at h
        rw [hwaiters, List.erase_cons_head]
        omega
      rw [serve_cons hwaiters]
      split_ifs with hactive hwait haborted
      · intro _ _
        refine ⟨_, Timers.mem_set, rfl, ?_⟩
        rw [add_sub_cancel]
        exact le_refl _
      · exact ih hrest
      · exact ih hrest
      · intro hactive'
        exact absurd hactive' hactive

/-- Clearing the timer moves no waiter. -/
theorem waiters_clearTimer : s.clearTimer.waiters = s.waiters := by
  rw [clearTimer]
  cases s.timer <;> rfl

/-- After `advance` a timer is pending if a free slot has to be waited for. -/
theorem armed_advance : Armed limits (advance limits clock s) :=
  armed_serve (le_of_eq (congrArg _ waiters_clearTimer))

/-! ## Events -/

/-- What an event leaves: a sound scheduler, armed. -/
structure Kept (limits : RequestLimits) (clock : ℕ → ℚ) (s : RequestScheduler) : Prop extends
    Sound limits clock s where
  armed : s.Armed limits

/-- `advance` makes a sound state one that is kept. -/
theorem Sound.kept (h : Sound limits clock s) (hclock : Monotone clock) :
    Kept limits clock (s.advance limits clock) := ⟨h.advance hclock, armed_advance⟩

/-- A request arrives, unless its signal has aborted. -/
theorem Kept.acquire (h : Kept limits clock s) (hclock : Monotone clock) (signal : ℕ) :
    Kept limits clock (s.acquire limits clock signal) := by
  rw [RequestScheduler.acquire]
  dsimp only
  split_ifs
  · refine ⟨⟨h.orderly.refuse rfl, ?_, ?_, h.distinct, ?_, h.within⟩, h.armed⟩
    · intro hm
      exact h.notShut (by simpa using hm)
    · rw [startedOf_rejected]
      exact h.counted
    · intro id hid
      rw [Granted, startedOf_rejected]
      exact h.granted id hid
  · exact Sound.kept { h.toSound with orderly := h.orderly.arrive rfl h.notShut } hclock

/-- Each listener of a signal finds the queue as the one before it left it. -/
theorem Kept.aborts (h : Kept limits clock s) (hclock : Monotone clock) (ws : List SlotWaiter) :
    Kept limits clock
      (ws.foldl (fun s w => if w ∈ s.waiters then abortWaiter limits clock s w else s) s) := by
  induction ws generalizing s with
  | nil => exact h
  | cons w ws ih =>
    rw [List.foldl_cons]
    split_ifs with hw
    · exact ih ((h.toSound.reject hw).kept hclock)
    · exact ih h

/-- A signal aborts, and with it every waiter it belongs to. -/
theorem Kept.abort (h : Kept limits clock s) (hclock : Monotone clock) (signal : ℕ) :
    Kept limits clock (s.abort limits clock signal) := by
  rw [RequestScheduler.abort]
  split_ifs
  · exact h
  · refine Kept.aborts ?_ hclock _
    exact ⟨{ h.toSound with }, h.armed⟩

/-- A cooldown is ordered; one that is no positive number is ignored. -/
theorem Kept.defer (h : Kept limits clock s) (hclock : Monotone clock) (delayMs : Option ℚ) :
    Kept limits clock (s.defer limits clock delayMs) := by
  simp only [RequestScheduler.defer]
  split
  · exact h
  · split_ifs
    · exact h
    · refine Sound.kept ?_ hclock
      have hread := h.toSound.read hclock
      have hstarted : ∀ u, startedOf (s.read.history ++ [Mark.cooled u])
          = startedOf s.read.history := by
        intro u
        rw [startedOf_append]
        exact List.append_nil _
      refine ⟨hread.orderly.cool (le_max_left _ _) (le_max_right _ _), ?_, ?_,
        h.distinct, ?_, h.within⟩
      · intro hm
        exact hread.notShut (by simpa using hm)
      · rw [hstarted]
        exact h.counted
      · intro id hid
        rw [Granted, hstarted]
        exact h.granted id hid

/-- Only the first call of a release function gives the slot back. -/
theorem Kept.release (h : Kept limits clock s) (hclock : Monotone clock) (id : ℕ) :
    Kept limits clock (s.release limits clock id) := by
  rw [RequestScheduler.release]
  split_ifs with hskip
  · exact h
  · obtain ⟨hgranted, hnew⟩ := not_or.mp hskip
    refine Sound.kept
      { h.toSound with counted := ?_, distinct := ?_, granted := ?_, within := ?_ } hclock
    · change s.active - 1 = (startedOf s.history).length - (id :: s.released).length
      rw [h.counted, List.length_cons]
      omega
    · exact List.nodup_cons.mpr ⟨hnew, h.distinct⟩
    · intro id' hid'
      rcases List.mem_cons.mp hid' with rfl | hid'
      · exact not_not.mp hgranted
      · exact h.granted id' hid'
    · change s.active - 1 ≤ limits.limit
      have hwithin := h.within
      omega

/-- A timer runs, or is found to have been cleared. -/
theorem Kept.fire (h : Kept limits clock s) (hclock : Monotone clock) (id : ℕ) :
    Kept limits clock (s.fire limits clock id) := by
  rw [RequestScheduler.fire]
  split_ifs
  · exact Sound.kept { h.toSound with } hclock
  · exact h

/-- **One event** keeps the state. -/
theorem Kept.step (h : Kept limits clock s) (hclock : Monotone clock) (event : Event) :
    Kept limits clock (s.step limits clock event) := by
  cases event with
  | acquire signal => exact h.acquire hclock signal
  | abort signal => exact h.abort hclock signal
  | release waiter => exact h.release hclock waiter
  | defer delayMs => exact h.defer hclock delayMs
  | fire timer => exact h.fire hclock timer

/-- **Every run** does. -/
theorem kept_run (hclock : Monotone clock) (events : List Event) :
    Kept limits clock (run limits clock events) := by
  induction events using List.reverseRecOn with
  | nil =>
    have hlimit : (0 : ℤ) ≤ limits.limit := le_trans (by decide) limits.limit_pos
    exact ⟨⟨.empty, by simp [run], rfl, .nil, by simp [run], hlimit⟩, fun _ hne => absurd rfl hne⟩
  | append_singleton events event ih =>
    rw [run, List.foldl_append]
    exact ih.step hclock event

/-- More slots are never given back than were granted. -/
theorem Sound.active_nonneg (h : Sound limits clock s) : 0 ≤ s.active := by
  have hsub : s.released ⊆ (startedOf s.history).map SlotWaiter.id := by
    intro id hid
    obtain ⟨w, hw, rfl⟩ := h.granted id hid
    exact List.mem_map_of_mem hw
  have hlength := (List.subperm_of_subset h.distinct hsub).length_le
  rw [List.length_map] at hlength
  rw [h.counted]
  omega

/-! ## Who asked -/

/-- The signal of a request. -/
def Event.request : Event → Option ℕ
  | .acquire signal => some signal
  | _ => none

/-- Everyone who called `acquire`, numbered in order. -/
def asked (events : List Event) : List SlotWaiter :=
  (events.filterMap Event.request).zipIdx.map fun r => ⟨r.2, r.1⟩

theorem arrivals_clearTimer : s.clearTimer.arrivals = s.arrivals := by
  rw [clearTimer]
  cases s.timer <;> rfl

/-- Turns bring nobody new. -/
theorem Turns.arrivals (h : Turns limits clock s s') : s'.arrivals = s.arrivals := by
  induction h with
  | refl => rfl
  | tail _ hturn ih =>
    rw [← ih]
    cases hturn with
    | cleared => exact arrivals_clearTimer
    | rejected => rfl
    | armed => rfl
    | granted => rfl

/-- Nor does an abort. -/
theorem arrivals_aborts (ws : List SlotWaiter) :
    (ws.foldl (fun s w => if w ∈ s.waiters then abortWaiter limits clock s w else s) s).arrivals =
      s.arrivals := by
  induction ws generalizing s with
  | nil => rfl
  | cons w ws ih =>
    rw [List.foldl_cons, ih]
    split_ifs
    · exact turns_advance.arrivals
    · rfl

/-- Only `acquire` adds a waiter, with its own signal. -/
theorem arrivals_step (event : Event) :
    (s.step limits clock event).arrivals =
      s.arrivals ++ (event.request.map fun signal => ⟨s.arrivals.length, signal⟩).toList := by
  cases event with
  | acquire signal =>
    change (s.acquire limits clock signal).arrivals = _
    rw [acquire]
    dsimp only
    split_ifs
    · rfl
    · exact turns_advance.arrivals
  | abort signal =>
    change (s.abort limits clock signal).arrivals = _
    rw [abort]
    split_ifs
    · exact (List.append_nil _).symm
    · exact (arrivals_aborts _).trans (List.append_nil _).symm
  | release waiter =>
    change (s.release limits clock waiter).arrivals = _
    rw [release]
    split_ifs
    · exact (List.append_nil _).symm
    · exact turns_advance.arrivals.trans (List.append_nil _).symm
  | defer delayMs =>
    change (s.defer limits clock delayMs).arrivals = _
    simp only [defer]
    split
    · exact (List.append_nil _).symm
    · split_ifs
      · exact (List.append_nil _).symm
      · exact turns_advance.arrivals.trans (List.append_nil _).symm
  | fire timer =>
    change (s.fire limits clock timer).arrivals = _
    rw [fire]
    split_ifs
    · exact turns_advance.arrivals.trans (List.append_nil _).symm
    · exact (List.append_nil _).symm

/-- Those who ever arrived are those who asked. -/
theorem arrivals_run (events : List Event) : (run limits clock events).arrivals = asked events := by
  induction events using List.reverseRecOn with
  | nil => rfl
  | append_singleton events event ih =>
    have hlength : (asked events).length = (events.filterMap Event.request).length := by
      simp [asked]
    rw [run, List.foldl_append]
    change ((run limits clock events).step limits clock event).arrivals = _
    rw [arrivals_step, ih, hlength, asked, asked, List.filterMap_append, List.zipIdx_append]
    cases hrequest : event.request <;> simp [hrequest]

/-! ## What stays -/

/-- What was done to a waiter is not undone. -/
structure Extends (s s' : RequestScheduler) : Prop where
  history : s.history ⊆ s'.history
  released : s.released ⊆ s'.released

theorem Extends.refl (s : RequestScheduler) : Extends s s :=
  ⟨List.Subset.refl _, List.Subset.refl _⟩

theorem Extends.trans {s'' : RequestScheduler} (h : Extends s s')
    (h' : Extends s' s'') : Extends s s'' :=
  ⟨List.Subset.trans h.history h'.history, List.Subset.trans h.released h'.released⟩

/-- A slot that was granted stays granted. -/
theorem Extends.granted {id : ℕ} (h : Extends s s') (hid : s.Granted id) : s'.Granted id := by
  obtain ⟨w, hw, rfl⟩ := hid
  obtain ⟨t, ht⟩ := mem_startedOf.mp hw
  exact ⟨w, mem_startedOf.mpr ⟨t, h.history ht⟩, rfl⟩

/-- Turns only add to what is granted and released. -/
theorem Turns.extends (h : Turns limits clock s s') : Extends s s' := by
  induction h with
  | refl => exact .refl _
  | tail _ hturn ih =>
    refine ih.trans ?_
    cases hturn with
    | cleared =>
      rw [clearTimer]
      split
      · exact .refl _
      · exact ⟨List.Subset.refl _, List.Subset.refl _⟩
    | armed => exact ⟨List.Subset.refl _, List.Subset.refl _⟩
    | rejected => exact ⟨List.subset_append_left _ _, List.Subset.refl _⟩
    | granted => exact ⟨List.subset_append_left _ _, List.Subset.refl _⟩

/-- So does an abort of several waiters. -/
theorem extends_aborts (ws : List SlotWaiter) :
    Extends s
      (ws.foldl (fun s w => if w ∈ s.waiters then abortWaiter limits clock s w else s) s) := by
  induction ws generalizing s with
  | nil => exact .refl _
  | cons w ws ih =>
    rw [List.foldl_cons]
    split_ifs
    · have hreject : Extends s (s.reject w) := ⟨List.subset_append_left _ _, List.Subset.refl _⟩
      exact (hreject.trans turns_advance.extends).trans ih
    · exact ih

/-- So does every event. -/
theorem extends_step (event : Event) : Extends s (s.step limits clock event) := by
  cases event with
  | acquire signal =>
    change Extends s (s.acquire limits clock signal)
    rw [acquire]
    dsimp only
    split_ifs
    · exact ⟨List.subset_append_left _ _, List.Subset.refl _⟩
    · -- The waiter joins first, and then whoever can have a turn has one.
      have hjoin : Extends s { s with
          arrivals := s.arrivals ++ [⟨s.arrivals.length, signal⟩]
          waiters := s.waiters ++ [⟨s.arrivals.length, signal⟩] } :=
            ⟨List.Subset.refl _, List.Subset.refl _⟩
      exact hjoin.trans turns_advance.extends
  | abort signal =>
    change Extends s (s.abort limits clock signal)
    rw [abort]
    split_ifs
    · exact .refl _
    · have hmark : Extends s { s with aborted := signal :: s.aborted } :=
        ⟨List.Subset.refl _, List.Subset.refl _⟩
      exact hmark.trans (extends_aborts _)
  | release waiter =>
    change Extends s (s.release limits clock waiter)
    rw [release]
    split_ifs
    · exact .refl _
    · have hmark : Extends s { s with released := waiter :: s.released, active := s.active - 1 } :=
        ⟨List.Subset.refl _, List.subset_cons_self _ _⟩
      exact hmark.trans turns_advance.extends
  | defer delayMs =>
    change Extends s (s.defer limits clock delayMs)
    simp only [defer]
    split
    · exact .refl _
    · split_ifs
      · exact .refl _
      · refine Extends.trans ?_ turns_advance.extends
        exact ⟨List.subset_append_left _ _, List.Subset.refl _⟩
  | fire timer =>
    change Extends s (s.fire limits clock timer)
    rw [fire]
    split_ifs
    · have hclear : Extends s { s with timer := none, timers := s.timers.clear timer } :=
        ⟨List.Subset.refl _, List.Subset.refl _⟩
      exact hclear.trans turns_advance.extends
    · exact .refl _

/-- The first call of a release function gives the slot back, and later ones find it so. -/
theorem released_release {id : ℕ} (h : s.Granted id) :
    id ∈ (s.step limits clock (.release id)).released := by
  change id ∈ (s.release limits clock id).released
  rw [release]
  split_ifs with hskip
  · exact hskip.resolve_left (not_not.mpr h)
  · exact turns_advance.extends.released List.mem_cons_self

end RequestScheduler

end Web

end DividendX
