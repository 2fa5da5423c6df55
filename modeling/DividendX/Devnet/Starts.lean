import DividendX.Devnet.Contract
import DividendX.Lib.Waiting
import Mathlib.Logic.Relation

/-!
# The starts of RPC requests

`RpcStartScheduler` of the hosted devnet service, `packages/hosted-devnet/src/chain.ts`. Requests to
the public endpoint wait in one queue; they are started in order, an interval apart, and not during
a cooldown. A request leaves the queue unstarted when its signal aborts, when its deadline passes or
when the scheduler is closed.

The scheduler is its fields and what surrounds them: the runtime's timers, the signals that have
aborted, how often the clock was read. The clock is a parameter: `clock n` is the `n`-th answer of
`Date.now()`, so that time may pass between any two reads. Times are rationals; those of the code
(clock, deadlines, interval, checked cooldowns) are whole milliseconds within 2^53, which binary64
adds exactly as rationals add.
-/

namespace DividendX

namespace Devnet

/-- `RPC_MIN_START_INTERVAL_MS`. -/
def rpcMinStartIntervalMs : ℚ := 400

/-- `RPC_MAX_QUEUE`. -/
def rpcMaxQueue : ℕ := 24

/-- `MAX_TIMER_DELAY_MS`. -/
def maxTimerDelayMs : ℚ := 2147483647

/-- `Number.isSafeInteger`, of a number that is finite. -/
def isSafeInteger (x : ℚ) : Bool := x.den = 1 ∧ x.num.natAbs ≤ maxSafeInteger

/-- `StartWaiter`, numbered by arrival in place of its promise. -/
structure StartWaiter where
  id : ℕ
  deadline : ℚ
  signal : Option ℕ
deriving DecidableEq, Repr

namespace ServiceError

def rpcBackoffInvalid : ServiceError :=
  ⟨503, "RPC service backoff is unavailable.", "RPC_BACKOFF_INVALID", none⟩

def rpcAborted : ServiceError := ⟨503, "RPC request was aborted.", "RPC_ABORTED", none⟩

def rpcQueueFull : ServiceError := ⟨503, "RPC request queue is full.", "RPC_QUEUE_FULL", none⟩

def rpcTimeout : ServiceError := ⟨503, "RPC request timed out.", "RPC_TIMEOUT", none⟩

end ServiceError

/-- The arguments of the constructor, with their defaults. -/
structure StartLimits where
  intervalMs : ℚ := rpcMinStartIntervalMs
  maxQueue : ℕ := rpcMaxQueue

/-- `RpcStartScheduler`, the timers and signals around it, and what it did so far. -/
structure RpcStartScheduler where
  queue : List StartWaiter := []
  timer : Option ℕ := none
  nextStartAt : ℚ := 0
  cooldownUntil : ℚ := 0
  closed : Bool := false
  timers : Timers := ⟨[], 0⟩
  aborted : List ℕ := []
  readings : ℕ := 0
  arrivals : List StartWaiter := []
  history : List (Mark StartWaiter ServiceError) := []
deriving DecidableEq, Repr

namespace RpcStartScheduler

/-- The clock is read once more. -/
def read (s : RpcStartScheduler) : RpcStartScheduler := { s with readings := s.readings + 1 }

/-- `if (this.timer) { clearTimeout(this.timer); this.timer = undefined; }`. -/
def clearTimer (s : RpcStartScheduler) : RpcStartScheduler :=
  match s.timer with
  | none => s
  | some id => { s with timer := none, timers := s.timers.clear id }

/-- `this.timer = setTimeout(…)`, for the time `due`: the clock reading it was computed from plus
the delay, so before the clock where the delay is negative. A timer that was set before and not
cleared is forgotten, and runs. -/
def setTimer (s : RpcStartScheduler) (due : ℚ) : RpcStartScheduler :=
  { s with timer := some s.timers.created, timers := s.timers.set due }

/-- `waiter.signal?.aborted`. -/
def isAborted (s : RpcStartScheduler) (w : StartWaiter) : Bool :=
  w.signal.any (s.aborted.contains ·)

/-- A waiter is spliced out of the queue and its promise rejected. -/
def reject (s : RpcStartScheduler) (w : StartWaiter) (error : ServiceError) : RpcStartScheduler :=
  { s with queue := s.queue.erase w, history := s.history ++ [.rejected w error] }

/-- A waiter at the head is shifted off the queue and its promise resolved. -/
def start (limits : StartLimits) (s : RpcStartScheduler) (w : StartWaiter)
    (now : ℚ) : RpcStartScheduler :=
  { s with
    queue := s.queue.erase w
    nextStartAt := now + limits.intervalMs
    history := s.history ++ [.started w now] }

/-- `Math.min(...this.queue.map((queued) => queued.deadline))`, with the head of the queue apart. -/
def earliestDeadline (w : StartWaiter) (rest : List StartWaiter) : ℚ :=
  (rest.map (·.deadline)).foldl min w.deadline

variable (limits : StartLimits) (clock : ℕ → ℚ)

/-- The first half of `pump`: the timer is cleared, and from the back of the queue on everyone whose
deadline has come is rejected. -/
def prune (s : RpcStartScheduler) : RpcStartScheduler :=
  let currentTime := clock s.readings
  let s := s.clearTimer.read
  { s with
    queue := s.queue.filter (currentTime < ·.deadline)
    history := s.history ++
      (s.queue.filter (·.deadline ≤ currentTime)).reverse.map (.rejected · .rpcTimeout) }

/-- The loop of `pump`, for at most so many turns. A head whose signal has aborted is aborted here,
and that pumps the rest of the queue before this loop goes on. -/
def drain : ℕ → RpcStartScheduler → RpcStartScheduler
  | 0, s => s
  | n + 1, s =>
    match s.queue with
    | [] => s
    | w :: rest =>
      let now := clock s.readings
      let s := s.read
      if s.isAborted w then
        drain n (drain n (prune clock (s.reject w .rpcAborted)))
      else
        let startAt := max (max now s.nextStartAt) s.cooldownUntil
        if w.deadline ≤ startAt then drain n (s.reject w .rpcTimeout)
        else if now < startAt then s.setTimer (min startAt (earliestDeadline w rest))
        else drain n (s.start limits w now)

/-- `pump`. Every turn of its loop takes someone out of the queue or is the last. -/
def pump (s : RpcStartScheduler) : RpcStartScheduler :=
  drain limits clock (prune clock s).queue.length (prune clock s)

/-- `acquire`. Nothing runs between the two reads of `signal.aborted`, so the second one is never
the first to find it set. -/
def acquire (deadline : ℚ) (signal : Option ℕ) (s : RpcStartScheduler) : RpcStartScheduler :=
  let waiter : StartWaiter := ⟨s.arrivals.length, deadline, signal⟩
  let s := { s with arrivals := s.arrivals ++ [waiter] }
  if s.closed then { s with history := s.history ++ [.rejected waiter .rpcBackoffInvalid] }
  else if s.isAborted waiter then { s with history := s.history ++ [.rejected waiter .rpcAborted] }
  else if limits.maxQueue ≤ s.queue.length then
    { s with history := s.history ++ [.rejected waiter .rpcQueueFull] }
  else pump limits clock { s with queue := s.queue ++ [waiter] }

/-- `waiter.abort()`, of a waiter in the queue. -/
def abortWaiter (s : RpcStartScheduler) (w : StartWaiter) : RpcStartScheduler :=
  pump limits clock (s.reject w .rpcAborted)

/-- A signal aborts. Its listeners run in the order they were added; a waiter that has left the
queue meanwhile has taken its listener along. -/
def abort (signal : ℕ) (s : RpcStartScheduler) : RpcStartScheduler :=
  if signal ∈ s.aborted then s
  else
    let s := { s with aborted := signal :: s.aborted }
    (s.queue.filter (·.signal = some signal)).foldl
      (fun s w => if w ∈ s.queue then abortWaiter limits clock s w else s) s

/-- `failClosed`. -/
def failClosed (s : RpcStartScheduler) : RpcStartScheduler :=
  let s := { s.clearTimer with closed := true }
  { s with
    queue := []
    history := s.history ++ .shut :: s.queue.map (.rejected · .rpcBackoffInvalid) }

/-- `applyCooldown`, of a number; `none` is one that is not finite. -/
def applyCooldown (milliseconds : Option ℚ) (s : RpcStartScheduler) : RpcStartScheduler :=
  match milliseconds with
  | none => s.failClosed
  | some milliseconds =>
    if ¬isSafeInteger milliseconds ∨ milliseconds ≤ 0 ∨ maxTimerDelayMs < milliseconds then
      s.failClosed
    else
      let cooldown := clock s.readings + milliseconds
      let s := s.read
      pump limits clock { s with
        cooldownUntil := max s.cooldownUntil cooldown
        history := s.history ++ [.cooled cooldown] }

/-- A pending timer runs, whenever the runtime gets to it. -/
def fire (id : ℕ) (s : RpcStartScheduler) : RpcStartScheduler :=
  if ∃ t ∈ s.timers.pending, t.id = id then
    pump limits clock { s with timer := none, timers := s.timers.clear id }
  else s

/-- What can happen to a scheduler. -/
inductive Event where
  | acquire (deadline : ℚ) (signal : Option ℕ)
  | abort (signal : ℕ)
  | applyCooldown (milliseconds : Option ℚ)
  | failClosed
  | fire (timer : ℕ)
deriving DecidableEq, Repr

def step (s : RpcStartScheduler) : Event → RpcStartScheduler
  | .acquire deadline signal => s.acquire limits clock deadline signal
  | .abort signal => s.abort limits clock signal
  | .applyCooldown milliseconds => s.applyCooldown limits clock milliseconds
  | .failClosed => s.failClosed
  | .fire timer => s.fire limits clock timer

/-- A new scheduler, after some events. -/
def run (events : List Event) : RpcStartScheduler := events.foldl (step limits clock) {}

/-! ## What a turn can do -/

/-- The turns a pump is made of, with what the code checked before each. -/
inductive Turn (s : RpcStartScheduler) : RpcStartScheduler → Prop
  | pruned : Turn s (prune clock s)
  | rejected {w : StartWaiter} {error : ServiceError} : w ∈ s.queue → Turn s (s.read.reject w error)
  | armed (due : ℚ) : Turn s (s.read.setTimer due)
  | started {w : StartWaiter} {rest : List StartWaiter} : s.queue = w :: rest →
      s.nextStartAt ≤ clock s.readings → s.cooldownUntil ≤ clock s.readings →
      clock s.readings < w.deadline → Turn s (s.read.start limits w (clock s.readings))

/-- Any number of turns. -/
abbrev Turns : RpcStartScheduler → RpcStartScheduler → Prop :=
  Relation.ReflTransGen (Turn limits clock)

variable {limits clock} {s s' : RpcStartScheduler} {w : StartWaiter} {error : ServiceError}

/-- Nobody waits, so nobody is started. -/
theorem drain_nil (h : s.queue = []) (n : ℕ) : drain limits clock n s = s := by
  cases n with
  | zero => rfl
  | succ n => simp only [drain, h]

/-- The body of the loop. -/
theorem drain_cons {rest : List StartWaiter} (h : s.queue = w :: rest) (n : ℕ) :
    drain limits clock (n + 1) s =
      if s.read.isAborted w then
        drain limits clock n (drain limits clock n (prune clock (s.read.reject w .rpcAborted)))
      else if w.deadline ≤ max (max (clock s.readings) s.nextStartAt) s.cooldownUntil then
        drain limits clock n (s.read.reject w .rpcTimeout)
      else if clock s.readings < max (max (clock s.readings) s.nextStartAt) s.cooldownUntil then
        s.read.setTimer
          (min (max (max (clock s.readings) s.nextStartAt) s.cooldownUntil)
            (earliestDeadline w rest))
      else drain limits clock n (s.read.start limits w (clock s.readings)) := by
  simp only [drain, h]
  rfl

/-- `drain` is made of turns. -/
theorem turns_drain (n : ℕ) : Turns limits clock s (drain limits clock n s) := by
  induction n generalizing s with
  | zero => exact .refl
  | succ n ih =>
    cases hqueue : s.queue with
    | nil => rw [drain_nil hqueue]
    | cons w rest =>
      have hw : w ∈ s.queue := hqueue ▸ List.mem_cons_self
      rw [drain_cons hqueue]
      split_ifs with habort hlate hearly
      · exact .head (.rejected hw) (.head .pruned (ih.trans ih))
      · exact .head (.rejected hw) ih
      · exact .single (.armed _)
      · -- `startAt` is `now`: none of the times the scheduler keeps lies ahead
        have hnow := max_le_iff.mp (not_lt.mp hearly)
        have hdeadline : clock s.readings < w.deadline :=
          ((le_max_left _ _).trans (le_max_left _ _)).trans_lt (not_le.mp hlate)
        exact .head (.started hqueue (max_le_iff.mp hnow.1).2 hnow.2 hdeadline) ih

/-- So is `pump`, after those whose deadline has passed were turned away. -/
theorem turns_pump : Turns limits clock s (pump limits clock s) := .head .pruned (turns_drain _)

@[simp] theorem queue_clearTimer : s.clearTimer.queue = s.queue := by
  rw [clearTimer]
  cases s.timer <;> rfl

/-- Those whose deadline has not passed stay. -/
theorem queue_prune : (prune clock s).queue = s.queue.filter (clock s.readings < ·.deadline) := by
  rw [prune]
  exact congrArg _ queue_clearTimer

/-- Nobody joins the queue in a turn. -/
theorem Turn.sublist (h : Turn limits clock s s') : s'.queue.Sublist s.queue := by
  cases h with
  | pruned =>
    rw [queue_prune]
    exact List.filter_sublist
  | rejected => exact List.erase_sublist
  | armed => exact .refl _
  | started => exact List.erase_sublist

/-- Turns only take waiters out of the queue. -/
theorem Turns.sublist (h : Turns limits clock s s') : s'.queue.Sublist s.queue := by
  induction h with
  | refl => exact .refl _
  | tail _ hturn ih => exact hturn.sublist.trans ih

/-! ## The loop

The queue never grows in it, so as many turns as there are waiters are enough: fuel aside, `drain`
is the loop of the source. -/

/-- More turns than waiters change nothing. -/
theorem drain_fuel {n : ℕ} (h : s.queue.length ≤ n) :
    drain limits clock (n + 1) s = drain limits clock n s := by
  induction n generalizing s with
  | zero =>
    have hnil : s.queue = [] := List.length_eq_zero_iff.mp (Nat.le_zero.mp h)
    rw [drain_nil hnil, drain_nil hnil]
  | succ n ih =>
    cases hqueue : s.queue with
    | nil => rw [drain_nil hqueue, drain_nil hqueue]
    | cons w rest =>
      have hrest : (s.queue.erase w).length ≤ n := by
        rw [hqueue, List.length_cons] at h
        rw [hqueue, List.erase_cons_head]
        omega
      have hprune : (prune clock (s.read.reject w .rpcAborted)).queue.length ≤ n := by
        rw [queue_prune]
        exact (List.length_filter_le _ _).trans hrest
      have houter :
          (drain limits clock n (prune clock (s.read.reject w .rpcAborted))).queue.length ≤ n :=
        (turns_drain n).sublist.length_le.trans hprune
      rw [drain_cons hqueue, drain_cons hqueue, ih hprune, ih houter,
        ih (s := s.read.reject w _) hrest, ih (s := s.read.start limits w _) hrest]

/-- More fuel than waiters changes nothing. -/
theorem drain_eq {n : ℕ} (h : s.queue.length ≤ n) :
    drain limits clock n s = drain limits clock s.queue.length s := by
  induction n, h using Nat.le_induction with
  | base => rfl
  | succ n h ih => rw [drain_fuel h, ih]

/-- An aborted head is aborted by the whole of `waiter.abort()`, pump included. -/
theorem drain_aborted {rest : List StartWaiter} (h : s.queue = w :: rest)
    (habort : s.read.isAborted w) :
    drain limits clock s.queue.length s =
      let s := abortWaiter limits clock s.read w
      drain limits clock s.queue.length s := by
  have hlength : s.queue.length = rest.length + 1 := by rw [h, List.length_cons]
  have hrest : (s.read.reject w .rpcAborted).queue.length = rest.length := by
    change (s.queue.erase w).length = rest.length
    rw [h, List.erase_cons_head]
  have hprune : (prune clock (s.read.reject w .rpcAborted)).queue.length ≤ rest.length := by
    rw [queue_prune]
    exact (List.length_filter_le _ _).trans hrest.le
  rw [hlength, drain_cons h, if_pos habort, drain_eq hprune]
  exact drain_eq (turns_pump.sublist.length_le.trans hrest.le)

/-! ## What is kept -/

/-- **A sound scheduler**: its queue is orderly and within its bound, everyone was started before
their deadline, and a scheduler that was shut stays closed. -/
structure Sound (limits : StartLimits) (clock : ℕ → ℚ) (s : RpcStartScheduler) : Prop where
  orderly : Orderly StartWaiter.id limits.intervalMs
    (clock s.readings) s.nextStartAt s.cooldownUntil
    s.arrivals s.queue s.history
  punctual : ∀ w t, Mark.started w t ∈ s.history → t < w.deadline
  bounded : s.queue.length ≤ limits.maxQueue
  closed : Mark.shut ∈ s.history → s.closed = true

theorem Sound.read (h : Sound limits clock s) (hclock : Monotone clock) :
    Sound limits clock s.read where
  orderly := h.orderly.tick (hclock (Nat.le_succ _))
  punctual := h.punctual
  bounded := h.bounded
  closed := h.closed

theorem Sound.clearTimer (h : Sound limits clock s) : Sound limits clock s.clearTimer := by
  rw [RpcStartScheduler.clearTimer]
  cases s.timer with
  | none => exact h
  | some id => exact ⟨h.orderly, h.punctual, h.bounded, h.closed⟩

/-- Waiters may be rejected at any time. -/
theorem Sound.rejects (h : Sound limits clock s) {queue gone : List StartWaiter}
    (hsub : queue.Sublist s.queue) (hperm : s.queue.Perm (queue ++ gone)) :
    Sound limits clock
      { s with queue := queue, history := s.history ++ gone.map (Mark.rejected · error) } where
  orderly := h.orderly.reject hsub hperm
  punctual := by
    intro w t hm
    exact h.punctual w t (by simpa using hm)
  bounded := hsub.length_le.trans h.bounded
  closed := by
    intro hm
    exact h.closed (by simpa using hm)

/-- A waiter that leaves the queue is settled with an error. -/
theorem Sound.reject (h : Sound limits clock s) (hw : w ∈ s.queue) :
    Sound limits clock (s.reject w error) :=
  h.rejects List.erase_sublist
    ((List.perm_cons_erase hw).trans (List.perm_append_singleton _ _).symm)

/-- Those who are too late are settled, all at once. -/
theorem Sound.prune (h : Sound limits clock s) (hclock : Monotone clock) :
    Sound limits clock (prune clock s) := by
  refine (h.clearTimer.read hclock).rejects List.filter_sublist ?_
  have hlate : (s.clearTimer.read.queue.filter (·.deadline ≤ clock s.readings)) =
      s.clearTimer.read.queue.filter fun w => !decide (clock s.readings < w.deadline) := by
    refine List.filter_congr ?_
    intro w _
    rw [← decide_not, decide_eq_decide, not_lt]
  rw [hlate]
  exact (List.filter_append_perm _ _).symm.trans ((List.reverse_perm _).symm.append_left _)

/-- The head of the queue may be started when the times the scheduler keeps have come. -/
theorem Sound.start (h : Sound limits clock s) (hclock : Monotone clock) {rest : List StartWaiter}
    (hqueue : s.queue = w :: rest) (hnext : s.nextStartAt ≤ clock s.readings)
    (hcool : s.cooldownUntil ≤ clock s.readings) (hdeadline : clock s.readings < w.deadline) :
    Sound limits clock (s.read.start limits w (clock s.readings)) where
  orderly := by
    have horderly := h.orderly
    rw [hqueue] at horderly
    have hrest : (s.read.start limits w (clock s.readings)).queue = rest := by
      change s.queue.erase w = rest
      rw [hqueue, List.erase_cons_head]
    rw [hrest]
    exact (horderly.start hnext hcool).tick (hclock (Nat.le_succ _))
  punctual := by
    intro w' t hm
    rcases List.mem_append.mp hm with hm | hm
    · exact h.punctual w' t hm
    · cases List.mem_singleton.mp hm
      exact hdeadline
  bounded := List.erase_sublist.length_le.trans h.bounded
  closed := by
    intro hm
    rcases List.mem_append.mp hm with hm | hm
    · exact h.closed hm
    · simp at hm

/-- A turn leaves a sound scheduler. -/
theorem Sound.turn (h : Sound limits clock s) (hclock : Monotone clock)
    (hturn : Turn limits clock s s') :
    Sound limits clock s' := by
  cases hturn with
  | pruned => exact h.prune hclock
  | rejected hw => exact (h.read hclock).reject hw
  | armed due =>
    have hread := h.read hclock
    exact ⟨hread.orderly, hread.punctual, hread.bounded, hread.closed⟩
  | started hqueue hnext hcool hdeadline => exact h.start hclock hqueue hnext hcool hdeadline

/-- Any number of turns keep the state sound. -/
theorem Sound.turns (h : Sound limits clock s) (hclock : Monotone clock)
    (hturns : Turns limits clock s s') : Sound limits clock s' := by
  induction hturns with
  | refl => exact h
  | tail _ hturn ih => exact ih.turn hclock hturn

theorem Sound.pump (h : Sound limits clock s) (hclock : Monotone clock) :
    Sound limits clock (pump limits clock s) := h.turns hclock turns_pump

/-! ## No lost wake-up -/

/-- **Armed**: while anyone waits, the scheduler's timer is pending, and it is due when the head may
start and before any deadline has passed. -/
def Armed (s : RpcStartScheduler) : Prop :=
  s.queue ≠ [] → ∃ t ∈ s.timers.pending, s.timer = some t.id ∧
    t.due ≤ max s.nextStartAt s.cooldownUntil ∧ ∀ w ∈ s.queue, t.due ≤ w.deadline

theorem foldl_min_le (a : ℚ) (l : List ℚ) : ∀ x ∈ a :: l, l.foldl min a ≤ x := by
  induction l generalizing a with
  | nil =>
    intro x hx
    exact (List.mem_singleton.mp hx).ge
  | cons b l ih =>
    have hfirst : l.foldl min (min a b) ≤ min a b := ih (min a b) _ List.mem_cons_self
    intro x hx
    rcases List.mem_cons.mp hx with rfl | hx
    · exact hfirst.trans (min_le_left _ _)
    · rcases List.mem_cons.mp hx with rfl | hx
      · exact hfirst.trans (min_le_right _ _)
      · exact ih (min a b) x (List.mem_cons_of_mem _ hx)

/-- `Math.min(...this.queue.map((queued) => queued.deadline))` is a lower bound. -/
theorem earliestDeadline_le {rest : List StartWaiter} {q : StartWaiter} (hq : q ∈ w :: rest) :
    earliestDeadline w rest ≤ q.deadline :=
  foldl_min_le _ _ _ (List.mem_map_of_mem (f := StartWaiter.deadline) hq)

/-- A loop with turns enough ends with an empty queue, or with its timer set. -/
theorem armed_drain {n : ℕ} (h : s.queue.length ≤ n) : Armed (drain limits clock n s) := by
  induction n generalizing s with
  | zero =>
    intro hne
    exact absurd (List.length_eq_zero_iff.mp (Nat.le_zero.mp h)) hne
  | succ n ih =>
    cases hqueue : s.queue with
    | nil =>
      rw [drain_nil hqueue]
      intro hne
      exact absurd hqueue hne
    | cons w rest =>
      have hrest : (s.queue.erase w).length ≤ n := by
        rw [hqueue, List.length_cons] at h
        rw [hqueue, List.erase_cons_head]
        omega
      rw [drain_cons hqueue]
      split_ifs with habort hlate hearly
      · -- the inner pump leaves no more waiters than it found, so the turns left are enough
        refine ih ((turns_drain n).sublist.length_le.trans ?_)
        rw [queue_prune]
        exact (List.length_filter_le _ _).trans hrest
      · exact ih hrest
      · intro _
        refine ⟨_, Timers.mem_set, rfl, (min_le_left _ _).trans ?_, ?_⟩
        · rw [max_assoc] at hearly ⊢
          have hahead := (lt_max_iff.mp hearly).resolve_left (lt_irrefl _)
          exact max_le hahead.le (le_refl _)
        · intro q hq
          have hmem : q ∈ w :: rest := hqueue ▸ hq
          exact (min_le_right _ _).trans (earliestDeadline_le hmem)
      · exact ih hrest

/-- After `pump` a timer is pending if anyone waits. -/
theorem armed_pump : Armed (pump limits clock s) := armed_drain (le_refl _)

/-! ## Events -/

/-- What an event leaves: a sound scheduler, armed. -/
structure Kept (limits : StartLimits) (clock : ℕ → ℚ) (s : RpcStartScheduler) : Prop extends
    Sound limits clock s where
  armed : s.Armed

/-- `pump` makes a sound state one that is kept. -/
theorem Sound.kept (h : Sound limits clock s) (hclock : Monotone clock) :
    Kept limits clock (s.pump limits clock) := ⟨h.pump hclock, armed_pump⟩

/-- A waiter that is turned away at the door changes nothing for those who wait. -/
theorem Kept.refuse (h : Kept limits clock s) (hid : w.id = s.arrivals.length) :
    Kept limits clock
      { s with arrivals := s.arrivals ++ [w], history := s.history ++ [.rejected w error] } where
  orderly := h.orderly.refuse hid
  punctual := by
    intro w' t hm
    exact h.punctual w' t (by simpa using hm)
  bounded := h.bounded
  closed := by
    intro hm
    exact h.closed (by simpa using hm)
  armed := h.armed

/-- A request arrives, unless it is refused at the door. -/
theorem Kept.acquire (h : Kept limits clock s) (hclock : Monotone clock) (deadline : ℚ)
    (signal : Option ℕ) : Kept limits clock (s.acquire limits clock deadline signal) := by
  rw [RpcStartScheduler.acquire]
  dsimp only
  split_ifs with hclosed haborted hfull
  · exact h.refuse rfl
  · exact h.refuse rfl
  · exact h.refuse rfl
  · refine Sound.kept ?_ hclock
    have hopen : Mark.shut ∉ s.history := fun hm => hclosed (h.closed hm)
    refine ⟨h.orderly.arrive rfl hopen, h.punctual, ?_, h.closed⟩
    rw [List.length_append, List.length_singleton]
    exact Nat.lt_of_not_le hfull

/-- Each listener of a signal finds the queue as the one before it left it. -/
theorem Kept.aborts (h : Kept limits clock s) (hclock : Monotone clock) (ws : List StartWaiter) :
    Kept limits clock
      (ws.foldl (fun s w => if w ∈ s.queue then abortWaiter limits clock s w else s) s) := by
  induction ws generalizing s with
  | nil => exact h
  | cons w ws ih =>
    rw [List.foldl_cons]
    split_ifs with hw
    · exact ih ((h.toSound.reject hw).kept hclock)
    · exact ih h

/-- A signal aborts, and with it every waiter it belongs to. -/
theorem Kept.abort (h : Kept limits clock s) (hclock : Monotone clock) (signal : ℕ) :
    Kept limits clock (s.abort limits clock signal) := by
  rw [RpcStartScheduler.abort]
  split_ifs with haborted
  · exact h
  · refine Kept.aborts ?_ hclock _
    exact ⟨⟨h.orderly, h.punctual, h.bounded, h.closed⟩, h.armed⟩

/-- The queue is shut, and everyone in it turned away. -/
theorem Kept.failClosed (h : Kept limits clock s) : Kept limits clock s.failClosed where
  orderly := h.clearTimer.orderly.close
  punctual := by
    intro w t hm
    exact h.clearTimer.punctual w t (by simpa [RpcStartScheduler.failClosed] using hm)
  bounded := Nat.zero_le _
  closed := fun _ => rfl
  armed := fun hne => absurd rfl hne

/-- A cooldown is ordered, or the queue is shut for one that makes no sense. -/
theorem Kept.applyCooldown (h : Kept limits clock s) (hclock : Monotone clock)
    (milliseconds : Option ℚ) :
    Kept limits clock (s.applyCooldown limits clock milliseconds) := by
  simp only [RpcStartScheduler.applyCooldown]
  split
  · exact h.failClosed
  · split_ifs
    · exact h.failClosed
    · refine Sound.kept ?_ hclock
      have hread := h.toSound.read hclock
      refine ⟨hread.orderly.cool (le_max_left _ _) (le_max_right _ _), ?_, h.bounded, ?_⟩
      · intro w t hm
        exact hread.punctual w t (by simpa using hm)
      · intro hm
        exact hread.closed (by simpa using hm)

/-- A timer runs, or is found to have been cleared. -/
theorem Kept.fire (h : Kept limits clock s) (hclock : Monotone clock) (id : ℕ) :
    Kept limits clock (s.fire limits clock id) := by
  rw [RpcStartScheduler.fire]
  split_ifs
  · exact Sound.kept ⟨h.orderly, h.punctual, h.bounded, h.closed⟩ hclock
  · exact h

/-- **One event** keeps the state. -/
theorem Kept.step (h : Kept limits clock s) (hclock : Monotone clock) (event : Event) :
    Kept limits clock (s.step limits clock event) := by
  cases event with
  | acquire deadline signal => exact h.acquire hclock deadline signal
  | abort signal => exact h.abort hclock signal
  | applyCooldown milliseconds => exact h.applyCooldown hclock milliseconds
  | failClosed => exact h.failClosed
  | fire timer => exact h.fire hclock timer

/-- **Every run** does. -/
theorem kept_run (hclock : Monotone clock) (events : List Event) :
    Kept limits clock (run limits clock events) := by
  induction events using List.reverseRecOn with
  | nil => exact ⟨⟨.empty, by simp [run], Nat.zero_le _, by simp [run]⟩, fun hne => absurd rfl hne⟩
  | append_singleton events event ih =>
    rw [run, List.foldl_append]
    exact ih.step hclock event

/-! ## Who asked -/

/-- The deadline and the signal of a request. -/
def Event.request : Event → Option (ℚ × Option ℕ)
  | .acquire deadline signal => some (deadline, signal)
  | _ => none

/-- Everyone who called `acquire`, numbered in order. -/
def asked (events : List Event) : List StartWaiter :=
  (events.filterMap Event.request).zipIdx.map fun r => ⟨r.2, r.1.1, r.1.2⟩

theorem arrivals_clearTimer : s.clearTimer.arrivals = s.arrivals := by
  rw [clearTimer]
  cases s.timer <;> rfl

/-- Turns bring nobody new. -/
theorem Turns.arrivals (h : Turns limits clock s s') : s'.arrivals = s.arrivals := by
  induction h with
  | refl => rfl
  | tail _ hturn ih =>
    rw [← ih]
    cases hturn with
    | pruned => exact arrivals_clearTimer
    | rejected => rfl
    | armed => rfl
    | started => rfl

/-- Nor does an abort. -/
theorem arrivals_aborts (ws : List StartWaiter) :
    (ws.foldl (fun s w => if w ∈ s.queue then abortWaiter limits clock s w else s) s).arrivals =
      s.arrivals := by
  induction ws generalizing s with
  | nil => rfl
  | cons w ws ih =>
    rw [List.foldl_cons, ih]
    split_ifs
    · exact turns_pump.arrivals
    · rfl

/-- Only `acquire` adds a waiter, with its own deadline and signal. -/
theorem arrivals_step (event : Event) :
    (s.step limits clock event).arrivals =
      s.arrivals ++ (event.request.map fun r => ⟨s.arrivals.length, r.1, r.2⟩).toList := by
  cases event with
  | acquire deadline signal =>
    change (s.acquire limits clock deadline signal).arrivals = _
    rw [acquire]
    dsimp only
    split_ifs
    · rfl
    · rfl
    · rfl
    · exact turns_pump.arrivals
  | abort signal =>
    change (s.abort limits clock signal).arrivals = _
    rw [abort]
    split_ifs
    · exact (List.append_nil _).symm
    · exact (arrivals_aborts _).trans (List.append_nil _).symm
  | applyCooldown milliseconds =>
    change (s.applyCooldown limits clock milliseconds).arrivals = _
    simp only [applyCooldown]
    split
    · exact arrivals_clearTimer.trans (List.append_nil _).symm
    · split_ifs
      · exact arrivals_clearTimer.trans (List.append_nil _).symm
      · exact turns_pump.arrivals.trans (List.append_nil _).symm
  | failClosed => exact arrivals_clearTimer.trans (List.append_nil _).symm
  | fire timer =>
    change (s.fire limits clock timer).arrivals = _
    rw [fire]
    split_ifs
    · exact turns_pump.arrivals.trans (List.append_nil _).symm
    · exact (List.append_nil _).symm

/-- Those who ever arrived are those who asked. -/
theorem arrivals_run (events : List Event) : (run limits clock events).arrivals = asked events := by
  induction events using List.reverseRecOn with
  | nil => rfl
  | append_singleton events event ih =>
    have hlength : (asked events).length = (events.filterMap Event.request).length := by
      simp [asked]
    rw [run, List.foldl_append]
    change ((run limits clock events).step limits clock event).arrivals = _
    rw [arrivals_step, ih, hlength, asked, asked, List.filterMap_append, List.zipIdx_append]
    cases hrequest : event.request <;> simp [hrequest]

/-- Whenever a timer runs, everyone whose deadline has come leaves the queue. -/
theorem queue_fire {t : Timer} (ht : t ∈ s.timers.pending)
    (hw : w ∈ (s.fire limits clock t.id).queue) :
    clock s.readings < w.deadline := by
  rw [fire, if_pos ⟨t, ht, rfl⟩] at hw
  have hprune := (turns_drain _).sublist.subset hw
  rw [queue_prune] at hprune
  exact of_decide_eq_true (List.mem_filter.mp hprune).2

/-- **The scheduler is safe and loses no wake-up.** Whatever happens to it, and whenever the clock
is read: starts are in arrival order, an interval apart, not before the end of a cooldown, never
once it was shut, and before the deadline of the request; everyone who asked waits or was settled,
once; the queue is within its bound; while anyone waits a timer is pending that is due in time for
the head and for every deadline; and when a timer runs, whoever is too late leaves. A timer is due
at the time it was asked for; a due time already past is a timer that may run at once. -/
theorem run_paced (hclock : Monotone clock) (events : List Event) :
    let s := run limits clock events
    s.history.Pairwise (Mark.Admits StartWaiter.id limits.intervalMs) ∧
      (∀ w t, Mark.started w t ∈ s.history → t < w.deadline) ∧
      (s.queue ++ settled s.history).Perm (asked events) ∧ s.queue.length ≤ limits.maxQueue ∧
      (s.queue ≠ [] → ∃ t ∈ s.timers.pending, s.timer = some t.id ∧
        t.due ≤ max s.nextStartAt s.cooldownUntil ∧ ∀ w ∈ s.queue, t.due ≤ w.deadline) ∧
      ∀ t ∈ s.timers.pending, ∀ w ∈ (s.fire limits clock t.id).queue,
        clock s.readings < w.deadline := by
  intro s
  have hkept : Kept limits clock s := kept_run hclock events
  refine ⟨hkept.orderly.admits, hkept.punctual, ?_, hkept.bounded, hkept.armed, ?_⟩
  · rw [← @arrivals_run limits clock events]
    exact hkept.orderly.accounted
  · intro t ht w hw
    exact queue_fire ht hw

/-- Two requests of one signal behind a start: its abort empties the queue. -/
theorem run_paced_sample :
    let events := [Event.acquire 1000 none, .acquire 1000 (some 7), .acquire 900 (some 7), .abort 7]
    let s := run {} Nat.cast events
    (s.queue ++ settled s.history).Perm (asked events) ∧ s.queue = [] ∧
      s.history.Pairwise (Mark.Admits StartWaiter.id 400) := by
  obtain ⟨hadmits, -, haccounted, -⟩ := @run_paced {} Nat.cast Nat.mono_cast
    [.acquire 1000 none, .acquire 1000 (some 7), .acquire 900 (some 7), .abort 7]
  exact ⟨haccounted, by decide +kernel, hadmits⟩

end RpcStartScheduler

end Devnet

end DividendX
