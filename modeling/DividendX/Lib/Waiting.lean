import Mathlib.Data.List.Range
import Mathlib.Data.List.Perm.Basic
import Mathlib.Algebra.Order.Field.Rat
import Mathlib.Tactic.Linarith

/-!
# Waiters, timers and paced starts

What a queue of waiters leaves behind is a list of marks: who was started and when, who was turned
away and why, which cooldowns were ordered, and whether the queue was shut. Two marks in that order
are **admissible** if the second is not a start too early for the first, or in the wrong order
(`Mark.Admits`). A queue is **orderly** (`Orderly`) if every waiter that ever arrived either waits
in it or was settled by exactly one mark, in arrival order, and its marks are admissible; every move
of a queue that waits for the times it keeps leaves it orderly.
-/

/-- A timer that was set and has not run: its number, and the time it was asked to run at. When it
does run is left to the runtime; one that was asked for a time already past may run at once. -/
structure Timer where
  id : ℕ
  due : ℚ
deriving DecidableEq, Repr

/-- The timers of a runtime: those pending, and how many were ever set. -/
structure Timers where
  pending : List Timer
  created : ℕ
deriving DecidableEq, Repr

namespace Timers

/-- `setTimeout`, for a delay that ends at `due`: the number of the new timer is the number of
timers before it. A delay that is not positive ends at once, and `due` then lies in the past. -/
def set (ts : Timers) (due : ℚ) : Timers := ⟨⟨ts.created, due⟩ :: ts.pending, ts.created + 1⟩

/-- `clearTimeout`. -/
def clear (ts : Timers) (id : ℕ) : Timers := { ts with pending := ts.pending.filter (·.id ≠ id) }

theorem mem_set {ts : Timers} {due : ℚ} : ⟨ts.created, due⟩ ∈ (ts.set due).pending :=
  List.mem_cons_self

end Timers

/-- What happens to a queue of waiters that outsiders can see. -/
inductive Mark (ω ρ : Type) where
  | started (w : ω) (time : ℚ)
  | rejected (w : ω) (why : ρ)
  | cooled (time : ℚ)
  | shut
deriving DecidableEq, Repr

namespace Mark

variable {ω ρ : Type} (id : ω → ℕ) (interval : ℚ)

/-- The waiter a mark settles. -/
def settles : Mark ω ρ → Option ω
  | .started w _ => some w
  | .rejected w _ => some w
  | .cooled _ => none
  | .shut => none

/-- A mark that may come after another: starts come in arrival order and an interval apart, not
before the end of a cooldown, and never once the queue was shut. -/
def Admits : Mark ω ρ → Mark ω ρ → Prop
  | .started w t, .started w' t' => id w < id w' ∧ t + interval ≤ t'
  | .cooled u, .started _ t => u ≤ t
  | .shut, .started _ _ => False
  | _, _ => True

/-- A start. -/
def IsStart : Mark ω ρ → Prop
  | .started _ _ => True
  | _ => False

/-- Anything but a start may come after anything. -/
theorem admits_of_not_isStart {m m' : Mark ω ρ} (h : ¬m'.IsStart) : m.Admits id interval m' := by
  cases m' with
  | started => exact absurd trivial h
  | rejected => cases m <;> exact trivial
  | cooled => cases m <;> exact trivial
  | shut => cases m <;> exact trivial

end Mark

/-- The waiters that were settled, in order. -/
def settled {ω ρ : Type} (history : List (Mark ω ρ)) : List ω := history.filterMap Mark.settles

theorem settled_append {ω ρ : Type} (history more : List (Mark ω ρ)) :
    settled (history ++ more) = settled history ++ settled more := List.filterMap_append

theorem settled_rejected {ω ρ : Type} (gone : List ω) (why : ρ) :
    settled (gone.map (Mark.rejected · why)) = gone := by
  rw [settled, List.filterMap_map]
  exact List.filterMap_some

/-- The waiters that were started, in order. -/
def startedOf {ω ρ : Type} (history : List (Mark ω ρ)) : List ω :=
  history.filterMap fun
    | .started w _ => some w
    | _ => none

theorem startedOf_append {ω ρ : Type} (history more : List (Mark ω ρ)) :
    startedOf (history ++ more) = startedOf history ++ startedOf more := List.filterMap_append

theorem mem_startedOf {ω ρ : Type} {history : List (Mark ω ρ)} {w : ω} :
    w ∈ startedOf history ↔ ∃ t, Mark.started w t ∈ history := by
  rw [startedOf, List.mem_filterMap]
  constructor
  · rintro ⟨m, hm, hw⟩
    cases m with
    | started w' t =>
      cases hw
      exact ⟨t, hm⟩
    | _ => cases hw
  · rintro ⟨t, hm⟩
    exact ⟨_, hm, rfl⟩

/-- A queue, with all waiters that arrived so far and the marks it left, at a clock reading `now`,
with the times it keeps: no start before `next` nor before `cooldown`. -/
structure Orderly {ω ρ : Type} (id : ω → ℕ) (interval now next cooldown : ℚ)
    (arrivals queue : List ω) (history : List (Mark ω ρ)) : Prop where
  accounted : (queue ++ settled history).Perm arrivals
  numbered : arrivals.map id = List.range arrivals.length
  arrived : queue.Pairwise fun w w' => id w < id w'
  admits : history.Pairwise (Mark.Admits id interval)
  started : ∀ w t, Mark.started w t ∈ history →
    t ≤ now ∧ t + interval ≤ next ∧ ∀ q ∈ queue, id w < id q
  cooled : ∀ u, Mark.cooled u ∈ history → u ≤ cooldown
  shut : Mark.shut ∈ history → queue = []

namespace Orderly

variable {ω ρ : Type} {id : ω → ℕ} {interval now next cooldown : ℚ} {arrivals queue : List ω}
  {history : List (Mark ω ρ)}

/-- Before anyone arrives. -/
theorem empty : Orderly id interval now next cooldown [] [] ([] : List (Mark ω ρ)) where
  accounted := .refl _
  numbered := rfl
  arrived := .nil
  admits := .nil
  started := by intro w t h; cases h
  cooled := by intro u h; cases h
  shut := fun _ => rfl

/-- The numbers in use are below that of the next waiter. -/
theorem id_lt (h : Orderly id interval now next cooldown arrivals queue history) {w : ω}
    (hw : w ∈ queue ++ settled history) : id w < arrivals.length := by
  have hmem : id w ∈ arrivals.map id := List.mem_map_of_mem (h.accounted.mem_iff.mp hw)
  rw [h.numbered] at hmem
  exact List.mem_range.mp hmem

/-- One more waiter gets the next number. -/
theorem numbered_snoc (h : Orderly id interval now next cooldown arrivals queue history) {w : ω}
    (hid : id w = arrivals.length) :
    (arrivals ++ [w]).map id = List.range (arrivals ++ [w]).length := by
  rw [List.map_append, h.numbered, List.length_append, List.length_singleton, List.range_succ,
    List.map_singleton, hid]

/-- Nobody is settled twice, and nobody who still waits is. -/
theorem nodup (h : Orderly id interval now next cooldown arrivals queue history) :
    ((queue ++ settled history).map id).Nodup := by
  have hids : (arrivals.map id).Nodup := by
    rw [h.numbered]
    exact List.nodup_range
  exact (h.accounted.map id).nodup_iff.mpr hids

/-- A waiter that was started was not turned away. -/
theorem not_rejected (h : Orderly id interval now next cooldown arrivals queue history)
    {w w' : ω} {why : ρ}
    (hstarted : w ∈ startedOf history) (hrejected : Mark.rejected w' why ∈ history) :
    id w ≠ id w' := by
  intro heq
  have hdistinct : (settled history).Pairwise fun a b => id a ≠ id b := by
    have hmap := h.nodup
    rw [List.map_append] at hmap
    exact List.pairwise_map.mp (List.pairwise_append.mp hmap).2.1
  obtain ⟨t, ht⟩ := mem_startedOf.mp hstarted
  have hmarks := List.pairwise_filterMap.mp hdistinct
  -- two different marks of the history, one of them before the other
  have hsymm : Std.Symm fun m m' : Mark ω ρ => ∀ a, m.settles = some a → ∀ b,
      m'.settles = some b → id a ≠ id b :=
    ⟨fun m m' hne a ha b hb => (hne b hb a ha).symm⟩
  exact hmarks.forall ht hrejected (by simp) w rfl w' rfl heq

/-- The clock moves on. -/
theorem tick (h : Orderly id interval now next cooldown arrivals queue history) {now' : ℚ}
    (hnow : now ≤ now') : Orderly id interval now' next cooldown arrivals queue history where
  accounted := h.accounted
  numbered := h.numbered
  arrived := h.arrived
  admits := h.admits
  started := by
    intro w t hm
    obtain ⟨ht, hrest⟩ := h.started w t hm
    exact ⟨ht.trans hnow, hrest⟩
  cooled := h.cooled
  shut := h.shut

/-- A waiter joins the queue. -/
theorem arrive (h : Orderly id interval now next cooldown arrivals queue history) {w : ω}
    (hid : id w = arrivals.length) (hopen : Mark.shut ∉ history) :
    Orderly id interval now next cooldown (arrivals ++ [w]) (queue ++ [w]) history where
  accounted := by
    have hswap : ((queue ++ [w]) ++ settled history).Perm ((queue ++ settled history) ++ [w]) := by
      rw [List.append_assoc, List.append_assoc]
      exact List.perm_append_comm.append_left _
    exact hswap.trans (h.accounted.append_right _)
  numbered := h.numbered_snoc hid
  arrived := by
    refine List.pairwise_append.mpr ⟨h.arrived, List.pairwise_singleton _ _, ?_⟩
    intro q hq w' hw'
    rw [List.mem_singleton.mp hw', hid]
    exact h.id_lt (List.mem_append_left _ hq)
  admits := h.admits
  started := by
    intro w' t hm
    obtain ⟨hnow, hnext, hahead⟩ := h.started w' t hm
    refine ⟨hnow, hnext, ?_⟩
    intro q hq
    rcases List.mem_append.mp hq with hq | hq
    · exact hahead q hq
    · rw [List.mem_singleton.mp hq, hid]
      exact h.id_lt (List.mem_append_right _ (List.mem_filterMap.mpr ⟨_, hm, rfl⟩))
  cooled := h.cooled
  shut := fun hm => absurd hm hopen

/-- Marks that are not starts are added, and waiters may leave the queue with them. -/
theorem note (h : Orderly id interval now next cooldown arrivals queue history) {cooldown' : ℚ}
    {arrivals' queue' : List ω} {more : List (Mark ω ρ)} (hmore : ∀ m ∈ more, ¬m.IsStart)
    (haccounted : (queue' ++ settled (history ++ more)).Perm arrivals')
    (hnumbered : arrivals'.map id = List.range arrivals'.length)
    (hsub : queue'.Sublist queue) (hcool : cooldown ≤ cooldown')
    (hcooled : ∀ u, Mark.cooled u ∈ more → u ≤ cooldown') (hshut : Mark.shut ∈ more → queue' = []) :
    Orderly id interval now next cooldown' arrivals' queue' (history ++ more) where
  accounted := haccounted
  numbered := hnumbered
  arrived := h.arrived.sublist hsub
  admits := by
    refine List.pairwise_append.mpr ⟨h.admits, ?_, ?_⟩
    · refine List.pairwise_of_forall_mem_list ?_
      intro m _ m' hm'
      exact m.admits_of_not_isStart id interval (hmore m' hm')
    · intro m _ m' hm'
      exact m.admits_of_not_isStart id interval (hmore m' hm')
  started := by
    intro w t hm
    rcases List.mem_append.mp hm with hm | hm
    · obtain ⟨hnow, hnext, hahead⟩ := h.started w t hm
      exact ⟨hnow, hnext, fun q hq => hahead q (hsub.subset hq)⟩
    · exact absurd trivial (hmore _ hm)
  cooled := by
    intro u hm
    rcases List.mem_append.mp hm with hm | hm
    · exact (h.cooled u hm).trans hcool
    · exact hcooled u hm
  shut := by
    intro hm
    rcases List.mem_append.mp hm with hm | hm
    · rw [h.shut hm] at hsub
      exact List.sublist_nil.mp hsub
    · exact hshut hm

/-- A waiter is turned away at the door. -/
theorem refuse (h : Orderly id interval now next cooldown arrivals queue history) {w : ω} {why : ρ}
    (hid : id w = arrivals.length) :
    Orderly id interval now next cooldown (arrivals ++ [w]) queue
      (history ++ [.rejected w why]) := by
  refine h.note (by simp [Mark.IsStart]) ?_ (h.numbered_snoc hid) (.refl _) (le_refl _) (by simp)
    (by simp)
  rw [settled_append, ← List.append_assoc]
  exact h.accounted.append_right _

/-- Some waiters are taken out of the queue and turned away. -/
theorem reject (h : Orderly id interval now next cooldown arrivals queue history)
    {queue' gone : List ω}
    {why : ρ} (hsub : queue'.Sublist queue) (hperm : queue.Perm (queue' ++ gone)) :
    Orderly id interval now next cooldown arrivals queue'
      (history ++ gone.map (Mark.rejected · why)) := by
  refine h.note (by simp [Mark.IsStart]) ?_ h.numbered hsub (le_refl _) (by simp) (by simp)
  rw [settled_append, settled_rejected]
  calc (queue' ++ (settled history ++ gone)).Perm (queue' ++ (gone ++ settled history)) :=
      List.perm_append_comm.append_left _
    _ = (queue' ++ gone) ++ settled history := (List.append_assoc _ _ _).symm
    _ |>.Perm (queue ++ settled history) := hperm.symm.append_right _
    _ |>.Perm arrivals := h.accounted

/-- The waiter at the head starts at a time that is due. -/
theorem start {w : ω} (h : Orderly id interval now next cooldown arrivals (w :: queue) history)
    (hnext : next ≤ now) (hcool : cooldown ≤ now) :
    Orderly id interval now (now + interval) cooldown arrivals queue
      (history ++ [.started w now]) where
  accounted := by
    rw [settled_append, ← List.append_assoc]
    have hcons : (queue ++ settled history ++ [w]).Perm (w :: queue ++ settled history) :=
      List.perm_append_singleton _ _
    exact hcons.trans h.accounted
  numbered := h.numbered
  arrived := h.arrived.of_cons
  admits := by
    refine List.pairwise_append.mpr ⟨h.admits, List.pairwise_singleton _ _, ?_⟩
    intro m hm m' hm'
    rw [List.mem_singleton.mp hm']
    cases m with
    | started w' t =>
      obtain ⟨-, ht, hahead⟩ := h.started w' t hm
      exact ⟨hahead w List.mem_cons_self, ht.trans hnext⟩
    | rejected => exact trivial
    | cooled u => exact (h.cooled u hm).trans hcool
    | shut => exact absurd (h.shut hm) (List.cons_ne_nil _ _)
  started := by
    intro w' t hm
    rcases List.mem_append.mp hm with hm | hm
    · obtain ⟨ht, -, hahead⟩ := h.started w' t hm
      exact ⟨ht, by linarith, fun q hq => hahead q (List.mem_cons_of_mem _ hq)⟩
    · cases List.mem_singleton.mp hm
      exact ⟨le_refl _, le_refl _, fun q hq => List.rel_of_pairwise_cons h.arrived hq⟩
  cooled := by
    intro u hm
    exact h.cooled u (by simpa using hm)
  shut := by
    intro hm
    cases h.shut (by simpa using hm)

/-- A cooldown is ordered; a longer one stays in force. -/
theorem cool (h : Orderly id interval now next cooldown arrivals queue history) {u cooldown' : ℚ}
    (hold : cooldown ≤ cooldown') (hu : u ≤ cooldown') :
    Orderly id interval now next cooldown' arrivals queue (history ++ [.cooled u]) := by
  refine h.note (by simp [Mark.IsStart]) ?_ h.numbered (.refl _) hold (by simpa using hu) (by simp)
  rw [settled_append]
  exact (List.append_nil _).symm ▸ h.accounted

/-- The queue is shut, and everyone who waits is turned away. -/
theorem close (h : Orderly id interval now next cooldown arrivals queue history) {why : ρ} :
    Orderly id interval now next cooldown arrivals []
      (history ++ .shut :: queue.map (Mark.rejected · why)) := by
  refine h.note ?_ ?_ h.numbered (List.nil_sublist _) (le_refl _) (by simp) (fun _ => rfl)
  · intro m hm hstart
    cases m with
    | started => simp at hm
    | _ => exact hstart
  · have hmark : settled (Mark.shut :: queue.map (Mark.rejected · why)) = queue :=
      settled_rejected queue why
    rw [settled_append, hmark, List.nil_append]
    exact List.perm_append_comm.trans h.accounted

end Orderly
