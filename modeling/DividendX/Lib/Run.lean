import Mathlib.Data.Option.Basic
import Mathlib.Data.List.Basic

/-!
# Runs of a deterministic machine

A machine is a partial step function on a state, labelled by what was asked of it. A **run** is a
finite sequence of accepted labels; refused ones leave no trace. Runs grow at the end, so the
induction rule hands an invariant the whole history (`Run.rec_on_history`), and any run can be
cut at a point of its history (`Run.split`).
-/

variable {σ α : Type}

/-- Runs of `step` from one state to another, with the accepted labels in order. -/
inductive Run (step : σ → α → Option σ) (s : σ) : List α → σ → Prop
  | nil : Run step s [] s
  | snoc {t u : σ} {tr : List α} {a : α} :
      Run step s tr t → step t a = some u → Run step s (tr ++ [a]) u

namespace Run

variable {step : σ → α → Option σ} {s t u : σ} {tr tr' : List α} {a : α}

theorem single (h : step s a = some t) : Run step s [a] t := by
  rw [← List.nil_append [a]]
  exact .snoc .nil h

theorem append (h : Run step s tr t) (h' : Run step t tr' u) : Run step s (tr ++ tr') u := by
  induction h' with
  | nil =>
    rw [List.append_nil]
    exact h
  | snoc _ hstep ih =>
    rw [← List.append_assoc]
    exact .snoc ih hstep

theorem eq_of_nil (h : Run step s [] t) : s = t := by
  generalize htr : ([] : List α) = tr at h
  cases h with
  | nil => rfl
  | snoc => simp at htr

/-- The last step of a run. -/
theorem unsnoc (h : Run step s (tr ++ [a]) u) : ∃ t, Run step s tr t ∧ step t a = some u := by
  generalize htr : tr ++ [a] = tr' at h
  cases h with
  | nil => simp at htr
  | @snoc t _ tr'' a' h hstep =>
    obtain ⟨rfl, heq⟩ := List.append_inj' htr rfl
    cases heq
    exact ⟨t, h, hstep⟩

/-- A run can be cut anywhere. -/
theorem split (h : Run step s (tr ++ tr') u) : ∃ t, Run step s tr t ∧ Run step t tr' u := by
  generalize htr : tr ++ tr' = all at h
  induction h generalizing tr' with
  | nil =>
    obtain ⟨rfl, rfl⟩ := List.append_eq_nil_iff.mp htr
    exact ⟨s, .nil, .nil⟩
  | @snoc t u all a h hstep ih =>
    rcases List.eq_nil_or_concat tr' with rfl | ⟨front, last, rfl⟩
    · rw [List.append_nil] at htr
      subst htr
      exact ⟨u, .snoc h hstep, .nil⟩
    · rw [List.concat_eq_append, ← List.append_assoc] at htr
      obtain ⟨hfront, hlast⟩ := List.append_inj' htr rfl
      cases hlast
      obtain ⟨m, hm, hrest⟩ := ih hfront
      refine ⟨m, hm, ?_⟩
      rw [List.concat_eq_append]
      exact .snoc hrest hstep

theorem cons (h : step s a = some t) (h' : Run step t tr u) : Run step s (a :: tr) u :=
  append (single h) h'

/-- The first step of a run. -/
theorem uncons (h : Run step s (a :: tr) u) : ∃ t, step s a = some t ∧ Run step t tr u := by
  obtain ⟨t, h₁, h₂⟩ := @split _ _ step s u [a] tr h
  obtain ⟨s', h₀, hstep⟩ := @unsnoc _ _ step s t [] a h₁
  rw [← eq_of_nil h₀] at hstep
  exact ⟨t, hstep, h₂⟩

/-- A run is one of every machine that takes the same steps. -/
theorem mono {step' : σ → α → Option σ} (h : Run step s tr t)
    (hstep : ∀ s a t, step s a = some t → step' s a = some t) : Run step' s tr t := by
  induction h with
  | nil => exact .nil
  | snoc _ hlast ih => exact .snoc ih (hstep _ _ _ hlast)

/-- A machine that is asked the same things ends in the same state. -/
theorem functional (h : Run step s tr t) (h' : Run step s tr u) : t = u := by
  induction h generalizing u with
  | nil => exact eq_of_nil h'
  | snoc _ hstep ih =>
    obtain ⟨m, hm, hlast⟩ := unsnoc h'
    rw [ih hm, hlast] at hstep
    exact (Option.some.inj hstep).symm

/-- **Invariants over histories.** What holds at the start and is kept by every accepted step,
given how the state before it was reached, holds after every run. -/
theorem rec_on_history {P : List α → σ → Prop} (h : Run step s tr t) (start : P [] s)
    (keep : ∀ tr t a u, Run step s tr t → P tr t → step t a = some u → P (tr ++ [a]) u) :
    P tr t := by
  induction h with
  | nil => exact start
  | snoc h hstep ih => exact keep _ _ _ _ h ih hstep

/-- Invariants of states. -/
theorem invariant {P : σ → Prop} (h : Run step s tr t) (start : P s)
    (keep : ∀ t a u, P t → step t a = some u → P u) : P t :=
  rec_on_history (P := fun _ => P) h start fun _ t a u _ hp hstep => keep t a u hp hstep

end Run

/-- Run a machine on a list of labels. -/
def runAll (step : σ → α → Option σ) (s : σ) : List α → Option σ
  | [] => some s
  | a :: tr => (step s a).bind fun t => runAll step t tr

/-- The executable form of a run. -/
theorem runAll_eq_some {step : σ → α → Option σ} {s t : σ} {tr : List α} :
    runAll step s tr = some t ↔ Run step s tr t := by
  induction tr generalizing s with
  | nil =>
    rw [runAll, Option.some.injEq]
    refine ⟨fun h => h ▸ .nil, Run.eq_of_nil⟩
  | cons a tr ih =>
    rw [runAll, Option.bind_eq_some_iff]
    refine ⟨fun ⟨m, hstep, hrest⟩ => .cons hstep (ih.mp hrest), fun h => ?_⟩
    obtain ⟨m, hstep, hrest⟩ := h.uncons
    exact ⟨m, hstep, ih.mpr hrest⟩

/-! ## Cutting a history at a marked label -/

/-- The first label of a kind cuts a history in one way. -/
theorem split_first_unique {p : α → Bool} {l₁ l₁' l₂ l₂' : List α} {a a' : α}
    (h : l₁ ++ a :: l₂ = l₁' ++ a' :: l₂') (ha : p a = true) (ha' : p a' = true)
    (hl : ∀ x ∈ l₁, p x = false) (hl' : ∀ x ∈ l₁', p x = false) :
    l₁ = l₁' ∧ a = a' ∧ l₂ = l₂' := by
  induction l₁ generalizing l₁' with
  | nil =>
    cases l₁' with
    | nil =>
      cases h
      exact ⟨rfl, rfl, rfl⟩
    | cons x l₁' =>
      have hx : a = x := (List.cons.inj h).1
      rw [hx, hl' x List.mem_cons_self] at ha
      cases ha
  | cons x l₁ ih =>
    cases l₁' with
    | nil =>
      have hx : x = a' := (List.cons.inj h).1
      rw [← hx, hl x List.mem_cons_self] at ha'
      cases ha'
    | cons y l₁' =>
      obtain ⟨rfl, htail⟩ := List.cons.inj h
      obtain ⟨rfl, rfl, rfl⟩ := ih htail (fun z hz => hl z (List.mem_cons_of_mem _ hz))
        fun z hz => hl' z (List.mem_cons_of_mem _ hz)
      exact ⟨rfl, rfl, rfl⟩

/-- The last label of a kind cuts a history in one way. -/
theorem split_last_unique {p : α → Bool} {l₁ l₁' l₂ l₂' : List α} {a a' : α}
    (h : l₁ ++ a :: l₂ = l₁' ++ a' :: l₂') (ha : p a = true) (ha' : p a' = true)
    (hl : ∀ x ∈ l₂, p x = false) (hl' : ∀ x ∈ l₂', p x = false) :
    l₁ = l₁' ∧ a = a' ∧ l₂ = l₂' := by
  have hrev := congrArg List.reverse h
  simp only [List.reverse_append, List.reverse_cons, List.append_assoc,
    List.singleton_append] at hrev
  obtain ⟨h₂, rfl, h₁⟩ := split_first_unique hrev ha ha'
    (fun x hx => hl x (List.mem_reverse.mp hx)) fun x hx => hl' x (List.mem_reverse.mp hx)
  exact ⟨List.reverse_injective h₁, rfl, List.reverse_injective h₂⟩
