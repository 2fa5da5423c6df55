import Mathlib.Tactic.Common

/-!
# Methods of a mutable object

A method reads and assigns the fields of its object and may throw at any point. What it had
assigned by then stays assigned: nothing is rolled back.

**All or nothing.** `Settles s₀ m s R` says of a method run from `s`, within a call that started
in `s₀`: it throws and leaves the object as it was in `s₀`, or it returns with `R`. The rules follow
the text of a method. As long as nothing is assigned a check may fail (`Settles.check`); after an
assignment a check must be shown to pass (`Settles.pass`).

**No throw.** `Returns m s R` says that the method returns, with `R`: every check is shown to pass.

**Recorded calls.** `replay` makes a list of calls one after the other, and stops where a call
throws or its answer is not the recorded one.
-/

/-- A method of an object with fields `σ`. -/
def Method (σ ε α : Type) : Type := σ → Except ε α × σ

namespace Method

variable {σ ε α β : Type}

instance : Monad (Method σ ε) where
  pure a s := (.ok a, s)
  bind m f s := match m s with
    | (.ok a, s') => f a s'
    | (.error e, s') => (.error e, s')

/-- The object as it is now. -/
def this : Method σ ε σ := fun s => (.ok s, s)

/-- A computation on values, which may throw. -/
def check (c : Except ε α) : Method σ ε α := fun s => (c, s)

/-- An assignment. -/
def assign (g : σ → σ) : Method σ ε Unit := fun s => (.ok (), g s)

/-- A method that goes on after a check passed it. -/
theorem check_bind_eq_ok {c : Except ε β} {f : β → Method σ ε α} {s s' : σ} {a : α} :
    (check c >>= f) s = (.ok a, s') ↔ ∃ b, c = .ok b ∧ f b s = (.ok a, s') := by
  cases c with
  | ok b =>
    simp only [Except.ok.injEq, exists_eq_left']
    rfl
  | error e => simp [check, bind]

/-- The method throws and leaves the object as it was at first, or returns with `R`. -/
def Settles (s₀ : σ) (m : Method σ ε α) (s : σ) (R : α → σ → Prop) : Prop :=
  match m s with
  | (.ok a, s') => R a s'
  | (.error _, s') => s' = s₀

namespace Settles

variable {s₀ s : σ} {R : α → σ → Prop} {c : Except ε β} {f : β → Method σ ε α}

theorem pure {a : α} (h : R a s) : Settles s₀ (Pure.pure a : Method σ ε α) s R := h

theorem this {f : σ → Method σ ε α} (h : Settles s₀ (f s) s R) :
    Settles s₀ (Method.this >>= f) s R := h

/-- The state is written, and the rest settles from there. -/
theorem assign {g : σ → σ} {f : Unit → Method σ ε α} (h : Settles s₀ (f ()) (g s) R) :
    Settles s₀ (Method.assign g >>= f) s R := h

/-- A check before the first assignment. -/
theorem check (h : ∀ b, c = .ok b → Settles s (f b) s R) :
    Settles s (Method.check c >>= f) s R := by
  cases c with
  | ok b => exact h b rfl
  | error e => exact rfl

/-- A check that passes. -/
theorem pass {b : β} (hc : c = .ok b) (h : Settles s₀ (f b) s R) :
    Settles s₀ (Method.check c >>= f) s R := by
  subst hc
  exact h

/-- A method that only assigns and returns nothing. -/
theorem done {g : σ → σ} {R : Unit → σ → Prop} (h : R () (g s)) :
    Settles s₀ (Method.assign g : Method σ ε Unit) s R := h

/-- A weaker end settles too. -/
theorem mono {m : Method σ ε α} {R' : α → σ → Prop} (h : Settles s₀ m s R)
    (hR : ∀ a s', R a s' → R' a s') : Settles s₀ m s R' := by
  rw [Settles] at h ⊢
  split at h
  · exact hR _ _ h
  · exact h

/-- A method whose value is mapped. -/
theorem returns {m : Method σ ε α} {g : α → β} {R : σ → Prop}
    (h : Settles s₀ m s fun _ s' => R s') :
    Settles s₀ (m >>= fun a => Pure.pure (g a)) s fun _ s' => R s' := by
  rw [Settles] at h ⊢
  simp only [bind]
  cases hm : m s with
  | mk r s' =>
    rw [hm] at h
    cases r with
    | ok a => exact h
    | error e => exact h

/-- What a throw leaves. -/
theorem of_error {m : Method σ ε α} {e : ε} {s' : σ} (h : Settles s₀ m s R)
    (hm : m s = (.error e, s')) : s' = s₀ := by
  rw [Settles] at h
  rw [hm] at h
  exact h

/-- What a call returned is what was settled. -/
theorem of_ok {m : Method σ ε α} {a : α} {s' : σ} (h : Settles s₀ m s R)
    (hm : m s = (.ok a, s')) : R a s' := by
  rw [Settles] at h
  rw [hm] at h
  exact h

end Settles

/-- The method returns with `R`. -/
def Returns (m : Method σ ε α) (s : σ) (R : α → σ → Prop) : Prop :=
  ∃ a s', m s = (.ok a, s') ∧ R a s'

namespace Returns

variable {s : σ} {R : α → σ → Prop} {c : Except ε β} {f : β → Method σ ε α}

theorem pure {a : α} (h : R a s) : Returns (Pure.pure a : Method σ ε α) s R := ⟨a, s, rfl, h⟩

theorem this {f : σ → Method σ ε α} (h : Returns (f s) s R) : Returns (Method.this >>= f) s R := h

theorem assign {g : σ → σ} {f : Unit → Method σ ε α} (h : Returns (f ()) (g s) R) :
    Returns (Method.assign g >>= f) s R := h

/-- A check that passes is passed. -/
theorem pass {b : β} (hc : c = .ok b) (h : Returns (f b) s R) :
    Returns (Method.check c >>= f) s R := by
  subst hc
  exact h

/-- A method that only assigns and returns nothing. -/
theorem done {g : σ → σ} {R : Unit → σ → Prop} (h : R () (g s)) :
    Returns (Method.assign g : Method σ ε Unit) s R := ⟨(), g s, rfl, h⟩

/-- A method whose value is mapped. -/
theorem returns {m : Method σ ε α} {g : α → β} {R : β → σ → Prop}
    (h : Returns m s fun a s' => R (g a) s') :
    Returns (m >>= fun a => Pure.pure (g a)) s R := by
  obtain ⟨a, s', hm, hR⟩ := h
  refine ⟨g a, s', ?_, hR⟩
  simp only [bind, hm]
  rfl

end Returns

/-! ## Recorded calls -/

section Replay

variable {O : Type} [DecidableEq α]

/-- Calls made in order, as long as each returns what is recorded. -/
def replay (apply : O → Method σ ε α) (s : σ) : List (O × α) → Option σ
  | [] => some s
  | (o, a) :: calls =>
    match apply o s with
    | (.ok a', s') => if a' = a then replay apply s' calls else none
    | (.error _, _) => none

variable {apply : O → Method σ ε α} {s s' s'' : σ} {o : O} {a : α} {calls calls' : List (O × α)}

/-- One call is replayed, and then the others. -/
theorem replay_cons : replay apply s ((o, a) :: calls) = some s'' ↔
    ∃ s', apply o s = (.ok a, s') ∧ replay apply s' calls = some s'' := by
  rw [replay]
  cases h : apply o s with
  | mk r s₁ =>
    cases r with
    | error e => simp
    | ok a' =>
      by_cases ha : a' = a
      · subst ha
        simp
      · simp [ha]

/-- Replays follow one another. -/
theorem replay_append : replay apply s (calls ++ calls') = some s'' ↔
    ∃ s', replay apply s calls = some s' ∧ replay apply s' calls' = some s'' := by
  induction calls generalizing s with
  | nil => simp [replay]
  | cons call calls ih =>
    obtain ⟨o, a⟩ := call
    rw [List.cons_append, replay_cons]
    simp only [ih, replay_cons]
    constructor
    · rintro ⟨s₁, hcall, s₂, hcalls, hcalls'⟩
      exact ⟨s₂, ⟨s₁, hcall, hcalls⟩, hcalls'⟩
    · rintro ⟨s₂, ⟨s₁, hcall, hcalls⟩, hcalls'⟩
      exact ⟨s₁, hcall, s₂, hcalls, hcalls'⟩

end Replay

end Method
