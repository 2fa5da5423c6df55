import Mathlib.Tactic.Common

/-!
# A register with conditional writes

One value under one name, written only through "create if absent" and "replace if unchanged since
version `e`". Every write that takes effect makes a new version. A writer whose call fails learns
nothing: its write stays in flight and may still take effect at any later moment, if the version it
expects is then current.

**Lost updates cannot happen.** If every write carries out a change on the value its writer last
read (`MayPut`), then every write that takes effect, at once or late, carries out its change on the
value stored at that moment (`Puts.change`, `Lands.change`). So what every change keeps holds of the
stored value, whatever the interleaving.
-/

/-- A value and its version. -/
structure Versioned (V : Type) where
  value : V
  etag : Nat

/-- A write: the version it expects, none to create, and the value. What the writer set out to do
is kept beside it; the register does not look at it. -/
structure Put (χ V : Type) where
  change : χ
  expected : Option Nat
  value : V

/-- The register and the writes whose callers were left without an answer. -/
structure CasStore (χ V : Type) where
  cell : Option (Versioned V)
  inflight : List (Put χ V)

namespace CasStore

variable {χ V ε : Type}

/-- The current version. -/
def etag (cell : Option (Versioned V)) : Option Nat := cell.map Versioned.etag

/-- The current value. -/
def content (initial : V) (cell : Option (Versioned V)) : V :=
  (cell.map Versioned.value).getD initial

/-- How many writes a version is old. -/
def age : Option Nat → Nat
  | none => 0
  | some n => n + 1

/-- The register after a write. -/
def write (s : CasStore χ V) (p : Put χ V) : CasStore χ V :=
  { s with cell := some ⟨p.value, age (etag s.cell)⟩ }

/-- A write is asked for: it takes effect, or the version has changed, or the call fails and
nobody knows. -/
inductive Puts (s : CasStore χ V) (p : Put χ V) : Except ε Bool → CasStore χ V → Prop
  | saved : p.expected = etag s.cell → Puts s p (.ok true) (s.write p)
  | refused : Puts s p (.ok false) s
  | lost (e : ε) : Puts s p (.error e) { s with inflight := p :: s.inflight }

/-- A write in flight takes effect late. -/
inductive Lands (s : CasStore χ V) : Put χ V → CasStore χ V → Prop
  | late {p : Put χ V} : p ∈ s.inflight → p.expected = etag s.cell → Lands s p (s.write p)

@[simp] theorem age_write (s : CasStore χ V) (p : Put χ V) :
    age (etag (s.write p).cell) = age (etag s.cell) + 1 := rfl

/-! ## What moves with the register -/

section Rules

variable (initial : V) (Next : χ → V → V → Prop) (R : V → V → Prop)

/-- The register later on: unchanged, or at a newer version; the value moved within `R`. -/
def Later (cell cell' : Option (Versioned V)) : Prop :=
  (cell' = cell ∨ age (etag cell) < age (etag cell'))
    ∧ R (content initial cell) (content initial cell')

/-- A write that carries out its change on the current value, if it still can take effect. -/
def MayPut (p : Put χ V) (cell : Option (Versioned V)) : Prop :=
  age p.expected ≤ age (etag cell) ∧
    (p.expected = etag cell → Next p.change (content initial cell) p.value)

/-- All writes in flight are of that kind. -/
def Orderly (s : CasStore χ V) : Prop := ∀ p ∈ s.inflight, MayPut initial Next p s.cell

variable {initial Next R} {cell cell' cell'' : Option (Versioned V)} {s s' : CasStore χ V}
  {p : Put χ V} {x : Except ε Bool}

theorem Later.refl (hR : ∀ v, R v v) (cell : Option (Versioned V)) : Later initial R cell cell :=
  ⟨.inl rfl, hR _⟩

theorem Later.trans (hR : ∀ {u v w}, R u v → R v w → R u w) (h : Later initial R cell cell')
    (h' : Later initial R cell' cell'') : Later initial R cell cell'' := by
  obtain ⟨hage, hval⟩ := h
  obtain ⟨hage', hval'⟩ := h'
  refine ⟨?_, hR hval hval'⟩
  rcases hage with rfl | hlt
  · exact hage'
  · rcases hage' with rfl | hlt'
    · exact .inr hlt
    · exact .inr (Nat.lt_trans hlt hlt')

/-- A write is still one that may be asked for later: a newer version refuses it. -/
theorem MayPut.later (h : MayPut initial Next p cell) (hl : Later initial R cell cell') :
    MayPut initial Next p cell' := by
  obtain ⟨hage, hnext⟩ := h
  rcases hl.1 with rfl | hlt
  · exact ⟨hage, hnext⟩
  · refine ⟨by omega, fun heq => ?_⟩
    rw [heq] at hage
    omega

/-- **Read, change, write**: a write made from what was read may be asked for at any later time. -/
theorem mayPut_of_read {c : χ} {v : V} (hl : Later initial R cell cell')
    (hnext : Next c (content initial cell) v) : MayPut initial Next ⟨c, etag cell, v⟩ cell' :=
  MayPut.later ⟨Nat.le_refl _, fun _ => hnext⟩ hl

theorem Orderly.write (h : Orderly initial Next s) (p : Put χ V) :
    Orderly initial Next (s.write p) := by
  intro q hq
  have hage := (h q hq).1
  refine ⟨by rw [age_write]; omega, fun heq' => ?_⟩
  have hnew := age_write s p
  rw [← heq'] at hnew
  omega

/-- A write that takes effect carries out its change on the stored value. -/
theorem Puts.change (h : MayPut initial Next p s.cell)
    (hp : Puts s p (.ok true : Except ε Bool) s') :
    Next p.change (content initial s.cell) (content initial s'.cell) := by
  cases hp with
  | saved heq => exact h.2 heq

/-- Of a write that is asked for, either the value knows or at most the list of what is in
flight. -/
theorem Puts.moves (h : MayPut initial Next p s.cell) (hp : Puts s p x s') :
    (s'.cell = s.cell ∨ Next p.change (content initial s.cell) (content initial s'.cell))
      ∧ s'.inflight ⊆ p :: s.inflight := by
  cases hp with
  | saved heq => exact ⟨.inr (h.2 heq), fun _ hq => List.mem_cons_of_mem _ hq⟩
  | refused => exact ⟨.inl rfl, fun _ hq => List.mem_cons_of_mem _ hq⟩
  | lost e => exact ⟨.inl rfl, fun _ hq => hq⟩

/-- So does one that takes effect late. -/
theorem Lands.change (h : Orderly initial Next s) (hp : Lands s p s') :
    Next p.change (content initial s.cell) (content initial s'.cell) := by
  cases hp with
  | late hmem heq => exact (h p hmem).2 heq

/-- **Writing keeps order.** -/
theorem Puts.orderly (h : Orderly initial Next s) (hmay : MayPut initial Next p s.cell)
    (hp : Puts s p x s') : Orderly initial Next s' := by
  cases hp with
  | saved => exact h.write p
  | refused => exact h
  | lost e =>
    intro q hq
    rcases List.mem_cons.mp hq with rfl | hq
    · exact hmay
    · exact h q hq

theorem Lands.orderly (h : Orderly initial Next s) (hp : Lands s p s') :
    Orderly initial Next s' := by
  cases hp with
  | late => exact h.write p

/-- The register moves on by the changes that took effect. -/
theorem Puts.later (hR : ∀ v, R v v) (hmay : MayPut initial Next p s.cell) (hp : Puts s p x s')
    (hkeep : ∀ v, Next p.change (content initial s.cell) v → R (content initial s.cell) v) :
    Later initial R s.cell s'.cell := by
  cases hp with
  | saved heq => exact ⟨.inr (by rw [age_write]; omega), hkeep _ (hmay.2 heq)⟩
  | refused => exact .refl hR _
  | lost e => exact .refl hR _

theorem Lands.later (h : Orderly initial Next s) (hp : Lands s p s')
    (hkeep : ∀ v, Next p.change (content initial s.cell) v → R (content initial s.cell) v) :
    Later initial R s.cell s'.cell := by
  cases hp with
  | late hmem heq => exact ⟨.inr (by rw [age_write]; omega), hkeep _ ((h p hmem).2 heq)⟩

end Rules

end CasStore
