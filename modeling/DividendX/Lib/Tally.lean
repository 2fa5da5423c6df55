import Mathlib.Algebra.BigOperators.Group.Finset.Basic
import Mathlib.Algebra.BigOperators.Group.Finset.Piecewise
import Mathlib.Algebra.Order.BigOperators.Group.Finset

/-!
# Totals over unboundedly many accounts

`HasTotal f n`: all but finitely many entries of `f` are zero and the entries sum to `n`. It is
the ledger law of a token: balances over all addresses add up to the supply. The rules below
say how a total moves with one or two of its entries.
-/

variable {κ : Type}

/-- The entries of `f` add up to `n`. -/
def HasTotal (f : κ → Nat) (n : Nat) : Prop :=
  ∃ F : Finset κ, (∀ k, k ∉ F → f k = 0) ∧ ∑ k ∈ F, f k = n

namespace HasTotal

variable {f g : κ → Nat} {n : Nat}

theorem zero : HasTotal (fun _ : κ => 0) 0 := ⟨∅, fun _ _ => rfl, rfl⟩

theorem congr (h : HasTotal f n) (heq : ∀ k, g k = f k) : HasTotal g n := by
  rw [show g = f from funext heq]
  exact h

/-- An entry is at most the total. -/
theorem le (h : HasTotal f n) (k : κ) : f k ≤ n := by
  obtain ⟨F, hF, rfl⟩ := h
  by_cases hk : k ∈ F
  · exact Finset.single_le_sum (fun _ _ => Nat.zero_le _) hk
  · rw [hF k hk]
    exact Nat.zero_le _

/-- Finitely many entries together are at most the total. -/
theorem sum_le [DecidableEq κ] (h : HasTotal f n) (G : Finset κ) : ∑ k ∈ G, f k ≤ n := by
  obtain ⟨F, hF, rfl⟩ := h
  have hsum : ∑ i ∈ F ∪ G, f i = ∑ i ∈ F, f i :=
    (Finset.sum_subset Finset.subset_union_left fun i _ hi => hF i hi).symm
  rw [← hsum]
  exact Finset.sum_le_sum_of_subset Finset.subset_union_right

theorem mono [DecidableEq κ] {m : Nat} (h : HasTotal f n) (h' : HasTotal g m)
    (hle : ∀ k, f k ≤ g k) : n ≤ m := by
  obtain ⟨F, -, rfl⟩ := h
  exact (Finset.sum_le_sum fun k _ => hle k).trans (h'.sum_le F)

/-- **One entry changes**: the total changes by the same amount. -/
theorem set [DecidableEq κ] (h : HasTotal f n) (k : κ) (hother : ∀ j, j ≠ k → g j = f j) :
    HasTotal g (n - f k + g k) := by
  obtain ⟨F, hF, rfl⟩ := h
  have hf : ∑ j ∈ insert k F, f j = ∑ j ∈ F, f j := by
    refine (Finset.sum_subset (Finset.subset_insert k F) fun j _ hj => hF j hj).symm
  refine ⟨insert k F, fun j hj => ?_, ?_⟩
  · rw [Finset.mem_insert, not_or] at hj
    rw [hother j hj.1, hF j hj.2]
  · have hk := Finset.mem_insert_self k F
    have herase : ∑ j ∈ (insert k F).erase k, g j = ∑ j ∈ (insert k F).erase k, f j :=
      Finset.sum_congr rfl fun j hj => hother j (Finset.ne_of_mem_erase hj)
    have hg := Finset.sum_erase_add (insert k F) g hk
    have hf' := Finset.sum_erase_add (insert k F) f hk
    omega

theorem increase [DecidableEq κ] (h : HasTotal f n) {k : κ} {d : Nat}
    (hother : ∀ j, j ≠ k → g j = f j) (hk : g k = f k + d) : HasTotal g (n + d) := by
  have hle := h.le k
  have hg := h.set k hother
  rwa [show n - f k + g k = n + d by omega] at hg

theorem decrease [DecidableEq κ] (h : HasTotal f n) {k : κ} {d : Nat}
    (hother : ∀ j, j ≠ k → g j = f j) (hk : g k + d = f k) : HasTotal g (n - d) := by
  have hle := h.le k
  have hg := h.set k hother
  rwa [show n - f k + g k = n - d by omega] at hg

/-- One entry changes, with the difference as an integer. -/
theorem shift [DecidableEq κ] (h : HasTotal f n) {k : κ} (hother : ∀ j, j ≠ k → g j = f j) :
    ∃ m, HasTotal g m ∧ (m : Int) = n + (g k - f k) := by
  have hle := h.le k
  exact ⟨_, h.set k hother, by omega⟩

/-- **Two entries change**: the total changes by both differences. -/
theorem shift₂ [DecidableEq κ] (h : HasTotal f n) {k l : κ} (hne : k ≠ l)
    (hother : ∀ j, j ≠ k → j ≠ l → g j = f j) :
    ∃ m, HasTotal g m ∧ (m : Int) = n + (g k - f k) + (g l - f l) := by
  -- one entry at a time
  obtain ⟨m₁, h₁, hm₁⟩ := h.shift (g := Function.update f k (g k)) (k := k)
    fun j hj => Function.update_of_ne hj _ _
  obtain ⟨m₂, h₂, hm₂⟩ := h₁.shift (g := g) (k := l) fun j hj => by
    by_cases hjk : j = k
    · rw [hjk, Function.update_self]
    · rw [Function.update_of_ne hjk, hother j hjk hj]
  rw [Function.update_self] at hm₁
  rw [Function.update_of_ne (Ne.symm hne)] at hm₂
  exact ⟨m₂, h₂, by omega⟩

/-- The total of a test is the number of keys that pass it. -/
theorem exists_card {p : κ → Bool} (h : HasTotal (fun k => (p k).toNat) n) :
    ∃ F : Finset κ, (∀ k, k ∈ F ↔ p k = true) ∧ F.card = n := by
  obtain ⟨F, hF, rfl⟩ := h
  refine ⟨F.filter fun k => p k = true, fun k => ?_, ?_⟩
  · rw [Finset.mem_filter]
    refine ⟨fun hk => hk.2, fun hk => ⟨?_, hk⟩⟩
    by_contra hnot
    have hzero : (p k).toNat = 0 := hF k hnot
    rw [hk] at hzero
    cases hzero
  · rw [Finset.card_filter]
    refine Finset.sum_congr rfl fun k _ => ?_
    cases hp : p k <;> simp [hp]

end HasTotal
