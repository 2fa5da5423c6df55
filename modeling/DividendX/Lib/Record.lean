import Mathlib.Data.List.Nodup
import Mathlib.Algebra.BigOperators.Group.List.Basic
import Mathlib.Algebra.Order.BigOperators.Group.List
import Mathlib.Algebra.Order.Group.Nat
import Mathlib.Data.Finset.Card
import Mathlib.Tactic.Abel

/-!
# Records

The object literals of a dynamic language, used as maps: entries in the order of insertion, no
key twice. Assignment replaces the value of a key in place or appends a new entry. `total f` sums
a weight over all entries; the two `total` lemmas say how a sum moves with one assignment, which
is all that counting arguments over a record need.
-/

/-- A record with keys `κ` and values `α`. -/
structure Record (κ α : Type) where
  entries : List (κ × α)
  nodup : (entries.map Prod.fst).Nodup
deriving DecidableEq, Repr

namespace Record

/-- Keys under which an object literal has an inherited value. -/
def inheritedKeys : List String :=
  ["constructor", "__defineGetter__", "__defineSetter__", "hasOwnProperty", "__lookupGetter__",
    "__lookupSetter__", "isPrototypeOf", "propertyIsEnumerable", "toString", "valueOf", "__proto__",
    "toLocaleString"]

variable {κ α : Type}

/-- No entries. -/
def empty : Record κ α := ⟨[], List.nodup_nil⟩

instance : EmptyCollection (Record κ α) := ⟨empty⟩

/-- The sum of a weight over all entries. -/
def total (f : κ → α → Nat) (r : Record κ α) : Nat := (r.entries.map fun e => f e.1 e.2).sum

/-- The same for weights of any kind. -/
def sum {M : Type} [AddCommMonoid M] (f : κ → α → M) (r : Record κ α) : M :=
  (r.entries.map fun e => f e.1 e.2).sum

/-- The number of values that pass a test. -/
def count (p : α → Bool) (r : Record κ α) : Nat := r.total fun _ v => (p v).toNat

theorem count_eq_length (p : α → Bool) (r : Record κ α) :
    r.count p = (r.entries.filter fun e => p e.2).length := by
  unfold count total
  induction r.entries with
  | nil => rfl
  | cons e l ih =>
    rw [List.map_cons, List.sum_cons, ih, List.filter_cons]
    cases hp : p e.2 with
    | true => simp [hp, Nat.add_comm]
    | false => simp [hp]

variable [DecidableEq κ]

/-! ## Entry lists -/

/-- Look a key up. -/
def find (k : κ) : List (κ × α) → Option α
  | [] => none
  | (k', v) :: l => if k' = k then some v else find k l

/-- Replace the value of a key, or append it. -/
def assign (k : κ) (v : α) : List (κ × α) → List (κ × α)
  | [] => [(k, v)]
  | (k', v') :: l => if k' = k then (k, v) :: l else (k', v') :: assign k v l

theorem find_eq_none {k : κ} {l : List (κ × α)} : find k l = none ↔ k ∉ l.map Prod.fst := by
  induction l with
  | nil => simp [find]
  | cons e l ih =>
    obtain ⟨k', v⟩ := e
    by_cases hk : k' = k
    · simp [find, hk]
    · simp [find, hk, ih, Ne.symm hk]

/-- Assigning changes the value of one key. -/
theorem find_assign (k j : κ) (v : α) (l : List (κ × α)) :
    find j (assign k v l) = if j = k then some v else find j l := by
  induction l with
  | nil => simp [assign, find, eq_comm]
  | cons e l ih =>
    obtain ⟨k', v'⟩ := e
    by_cases hk : k' = k
    · subst hk
      by_cases hj : j = k'
      · simp [assign, find, hj]
      · simp [assign, find, hj, Ne.symm hj]
    · by_cases hj : k' = j
      · subst hj
        simp [assign, find, hk]
      · simp [assign, find, hk, hj, ih]

/-- Assignment keeps the keys of a record, or appends a new one. -/
theorem keys_assign (k : κ) (v : α) (l : List (κ × α)) :
    (assign k v l).map Prod.fst =
      if k ∈ l.map Prod.fst then l.map Prod.fst else l.map Prod.fst ++ [k] := by
  induction l with
  | nil => simp [assign]
  | cons e l ih =>
    obtain ⟨k', v'⟩ := e
    by_cases hk : k' = k
    · simp [assign, hk]
    · by_cases hmem : k ∈ l.map Prod.fst
      · simp only [assign, hk, if_false, List.map_cons, ih, hmem, if_true,
          List.mem_cons, or_true]
      · simp only [assign, hk, if_false, List.map_cons, ih, hmem,
          List.mem_cons, Ne.symm hk, or_false, List.cons_append]

/-- The keys stay distinct. -/
theorem nodup_assign {k : κ} {v : α} {l : List (κ × α)} (h : (l.map Prod.fst).Nodup) :
    ((assign k v l).map Prod.fst).Nodup := by
  rw [keys_assign]
  split
  · exact h
  · rename_i hk
    rw [List.nodup_append]
    refine ⟨h, List.nodup_singleton k, fun a ha b hb => ?_⟩
    rw [List.mem_singleton.mp hb]
    exact fun heq => hk (heq ▸ ha)

/-! ## Reading and writing -/

/-- The value of a key. -/
def get? (r : Record κ α) (k : κ) : Option α := find k r.entries

/-- The record after an assignment. -/
def set (r : Record κ α) (k : κ) (v : α) : Record κ α :=
  ⟨assign k v r.entries, nodup_assign r.nodup⟩

variable {r : Record κ α} {k : κ} {v : α}

@[simp] theorem get?_empty (k : κ) : (∅ : Record κ α).get? k = none := rfl

@[simp] theorem get?_set (r : Record κ α) (k j : κ) (v : α) :
    (r.set k v).get? j = if j = k then some v else r.get? j :=
  find_assign k j v r.entries

/-- The last assignment to a key counts. -/
theorem set_set (r : Record κ α) (k : κ) (v w : α) : (r.set k v).set k w = r.set k w := by
  have hlist : ∀ l : List (κ × α), assign k w (assign k v l) = assign k w l := by
    intro l
    induction l with
    | nil => simp [assign]
    | cons e l ih =>
      obtain ⟨k', v'⟩ := e
      by_cases hk : k' = k
      · simp [assign, hk]
      · simp [assign, hk, ih]
  simp only [set, hlist]

/-- An entry is found by its key. -/
theorem get?_of_mem {r : Record κ α} {e : κ × α} (h : e ∈ r.entries) : r.get? e.1 = some e.2 := by
  have hlist : ∀ l : List (κ × α), (l.map Prod.fst).Nodup → e ∈ l → find e.1 l = some e.2 := by
    intro l
    induction l with
    | nil => simp
    | cons e' l ih =>
      intro hnodup hmem
      rw [List.map_cons, List.nodup_cons] at hnodup
      rcases List.mem_cons.mp hmem with rfl | hmem
      · simp [find]
      · have hne : e'.1 ≠ e.1 := fun heq => hnodup.1 (heq ▸ List.mem_map_of_mem hmem)
        simp [find, hne, ih hnodup.2 hmem]
  exact hlist r.entries r.nodup h

/-- What is found is an entry. -/
theorem mem_of_get? {r : Record κ α} (h : r.get? k = some v) : (k, v) ∈ r.entries := by
  have hlist : ∀ l : List (κ × α), find k l = some v → (k, v) ∈ l := by
    intro l
    induction l with
    | nil => simp [find]
    | cons e l ih =>
      obtain ⟨k', v'⟩ := e
      intro hfind
      by_cases hk : k' = k
      · rw [find, if_pos hk] at hfind
        cases hfind
        rw [hk]
        exact List.mem_cons_self
      · rw [find, if_neg hk] at hfind
        exact List.mem_cons_of_mem _ (ih hfind)
  exact hlist r.entries h

/-! ## Deleting and changing entries -/

/-- The entries that pass a test; the others are deleted. -/
def filter (p : κ → α → Bool) (r : Record κ α) : Record κ α :=
  ⟨r.entries.filter fun e => p e.1 e.2, r.nodup.sublist (List.filter_sublist.map Prod.fst)⟩

/-- Every value changed in place. -/
def map (f : κ → α → α) (r : Record κ α) : Record κ α :=
  ⟨r.entries.map fun e => (e.1, f e.1 e.2), by rw [List.map_map]; exact r.nodup⟩

@[simp] theorem get?_map (f : κ → α → α) (r : Record κ α) (k : κ) :
    (r.map f).get? k = (r.get? k).map (f k) := by
  have hlist : ∀ l : List (κ × α),
      find k (l.map fun e => (e.1, f e.1 e.2)) = (find k l).map (f k) := by
    intro l
    induction l with
    | nil => rfl
    | cons e l ih =>
      obtain ⟨k', v⟩ := e
      by_cases hk : k' = k
      · simp [find, hk]
      · simp [find, hk, ih]
  exact hlist r.entries

@[simp] theorem get?_filter (p : κ → α → Bool) (r : Record κ α) (k : κ) :
    (r.filter p).get? k = (r.get? k).filter (p k) := by
  have hlist : ∀ l : List (κ × α), (l.map Prod.fst).Nodup →
      find k (l.filter fun e => p e.1 e.2) = (find k l).filter (p k) := by
    intro l
    induction l with
    | nil => simp [find]
    | cons e l ih =>
      obtain ⟨k', v⟩ := e
      intro hnodup
      rw [List.map_cons, List.nodup_cons] at hnodup
      have hrest := ih hnodup.2
      by_cases hk : k' = k
      · subst hk
        have hnone : find k' l = none := find_eq_none.mpr hnodup.1
        by_cases hp : p k' v = true
        · simp [find, hp, Option.filter]
        · simp [find, hp, hrest, hnone, Option.filter]
      · by_cases hp : p k' v = true
        · simp [find, hp, hk, hrest]
        · simp [find, hp, hk, hrest]
  exact hlist r.entries r.nodup

/-! ## Sums over a record -/

/-- A sum grows with its weights. -/
theorem total_le_total {f g : κ → α → Nat} (h : ∀ k v, r.get? k = some v → f k v ≤ g k v) :
    r.total f ≤ r.total g := by
  apply List.sum_le_sum
  intro e he
  exact h e.1 e.2 (get?_of_mem he)

/-- A new key adds its weight. -/
theorem sum_set_fresh {M : Type} [AddCommMonoid M] {f : κ → α → M} (h : r.get? k = none) :
    (r.set k v).sum f = r.sum f + f k v := by
  have hlist : ∀ l : List (κ × α), find k l = none →
      ((assign k v l).map fun e => f e.1 e.2).sum = (l.map fun e => f e.1 e.2).sum + f k v := by
    intro l
    induction l with
    | nil => simp [assign]
    | cons e l ih =>
      obtain ⟨k', v'⟩ := e
      intro hfind
      by_cases hk : k' = k
      · simp [find, hk] at hfind
      · rw [find, if_neg hk] at hfind
        simp only [assign, hk, if_false, List.map_cons, List.sum_cons, ih hfind, add_assoc]
  exact hlist r.entries h

/-- A replaced value trades its weight. -/
theorem sum_set {M : Type} [AddCommMonoid M] {f : κ → α → M} {old : α} (h : r.get? k = some old) :
    (r.set k v).sum f + f k old = r.sum f + f k v := by
  have hlist : ∀ l : List (κ × α), find k l = some old →
      ((assign k v l).map fun e => f e.1 e.2).sum + f k old =
        (l.map fun e => f e.1 e.2).sum + f k v := by
    intro l
    induction l with
    | nil => simp [find]
    | cons e l ih =>
      obtain ⟨k', v'⟩ := e
      intro hfind
      by_cases hk : k' = k
      · subst hk
        rw [find, if_pos rfl] at hfind
        cases hfind
        simp only [assign, if_true, List.map_cons, List.sum_cons]
        abel
      · rw [find, if_neg hk] at hfind
        simp only [assign, hk, if_false, List.map_cons, List.sum_cons, add_assoc, ih hfind]
  exact hlist r.entries h

/-- A new key adds to the total. -/
theorem total_set_fresh {f : κ → α → Nat} (h : r.get? k = none) :
    (r.set k v).total f = r.total f + f k v :=
  sum_set_fresh h

/-- An old one changes its share. -/
theorem total_set {f : κ → α → Nat} {old : α} (h : r.get? k = some old) :
    (r.set k v).total f + f k old = r.total f + f k v :=
  sum_set h

/-- An assignment adds at most the weight of what it assigns. -/
theorem total_set_le (f : κ → α → Nat) (r : Record κ α) (k : κ) (v : α) :
    (r.set k v).total f ≤ r.total f + f k v := by
  cases h : r.get? k with
  | none => exact Nat.le_of_eq (total_set_fresh h)
  | some old =>
    have hset : (r.set k v).total f + f k old = r.total f + f k v := total_set h
    omega

/-- A value weighs at most the sum, when no weight is negative. -/
theorem le_sum {M : Type} [AddCommMonoid M] [PartialOrder M] [IsOrderedAddMonoid M] {f : κ → α → M}
    (hf : ∀ k v, r.get? k = some v → 0 ≤ f k v) (h : r.get? k = some v) : f k v ≤ r.sum f := by
  apply List.single_le_sum
  · intro x hx
    obtain ⟨e, he, rfl⟩ := List.mem_map.mp hx
    exact hf e.1 e.2 (get?_of_mem he)
  · exact List.mem_map.mpr ⟨(k, v), mem_of_get? h, rfl⟩

/-- A new key adds to the count. -/
theorem count_set_fresh {p : α → Bool} (h : r.get? k = none) :
    (r.set k v).count p = r.count p + (p v).toNat :=
  total_set_fresh h

/-- Keys whose values pass a test are among those that are counted. -/
theorem card_le_count {p : α → Bool} {S : Finset κ}
    (h : ∀ k ∈ S, ∃ v, r.get? k = some v ∧ p v = true) :
    S.card ≤ r.count p := by
  have hsub : S ⊆ ((r.entries.filter fun e => p e.2).map Prod.fst).toFinset := by
    intro k hk
    obtain ⟨v, hv, hp⟩ := h k hk
    exact List.mem_toFinset.mpr
      (List.mem_map.mpr ⟨(k, v), List.mem_filter.mpr ⟨mem_of_get? hv, hp⟩, rfl⟩)
  calc S.card ≤ _ := Finset.card_le_card hsub
    _ ≤ _ := List.toFinset_card_le _
    _ = r.count p := by rw [List.length_map, count_eq_length]

/-- An old one with the same answer does not change it. -/
theorem count_set {p : α → Bool} {old : α} (h : r.get? k = some old) (hp : p v = p old) :
    (r.set k v).count p = r.count p := by
  have hset : (r.set k v).count p + (p old).toNat = r.count p + (p v).toNat := total_set h
  rw [hp] at hset
  exact Nat.add_right_cancel hset

/-! ## Two records -/

section Related

variable {β : Type} {R : α → β → Prop} {r : Record κ α} {r' : Record κ β} {w : β}

/-- The same keys in the same order, with related values. -/
def Related (R : α → β → Prop) (r : Record κ α) (r' : Record κ β) : Prop :=
  List.Forall₂ (fun e e' => e.1 = e'.1 ∧ R e.2 e'.2) r.entries r'.entries

omit [DecidableEq κ] in
theorem Related.length (h : Related R r r') : r.entries.length = r'.entries.length :=
  List.Forall₂.length_eq h

/-- A key is in both or in neither. -/
theorem Related.get? (h : Related R r r') (k : κ) : Option.Rel R (r.get? k) (r'.get? k) := by
  rw [Related] at h
  simp only [Record.get?]
  generalize r.entries = l at h
  generalize r'.entries = l' at h
  induction h with
  | nil => exact .none
  | @cons e e' l l' he _ ih =>
    obtain ⟨hkey, hvalue⟩ := he
    rw [find, find, hkey]
    split
    · exact .some hvalue
    · exact ih

/-- Related values, set at one key. -/
theorem Related.set (h : Related R r r') (k : κ) (hR : R v w) :
    Related R (r.set k v) (r'.set k w) := by
  rw [Related] at h ⊢
  change List.Forall₂ _ (assign k v r.entries) (assign k w r'.entries)
  generalize r.entries = l at h
  generalize r'.entries = l' at h
  induction h with
  | nil => exact .cons ⟨rfl, hR⟩ .nil
  | @cons e e' l l' he hrest ih =>
    obtain ⟨hkey, hvalue⟩ := he
    rw [assign, assign, hkey]
    split
    · exact .cons ⟨rfl, hR⟩ hrest
    · exact .cons ⟨rfl, hvalue⟩ ih

end Related

end Record
