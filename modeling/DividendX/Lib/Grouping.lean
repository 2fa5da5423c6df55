import DividendX.Lib.Record

/-!
# Grouping a list

A loop over a list that fills a record with one value for every key: the last one met (`ofList`),
the first one (`firsts`), or the one of greatest rank (`tops`). What is found under a key is said
without the record, so that orders of the list can be compared.
-/

namespace Record

variable {κ α β : Type} [DecidableEq κ]

/-- The values in order. -/
def values (r : Record κ α) : List α := r.entries.map Prod.snd

theorem mem_values {r : Record κ α} {a : α} : a ∈ r.values ↔ ∃ k, r.get? k = some a := by
  rw [values, List.mem_map]
  constructor
  · rintro ⟨e, he, rfl⟩
    exact ⟨e.1, get?_of_mem he⟩
  · rintro ⟨k, hk⟩
    exact ⟨(k, a), mem_of_get? hk, rfl⟩

/-- A new key goes to the end. -/
theorem entries_set_fresh {r : Record κ α} {k : κ} {v : α} (h : r.get? k = none) :
    (r.set k v).entries = r.entries ++ [(k, v)] := by
  have hlist : ∀ l : List (κ × α), find k l = none → assign k v l = l ++ [(k, v)] := by
    intro l
    induction l with
    | nil => intro _; rfl
    | cons e l ih =>
      intro hfind
      obtain ⟨k', v'⟩ := e
      simp only [find] at hfind
      split at hfind
      · cases hfind
      · rename_i hne
        rw [assign, if_neg hne, ih hfind, List.cons_append]
  exact hlist r.entries h

/-! ## All of a list -/

/-- One entry for every element, where a later element replaces an earlier one with the same key. -/
def ofList (key : α → κ) (value : α → β) (l : List α) : Record κ β :=
  l.foldl (fun r a => r.set (key a) (value a)) ∅

section OfList

variable {key : α → κ} {value : α → β}

/-- One more entry is set last. -/
theorem ofList_concat (l : List α) (a : α) :
    ofList key value (l ++ [a]) = (ofList key value l).set (key a) (value a) := by
  simp [ofList, List.foldl_append]

theorem exists_of_get?_ofList {l : List α} {k : κ} {b : β}
    (h : (ofList key value l).get? k = some b) :
    ∃ a ∈ l, key a = k ∧ value a = b := by
  induction l using List.reverseRecOn with
  | nil => cases h
  | append_singleton l a ih =>
    rw [ofList_concat, get?_set] at h
    split at h
    · rename_i hk
      cases h
      exact ⟨a, List.mem_append_right l (List.mem_singleton_self a), hk.symm, rfl⟩
    · obtain ⟨a', hmem, hfound⟩ := ih h
      exact ⟨a', List.mem_append_left [a] hmem, hfound⟩

/-- Elements with different keys are all found. -/
theorem get?_ofList {l : List α} {a : α} (hnodup : (l.map key).Nodup) (ha : a ∈ l) :
    (ofList key value l).get? (key a) = some (value a) := by
  induction l using List.reverseRecOn with
  | nil => cases ha
  | append_singleton l a' ih =>
    rw [List.map_append, List.nodup_append] at hnodup
    rw [ofList_concat, get?_set]
    rcases List.mem_append.mp ha with hmem | hlast
    · have hne : key a ≠ key a' :=
        hnodup.2.2 (key a) (List.mem_map_of_mem hmem) (key a') (List.mem_singleton_self _)
      rw [if_neg hne, ih hnodup.1 hmem]
    · rw [List.mem_singleton.mp hlast, if_pos rfl]

end OfList

/-! ## The first of every key -/

variable (key : α → κ)

/-- One turn: a value is kept if its key is new. -/
def keep (r : Record κ α) (a : α) : Record κ α :=
  match r.get? (key a) with
  | some _ => r
  | none => r.set (key a) a

/-- The first value of every key, in the order they are met. -/
def firsts (l : List α) : Record κ α := l.foldl (keep key) ∅

theorem get?_keep (r : Record κ α) (a : α) (k : κ) :
    (keep key r a).get? k = (r.get? k).or (if key a = k then some a else none) := by
  rw [keep]
  split
  · rename_i b hb
    split
    · rename_i hk
      rw [← hk, hb, Option.some_or]
    · rw [Option.or_none]
  · rename_i hnone
    rw [get?_set]
    by_cases hk : key a = k
    · rw [if_pos hk.symm, if_pos hk, ← hk, hnone, Option.none_or]
    · rw [if_neg (Ne.symm hk), if_neg hk, Option.or_none]

/-- What is there is kept, and else the first that comes. -/
theorem get?_foldl_keep (l : List α) (r : Record κ α) (k : κ) :
    (l.foldl (keep key) r).get? k = (r.get? k).or (l.find? fun a => key a = k) := by
  induction l generalizing r with
  | nil => rw [List.foldl_nil, List.find?_nil, Option.or_none]
  | cons a l ih =>
    rw [List.foldl_cons, ih, get?_keep, List.find?_cons, Option.or_assoc]
    by_cases hk : key a = k
    · simp [hk]
    · simp [hk]

/-- What is found under a key is the first value with it. -/
theorem get?_firsts (l : List α) (k : κ) : (firsts key l).get? k = l.find? fun a => key a = k := by
  rw [firsts, get?_foldl_keep, get?_empty, Option.none_or]

/-- Every value found under a key has that key. -/
theorem key_of_get?_firsts {l : List α} {k : κ} {a : α} (h : (firsts key l).get? k = some a) :
    a ∈ l ∧ key a = k := by
  rw [get?_firsts] at h
  have hfound := List.find?_some h
  exact ⟨List.mem_of_find?_eq_some h, of_decide_eq_true hfound⟩

/-- Every value of the list has a representative with its key. -/
theorem exists_get?_firsts {l : List α} {a : α} (h : a ∈ l) : ∃ b,
    (firsts key l).get? (key a) = some b := by
  rw [get?_firsts]
  apply Option.isSome_iff_exists.mp
  rw [List.find?_isSome]
  exact ⟨a, h, decide_eq_true rfl⟩

/-- A record grows by a new key only. -/
theorem length_keep (r : Record κ α) (a : α) :
    (keep key r a).entries.length = r.entries.length + if r.get? (key a) = none then 1 else 0 := by
  rw [keep]
  split
  · rename_i b hb
    rw [hb, if_neg (Option.some_ne_none b), Nat.add_zero]
  · rename_i hnone
    rw [entries_set_fresh hnone, List.length_append, hnone, if_pos rfl, List.length_singleton]

/-- So it is no longer than what came. -/
theorem length_foldl_keep_le (l : List α) (r : Record κ α) :
    (l.foldl (keep key) r).entries.length ≤ r.entries.length + l.length := by
  induction l generalizing r with
  | nil => exact Nat.le_refl _
  | cons a l ih =>
    have hstep := length_keep key r a
    have hrest := ih (keep key r a)
    rw [List.foldl_cons, List.length_cons]
    split at hstep <;> omega

/-- Nothing is dropped exactly if the keys are new and differ from each other. -/
theorem length_foldl_keep (l : List α) (r : Record κ α) :
    (l.foldl (keep key) r).entries.length = r.entries.length + l.length ↔
      (l.map key).Nodup ∧ ∀ a ∈ l, r.get? (key a) = none := by
  induction l generalizing r with
  | nil => simp
  | cons a l ih =>
    rw [List.foldl_cons, List.length_cons, List.map_cons, List.nodup_cons, List.forall_mem_cons]
    have hstep := length_keep key r a
    by_cases hnew : r.get? (key a) = none
    · rw [if_pos hnew] at hstep
      have hkeep : ∀ b, (keep key r a).get? (key b) = none ↔ r.get? (key b) = none
          ∧ key a ≠ key b := by
        intro b
        rw [get?_keep, Option.or_eq_none_iff]
        by_cases hk : key a = key b <;> simp [hk]
      rw [show r.entries.length + (l.length + 1) = (keep key r a).entries.length
        + l.length by omega, ih]
      simp only [hkeep, hnew, true_and, List.mem_map]
      constructor
      · rintro ⟨hnodup, hall⟩
        refine ⟨⟨?_, hnodup⟩, fun b hb => (hall b hb).1⟩
        rintro ⟨b, hb, hk⟩
        exact (hall b hb).2 hk.symm
      · rintro ⟨⟨hfresh, hnodup⟩, hall⟩
        exact ⟨hnodup, fun b hb => ⟨hall b hb, fun hk => hfresh ⟨b, hb, hk.symm⟩⟩⟩
    · -- a value that is dropped is never made up for
      rw [if_neg hnew] at hstep
      have hrest := length_foldl_keep_le key l (keep key r a)
      refine iff_of_false (by omega) fun h => hnew h.2.1

/-- Nothing is dropped exactly if no key comes twice. -/
theorem length_firsts (l : List α) : (firsts key l).entries.length = l.length ↔
    (l.map key).Nodup := by
  have h := length_foldl_keep key l ∅
  have hempty : (∅ : Record κ α).entries.length = 0 := rfl
  rw [hempty, Nat.zero_add] at h
  rw [firsts, h, and_iff_left]
  exact fun a _ => get?_empty _

/-! ## The greatest of every key -/

variable [LinearOrder β] (rank : α → β)

/-- One turn: a value is kept if its key is new or its rank is greater. -/
def raise (r : Record κ α) (a : α) : Record κ α :=
  match r.get? (key a) with
  | none => r.set (key a) a
  | some b => if rank b < rank a then r.set (key a) a else r

/-- A value of greatest rank for every key. -/
def tops (l : List α) : Record κ α := l.foldl (raise key rank) ∅

/-- What a record of greatest values says of a list. -/
structure Tops (l : List α) (r : Record κ α) : Prop where
  found : ∀ k a, r.get? k = some a → a ∈ l ∧ key a = k
  greatest : ∀ b ∈ l, ∃ a, r.get? (key b) = some a ∧ rank b ≤ rank a

variable {key rank}

/-- One more value is compared with the top of its key. -/
theorem Tops.snoc {l : List α} {r : Record κ α} (h : Tops key rank l r) (a : α) :
    Tops key rank (l ++ [a]) (raise key rank r a) := by
  -- Where the new value is at least the top of its key, it is set as the top.
  have hset : (∀ b, r.get? (key a) = some b → rank b ≤ rank a) →
      Tops key rank (l ++ [a]) (r.set (key a) a) := by
    intro hle
    constructor
    · intro k c hc
      rw [get?_set] at hc
      split at hc
      · rename_i hk
        cases hc
        exact ⟨List.mem_append_right l (List.mem_singleton_self a), hk.symm⟩
      · obtain ⟨hmem, hkey⟩ := h.found k c hc
        exact ⟨List.mem_append_left [a] hmem, hkey⟩
    · intro b hb
      rw [get?_set]
      by_cases hk : key b = key a
      · refine ⟨a, if_pos hk, ?_⟩
        rcases List.mem_append.mp hb with hb | hb
        · obtain ⟨c, hc, hbc⟩ := h.greatest b hb
          rw [hk] at hc
          exact le_trans hbc (hle c hc)
        · rw [List.mem_singleton.mp hb]
      · rw [if_neg hk]
        rcases List.mem_append.mp hb with hb | hb
        · exact h.greatest b hb
        · exact absurd (congrArg key (List.mem_singleton.mp hb)) hk
  rw [raise]
  split
  · rename_i hnone
    refine hset fun b hb => ?_
    cases hnone.symm.trans hb
  · rename_i b hb
    split
    · rename_i hlt
      refine hset fun c hc => ?_
      cases hb.symm.trans hc
      exact le_of_lt hlt
    · -- the value that is there stays, and is at least as great
      rename_i hnot
      constructor
      · intro k c hc
        obtain ⟨hmem, hkey⟩ := h.found k c hc
        exact ⟨List.mem_append_left [a] hmem, hkey⟩
      · intro c hc
        rcases List.mem_append.mp hc with hc | hc
        · exact h.greatest c hc
        · rw [List.mem_singleton.mp hc]
          exact ⟨b, hb, not_lt.mp hnot⟩

/-- **The tops** are the greatest of each key. -/
theorem tops_spec (key : α → κ) (rank : α → β) (l : List α) :
    Tops key rank l (tops key rank l) := by
  induction l using List.reverseRecOn with
  | nil => exact ⟨nofun, nofun⟩
  | append_singleton l a ih =>
    rw [tops, List.foldl_append]
    exact ih.snoc a

end Record
