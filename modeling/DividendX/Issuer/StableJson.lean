import DividendX.Lib.JsonText
import DividendX.Lib.Result
import Mathlib.Data.List.Pairwise
import Mathlib.Data.List.Sort

/-!
# Canonical JSON

`stableJson` of `packages/issuer-readers/src/schema.ts`, and the two places of `qualification.ts`
that compare by it: `boundJson` and `semanticRevision`. The text of a value is unambiguous, and it
does not depend on the order of an object's members unless two of them have keys that the collation
holds equal.
-/

namespace DividendX

namespace Issuer

open JsonText

/-- A value of `JSON.parse`, over the finite numbers `ν`, zero being one of them and not two. The
members of an object are in the order in which they are enumerated. -/
inductive Value (ν : Type) where
  | null
  | bool (b : Bool)
  | number (n : ν)
  | string (s : JsonText.Text)
  | array (items : List (Value ν))
  | object (members : List (JsonText.Text × Value ν))

/-- `JSON.stringify` of a finite number: a text of the alphabet of numbers, another one for another
number. -/
structure NumberText (ν : Type) where
  text : ν → JsonText.Text
  injective : ∀ {m n : ν}, text m = text n → m = n
  nonempty : ∀ n, text n ≠ []
  plain : ∀ n, ∀ u ∈ text n, u ∈ numberUnits

variable {ν : Type}

section

variable (numbers : NumberText ν) (localeCompare : JsonText.Text → JsonText.Text → Ordering)

/-- `([a], [b]) => a.localeCompare(b)`. -/
def byKey {α : Type} (a b : JsonText.Text × α) : Bool := (localeCompare a.1 b.1).isLE

/-- The text of a member. -/
def memberText (member : JsonText.Text × JsonText.Text) : JsonText.Text :=
  stringify member.1 ++ 0x3a :: member.2

mutual

/-- `stableJson`. The members are sorted by their keys, so it is the same to sort them with the
texts of their items. -/
def stableJson : Value ν → JsonText.Text
  | .null => Utf16.ofString "null"
  | .bool true => Utf16.ofString "true"
  | .bool false => Utf16.ofString "false"
  | .number n => numbers.text n
  | .string s => stringify s
  | .array items => 0x5b :: (joined (stableItems items) ++ [0x5d])
  | .object members =>
    0x7b
      :: (joined (((stableMembers members).mergeSort (byKey localeCompare)).map memberText)
        ++ [0x7d])

/-- `value.map(stableJson)`. -/
def stableItems : List (Value ν) → List JsonText.Text
  | [] => []
  | item :: items => stableJson item :: stableItems items

/-- The members with the texts of their items. -/
def stableMembers : List (JsonText.Text × Value ν) → List (JsonText.Text × JsonText.Text)
  | [] => []
  | (key, item) :: members => (key, stableJson item) :: stableMembers members

end

def QUALIFICATION_MAX_FILE_BYTES : Nat := 8 * 1024 * 1024

/-- `boundJson`, where `parse` decodes and parses, or throws. -/
def boundJson (parse : List UInt8 → Option (Value ν)) (bytes : List UInt8) (supplied : Value ν)
    (mismatchCode : String) : Except String (Value ν) := do
  Result.require (¬ QUALIFICATION_MAX_FILE_BYTES < bytes.length) "input_file_too_large"
  let parsed ← Result.okOr (parse bytes) "malformed_json"
  Result.require
    (stableJson numbers localeCompare parsed = stableJson numbers localeCompare supplied)
      mismatchCode
  return parsed

/-- `{ sourceDigest: _digest, ...semantic }`. -/
def semantic (members : List (JsonText.Text × Value ν)) : List (JsonText.Text × Value ν) :=
  members.filter fun member => member.1 ≠ Utf16.ofString "sourceDigest"

/-- `semanticRevision` of the members of a record. -/
def semanticRevision (record : List (JsonText.Text × Value ν)) : JsonText.Text :=
  stableJson numbers localeCompare (.object (semantic record))

end

/-! ## What is compared -/

/-- Two values that are equal up to the order of members: in some arrangement of the members of
every object the keys are the same, and the items are equal so. -/
inductive Same : Value ν → Value ν → Prop
  | null : Same .null .null
  | bool (b : Bool) : Same (.bool b) (.bool b)
  | number (n : ν) : Same (.number n) (.number n)
  | string (s : JsonText.Text) : Same (.string s) (.string s)
  | array {items items' : List (Value ν)} (h : List.Forall₂ Same items items') :
    Same (.array items) (.array items')
  | object {members members' arranged arranged' : List (JsonText.Text × Value ν)}
    (hm : members.Perm arranged)
      (hm' : members'.Perm arranged') (hkeys : arranged.map Prod.fst = arranged'.map Prod.fst)
      (hitems : List.Forall₂ Same (arranged.map Prod.snd) (arranged'.map Prod.snd)) :
      Same (.object members) (.object members')

/-- A value in which no object holds two keys that the collation holds equal. -/
inductive Untied (localeCompare : JsonText.Text → JsonText.Text → Ordering) : Value ν → Prop
  | null : Untied localeCompare .null
  | bool (b : Bool) : Untied localeCompare (.bool b)
  | number (n : ν) : Untied localeCompare (.number n)
  | string (s : JsonText.Text) : Untied localeCompare (.string s)
  | array {items : List (Value ν)} (h : ∀ item ∈ items, Untied localeCompare item) :
      Untied localeCompare (.array items)
  | object {members : List (JsonText.Text × Value ν)}
      (hkeys : members.Pairwise fun m n => localeCompare m.1 n.1 ≠ .eq)
      (h : ∀ member ∈ members, Untied localeCompare member.2) :
    Untied localeCompare (.object members)

/-- Members that agree in some arrangement. -/
theorem Same.ofEntries {members members' arranged arranged' : List (JsonText.Text × Value ν)}
    (hm : arranged.Perm members)
    (hm' : arranged'.Perm members')
    (h : List.Forall₂ (fun m m' => m.1 = m'.1 ∧ Same m.2 m'.2) arranged arranged') :
    Same (.object members) (.object members') := by
  have hkeys : arranged.map Prod.fst = arranged'.map Prod.fst := by
    clear hm hm'
    induction h with
    | nil => rfl
    | cons hentry _ ih => rw [List.map_cons, List.map_cons, hentry.1, ih]
  exact .object hm.symm hm'.symm hkeys
    (List.forall₂_map_left_iff.mpr
      (List.forall₂_map_right_iff.mpr (h.imp fun _ _ hentry => hentry.2)))

/-- By the structure of a value: the items of an array and of an object first. -/
theorem Value.byItems {P : Value ν → Prop} (null : P .null) (bool : ∀ b, P (.bool b))
    (number : ∀ n, P (.number n))
    (string : ∀ s, P (.string s)) (array : ∀ items, (∀ item ∈ items, P item) → P (.array items))
    (object : ∀ members, (∀ member ∈ members, P member.2) → P (.object members)) : ∀ v, P v
  | .null => null
  | .bool b => bool b
  | .number n => number n
  | .string s => string s
  | .array items =>
    array items fun item _ => Value.byItems null bool number string array object item
  | .object members => object members fun member _ =>
    Value.byItems null bool number string array object member.2
termination_by v => sizeOf v
decreasing_by
  · rename_i hitem
    have hlt := List.sizeOf_lt_of_mem hitem
    rw [Value.array.sizeOf_spec]
    omega
  · rename_i hmember
    have hlt := List.sizeOf_lt_of_mem hmember
    have hitem : sizeOf member.2 < sizeOf member := by
      obtain ⟨key, item⟩ := member
      simp only [Prod.mk.sizeOf_spec]
      omega
    rw [Value.object.sizeOf_spec]
    omega

/-! ## The text of a value -/

section

variable (numbers : NumberText ν) (localeCompare : JsonText.Text → JsonText.Text → Ordering)

theorem stableItems_eq (items : List (Value ν)) :
    stableItems numbers localeCompare items = items.map (stableJson numbers localeCompare) := by
  induction items with
  | nil => rfl
  | cons item items ih => rw [stableItems, ih, List.map_cons]

theorem stableMembers_eq (members : List (JsonText.Text × Value ν)) :
    stableMembers numbers localeCompare members
      = members.map fun member => (member.1, stableJson numbers localeCompare member.2) := by
  induction members with
  | nil => rfl
  | cons member members ih => rw [stableMembers, ih, List.map_cons]

theorem stableJson_array (items : List (Value ν)) :
    stableJson numbers localeCompare (.array items)
      = 0x5b :: (joined (items.map (stableJson numbers localeCompare)) ++ [0x5d]) := by
  rw [stableJson, stableItems_eq]

/-- The text of a member of a value. -/
def entryText (member : JsonText.Text × Value ν) : JsonText.Text :=
  stringify member.1 ++ 0x3a :: stableJson numbers localeCompare member.2

/-- Sorted by their keys, then written. -/
theorem stableJson_object (members : List (JsonText.Text × Value ν)) :
    stableJson numbers localeCompare (.object members)
      = 0x7b
        :: (joined ((members.mergeSort (byKey localeCompare)).map (entryText numbers localeCompare))
          ++ [0x7d]) := by
  have hsort := List.map_mergeSort (r := byKey localeCompare) (s := byKey localeCompare)
    (l := members)
    (f := fun member => (member.1, stableJson numbers localeCompare member.2)) fun _ _ _ _ => rfl
  rw [stableJson, stableMembers_eq, ← hsort, List.map_map]
  rfl

/-! ## What begins a text -/

/-- The kind of a value. -/
def shape : Value ν → Nat
  | .null => 0
  | .bool _ => 1
  | .number _ => 2
  | .string _ => 3
  | .array _ => 4
  | .object _ => 5

/-- The kind of value that a code unit begins. -/
def shapeOf (u : UInt16) : Nat :=
  if u = 0x6e then 0 else if u = 0x74 ∨ u = 0x66 then 1
  else if u = 0x22 then 3 else if u = 0x5b then 4
  else if u = 0x7b then 5 else if u ∈ numberUnits then 2 else 6

theorem shapeOf_number (u : UInt16) (hu : u ∈ numberUnits) : shapeOf u = 2 := by
  have hall : numberUnits.all (fun u => shapeOf u = 2) = true := by decide
  exact of_decide_eq_true (List.all_eq_true.mp hall u hu)

theorem shapeOf_head (v : Value ν) (more : JsonText.Text) :
    ∃ u, (stableJson numbers localeCompare v ++ more).head? = some u ∧ shapeOf u = shape v := by
  cases v with
  | null => exact ⟨0x6e, rfl, rfl⟩
  | bool b =>
    cases b with
    | false => exact ⟨0x66, rfl, rfl⟩
    | true => exact ⟨0x74, rfl, rfl⟩
  | number n =>
    obtain ⟨u, text, htext⟩ := List.exists_cons_of_ne_nil (numbers.nonempty n)
    refine ⟨u, by rw [stableJson, htext]; rfl, shapeOf_number u (numbers.plain n u ?_)⟩
    rw [htext]
    exact List.mem_cons_self
  | string s => exact ⟨0x22, rfl, rfl⟩
  | array items => exact ⟨0x5b, rfl, rfl⟩
  | object members => exact ⟨0x7b, rfl, rfl⟩

/-- Values with one text are of one kind. -/
theorem shape_eq {v w : Value ν} {more more' : JsonText.Text}
    (h : stableJson numbers localeCompare v ++ more = stableJson numbers localeCompare w ++ more') :
    shape v = shape w := by
  obtain ⟨u, hu, hv⟩ := shapeOf_head numbers localeCompare v more
  obtain ⟨u', hu', hw⟩ := shapeOf_head numbers localeCompare w more'
  rw [h, hu'] at hu
  rw [← hv, ← hw, Option.some.inj hu]

/-- No value begins with a closing bracket. -/
theorem head_ne (v : Value ν) {close : UInt16} (h : shapeOf close = 6) (more : JsonText.Text) :
    (stableJson numbers localeCompare v ++ more).head? ≠ some close := by
  intro hclose
  obtain ⟨u, hu, hshape⟩ := shapeOf_head numbers localeCompare v more
  rw [hclose] at hu
  rw [← Option.some.inj hu, h] at hshape
  cases v <;> simp [shape] at hshape

/-! ## Reading a text -/

/-- A member is read as its key, a colon and its item. -/
theorem entryText_append {m m' : JsonText.Text × Value ν} {more more' : JsonText.Text}
    (hitem : ∀ {more more' : JsonText.Text}, Ends more → Ends more' →
      stableJson numbers localeCompare m.2 ++ more
        = stableJson numbers localeCompare m'.2 ++ more' → Same m.2 m'.2 ∧ more = more')
    (hmore : Ends more) (hmore' : Ends more')
    (h : entryText numbers localeCompare m ++ more = entryText numbers localeCompare m' ++ more') :
    (m.1 = m'.1 ∧ Same m.2 m'.2) ∧ more = more' := by
  simp only [entryText, List.append_assoc, List.cons_append] at h
  obtain ⟨hkey, hrest⟩ := stringify_append_injective h
  obtain ⟨hsame, hend⟩ := hitem hmore hmore' (List.cons.inj hrest).2
  exact ⟨⟨hkey, hsame⟩, hend⟩

/-- **A text is that of no two values** but for the order of members, and says where it ends. -/
theorem stableJson_append (v : Value ν) : ∀ (w : Value ν) {more more' : JsonText.Text},
  Ends more → Ends more' →
    stableJson numbers localeCompare v ++ more = stableJson numbers localeCompare w ++ more' →
      Same v w ∧ more = more' := by
  induction v using Value.byItems with
  | null =>
    intro w more more' hmore hmore' h
    have hshape := shape_eq numbers localeCompare h
    cases w with
    | null => exact ⟨.null, List.append_cancel_left h⟩
    | _ => simp [shape] at hshape
  | bool b =>
    intro w more more' hmore hmore' h
    have hshape := shape_eq numbers localeCompare h
    cases w with
    | bool b' =>
      cases b <;> cases b'
      · exact ⟨.bool _, List.append_cancel_left h⟩
      · exact absurd (List.cons.inj h).1 (by decide)
      · exact absurd (List.cons.inj h).1 (by decide)
      · exact ⟨.bool _, List.append_cancel_left h⟩
    | _ => simp [shape] at hshape
  | number n =>
    intro w more more' hmore hmore' h
    have hshape := shape_eq numbers localeCompare h
    cases w with
    | number n' =>
      rw [stableJson, stableJson] at h
      obtain ⟨htext, hrest⟩ :=
        ends_append_injective (numbers.plain n) (numbers.plain n') hmore hmore' h
      obtain rfl := numbers.injective htext
      exact ⟨.number n, hrest⟩
    | _ => simp [shape] at hshape
  | string s =>
    intro w more more' hmore hmore' h
    have hshape := shape_eq numbers localeCompare h
    cases w with
    | string s' =>
      obtain ⟨rfl, hrest⟩ := stringify_append_injective h
      exact ⟨.string s, hrest⟩
    | _ => simp [shape] at hshape
  | array items ih =>
    intro w more more' hmore hmore' h
    have hshape := shape_eq numbers localeCompare h
    cases w with
    | array items' =>
      simp only [stableJson_array, List.cons_append, List.append_assoc,
        List.cons.injEq, true_and] at h
      obtain ⟨hitems, hrest⟩ := joined_append_injective (by decide) (by decide)
        (fun item hitem item' _ more more' => ih item hitem item')
        (fun item _ => head_ne numbers localeCompare item (by decide))
        (fun item _ => head_ne numbers localeCompare item (by decide)) h
      exact ⟨.array hitems, hrest⟩
    | _ => simp [shape] at hshape
  | object members ih =>
    intro w more more' hmore hmore' h
    have hshape := shape_eq numbers localeCompare h
    cases w with
    | object members' =>
      simp only [stableJson_object, List.cons_append, List.append_assoc,
        List.cons.injEq, true_and] at h
      -- The members are written sorted, which loses none of them.
      have hmember {member : JsonText.Text × Value ν} {members : List (JsonText.Text × Value ν)}
          (h : member ∈ members.mergeSort (byKey localeCompare)) : member ∈ members :=
        (List.mergeSort_perm _ _).mem_iff.mp h
      obtain ⟨hentries, hrest⟩ := joined_append_injective
        (R := fun m m' : JsonText.Text × Value ν => m.1 = m'.1 ∧ Same m.2 m'.2)
          (by decide) (by decide)
        (fun m hm m' _ more more' hmore hmore' => entryText_append numbers localeCompare
          (ih m (hmember hm) m'.2) hmore hmore')
        (fun m _ more => by simp [entryText, stringify])
        (fun m _ more => by simp [entryText, stringify]) h
      exact ⟨.ofEntries (List.mergeSort_perm members (byKey localeCompare))
        (List.mergeSort_perm members' (byKey localeCompare)) hentries, hrest⟩
    | _ => simp [shape] at hshape

/-! ## One text for all orders -/

/-- Members whose keys are untied are sorted in one way. -/
theorem mergeSort_eq_of_perm {α : Type} [Std.TransCmp localeCompare]
    {members members' : List (JsonText.Text × α)}
    (hkeys : members.Pairwise fun m n => localeCompare m.1 n.1 ≠ .eq) (h : members.Perm members') :
    members.mergeSort (byKey localeCompare) = members'.mergeSort (byKey localeCompare) := by
  have htrans (a b c : JsonText.Text × α) (hab : byKey localeCompare a b = true)
      (hbc : byKey localeCompare b c = true) :
      byKey localeCompare a c = true := Std.TransCmp.isLE_trans hab hbc
  have htotal (a b : JsonText.Text × α) :
      (byKey localeCompare a b || byKey localeCompare b a) = true := by
    have hswap : localeCompare b.1 a.1 = (localeCompare a.1 b.1).swap := Std.OrientedCmp.eq_swap
    rw [byKey, byKey, hswap]
    cases localeCompare a.1 b.1 <;> rfl
  have : Std.Symm fun m n : JsonText.Text × α => localeCompare m.1 n.1 ≠ .eq :=
    ⟨fun m n hne heq => hne (Std.OrientedCmp.eq_symm heq)⟩
  refine List.Perm.eq_of_pairwise ?_
    (List.pairwise_mergeSort htrans htotal _) (List.pairwise_mergeSort htrans htotal _)
    ((List.mergeSort_perm _ _).trans (h.trans (List.mergeSort_perm _ _).symm))
  intro a b ha hb hab hba
  by_contra hne
  -- both are members of the one object, and their keys are held equal
  refine hkeys.forall (List.mem_mergeSort.mp ha) (h.mem_iff.mpr (List.mem_mergeSort.mp hb)) hne ?_
  exact Std.OrientedCmp.isLE_antisymm hab hba

/-- Lists related item by item have one image where related items have. -/
theorem map_eq_of_forall₂ {α β : Type} {R : α → α → Prop} {f : α → β}
    {xs ys : List α} (h : List.Forall₂ R xs ys)
    (heq : ∀ x ∈ xs, ∀ y ∈ ys, R x y → f x = f y) : xs.map f = ys.map f := by
  induction h with
  | nil => rfl
  | cons hxy _ ih =>
    rw [List.map_cons, List.map_cons, heq _ List.mem_cons_self _ List.mem_cons_self hxy,
      ih fun x hx y hy => heq x (List.mem_cons_of_mem _ hx) y (List.mem_cons_of_mem _ hy)]

/-- **Equal but for the order of members, equal in text.** -/
theorem stableJson_eq_of_same [Std.TransCmp localeCompare] (v : Value ν) : ∀ w,
  Untied localeCompare v →
    Untied localeCompare w → Same v w → stableJson numbers localeCompare v
      = stableJson numbers localeCompare w := by
  induction v using Value.byItems with
  | null | bool b | number n | string s =>
    rintro _ - - ⟨⟩
    rfl
  | array items ih =>
    rintro _ (_ | _ | _ | _ | hv) hw (_ | _ | _ | _ | hitems)
    obtain _ | _ | _ | _ | hw := hw
    have htexts := map_eq_of_forall₂ hitems fun item hitem item' hitem' =>
      ih item hitem item' (hv item hitem) (hw item' hitem')
    rw [stableJson_array, stableJson_array, htexts]
  | object members ih =>
    rintro _ (_ | _ | _ | _ | _ | ⟨huntied, hv⟩) hw (_ | _ | _ | _ | _ | ⟨hm, hm', hkeys, hitems⟩)
    obtain _ | _ | _ | _ | _ | ⟨-, hw⟩ := hw
    rename_i members' arranged arranged'
    have htexts := map_eq_of_forall₂ hitems (f := stableJson numbers localeCompare) (by
      intro item hitem item' hitem' hsame
      obtain ⟨m, hmember, rfl⟩ := List.mem_map.mp hitem
      obtain ⟨m', hmember', rfl⟩ := List.mem_map.mp hitem'
      have hin := hm.mem_iff.mpr hmember
      exact ih m hin m'.2 (hv m hin) (hw m' (hm'.mem_iff.mpr hmember')) hsame)
    have hpairs : arranged.map (fun m => (m.1, stableJson numbers localeCompare m.2))
        = arranged'.map fun m => (m.1, stableJson numbers localeCompare m.2) := by
      rw [List.map_map, List.map_map] at htexts
      rw [← List.zip_map', ← List.zip_map']
      exact congrArg₂ List.zip hkeys htexts
    -- Same members in another order are a permutation, and sorting without ties undoes it.
    have hperm : (members.map fun m => (m.1, stableJson numbers localeCompare m.2)).Perm
        (members'.map fun m => (m.1, stableJson numbers localeCompare m.2)) :=
      (hm.map _).trans ((List.Perm.of_eq hpairs).trans (hm'.map _).symm)
    have hkeysUntied : (members.map fun m => (m.1, stableJson numbers localeCompare m.2)).Pairwise
        fun m n => localeCompare m.1 n.1 ≠ .eq := List.pairwise_map.mpr huntied
    rw [stableJson, stableJson, stableMembers_eq, stableMembers_eq,
      mergeSort_eq_of_perm localeCompare hkeysUntied hperm]

/-- The texts of two values are equal exactly when the values are, but for the order of members. -/
theorem stableJson_eq_iff [Std.TransCmp localeCompare] {v w : Value ν} (hv : Untied localeCompare v)
    (hw : Untied localeCompare w) :
    stableJson numbers localeCompare v = stableJson numbers localeCompare w ↔ Same v w := by
  constructor
  · intro h
    exact (stableJson_append numbers localeCompare v w ends_nil ends_nil (congrArg (· ++ []) h)).1
  · exact stableJson_eq_of_same numbers localeCompare v w hv hw

/-- **`stableJson` is a canonical form**, so `boundJson` accepts exactly the content of its bytes,
and the comparison of revisions ignores the order of members alone. -/
theorem stableJson_canonical [Std.TransCmp localeCompare] :
    (∀ v w : Value ν, Untied localeCompare v → Untied localeCompare w →
        (stableJson numbers localeCompare v = stableJson numbers localeCompare w ↔ Same v w))
      ∧ (∀ (parse : List UInt8 → Option (Value ν)) (bytes : List UInt8) (supplied :
        Value ν) (mismatchCode : String),
        (∀ content, parse bytes = some content → Untied localeCompare content) →
          Untied localeCompare supplied →
          ∀ result, boundJson numbers localeCompare parse bytes supplied mismatchCode = .ok result
            ↔ bytes.length ≤ QUALIFICATION_MAX_FILE_BYTES ∧ parse bytes = some result
              ∧ Same result supplied)
      ∧ ∀ record record' : List (JsonText.Text × Value ν),
        Untied localeCompare (.object (semantic record)) →
        Untied localeCompare (.object (semantic record')) →
          (semanticRevision numbers localeCompare record
            = semanticRevision numbers localeCompare record'
            ↔ Same (.object (semantic record)) (.object (semantic record'))) := by
  refine ⟨fun v w => stableJson_eq_iff numbers localeCompare, ?_, fun record record' => ?_⟩
  · intro parse bytes supplied mismatchCode hcontent hsupplied result
    simp only [boundJson, Result.bind_eq_ok, Result.exists_unit, Result.require_eq_ok,
      Result.okOr_eq_ok, Result.pure_eq_ok, not_lt]
    constructor
    · rintro ⟨hsize, content, hparse, htexts, rfl⟩
      exact ⟨hsize, hparse,
        (stableJson_eq_iff numbers localeCompare (hcontent _ hparse) hsupplied).mp htexts⟩
    · rintro ⟨hsize, hparse, hsame⟩
      exact ⟨hsize, result, hparse,
        (stableJson_eq_iff numbers localeCompare (hcontent _ hparse) hsupplied).mpr hsame, rfl⟩
  · exact stableJson_eq_iff numbers localeCompare

end

/-- Whole numbers are written in digits. -/
def wholeNumbers : NumberText Nat where
  text n := Utf16.ofChars (Nat.toDigits 10 n)
  injective h := by
    have hvalues := congrArg (Nat.ofDigitChars 10 · 0) (Utf16.ofChars_injective h)
    rwa [Nat.ofDigitChars_ten_toDigits, Nat.ofDigitChars_ten_toDigits] at hvalues
  nonempty n h := by
    have hchars : Nat.toDigits 10 n = [] := Utf16.ofChars_injective (h.trans rfl)
    exact Nat.toDigits_ne_nil hchars
  plain n u hu := by
    have hunits : ∀ k < 10, (Utf16.ofChar (Char.ofNat (48 + k))).all (· ∈ numberUnits) = true := by
      decide
    obtain ⟨c, hc, hmem⟩ := List.mem_flatMap.mp hu
    have hdigit := Nat.isDigit_of_mem_toDigits (by decide) (by decide) hc
    simp only [Char.isDigit, Bool.and_eq_true, decide_eq_true_eq] at hdigit
    have hlow : 48 ≤ c.toNat := hdigit.1
    have hhigh : c.toNat ≤ 57 := hdigit.2
    have hnat : 48 + (c.toNat - 48) = c.toNat := by omega
    refine of_decide_eq_true (List.all_eq_true.mp (hunits (c.toNat - 48) (by omega)) u ?_)
    rwa [hnat, Char.ofNat_toNat]

theorem stableJson_canonical_sample :
    stableJson wholeNumbers (fun a b => compare a b)
      (.object [([0x61], .null), ([0x62], .number 1)])
      = stableJson wholeNumbers (fun a b => compare a b)
        (.object [([0x62], .number 1), ([0x61], .null)]) := by
  refine ((stableJson_canonical wholeNumbers fun a b => compare a b).1 _ _ ?_ ?_).mpr ?_
  · refine .object (by decide)
      (List.forall_mem_cons.mpr ⟨.null, List.forall_mem_cons.mpr ⟨.number 1, ?_⟩⟩)
    exact List.forall_mem_nil _
  · refine .object (by decide)
      (List.forall_mem_cons.mpr ⟨.number 1, List.forall_mem_cons.mpr ⟨.null, ?_⟩⟩)
    exact List.forall_mem_nil _
  · exact .object (.swap _ _ _) (.refl _) rfl (.cons (.number 1) (.cons .null .nil))

end Issuer

end DividendX
