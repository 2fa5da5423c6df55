import DividendX.Lib.Record

/-!
# JSON texts and their length

The texts `JSON.stringify` writes, as lists of characters, and the bytes they take in UTF-8. Texts
are put together from `quote`, `number` and `object`; the length lemmas take them apart again, so
that the length of a document is a sum over its parts.
-/

namespace Json

/-- A piece of JSON text. -/
abbrev Text : Type := List Char

/-- `Buffer.byteLength`: the bytes of a text in UTF-8. -/
def byteLength (t : Text) : Nat := (t.map Char.utf8Size).sum

/-- A lower-case hexadecimal digit. -/
def hexDigit (n : Nat) : Char := if n < 10 then Char.ofNat (48 + n) else Char.ofNat (87 + n)

/-- One character inside a quoted string. -/
def escape (c : Char) : Text :=
  if c = '"' then ['\\', '"']
  else if c = '\\' then ['\\', '\\']
  else if c = '\x08' then ['\\', 'b']
  else if c = '\t' then ['\\', 't']
  else if c = '\n' then ['\\', 'n']
  else if c = '\x0c' then ['\\', 'f']
  else if c = '\r' then ['\\', 'r']
  else if c.toNat < 32 then ['\\', 'u', '0', '0', hexDigit (c.toNat / 16), hexDigit (c.toNat % 16)]
  else [c]

/-- A string. -/
def quote (s : Text) : Text := '"' :: s.flatMap escape ++ ['"']

/-- A natural number. -/
def number (n : Nat) : Text := Nat.toDigits 10 n

/-- A value that may be `null`. -/
def nullable {α : Type} (text : α → Text) : Option α → Text
  | none => ['n', 'u', 'l', 'l']
  | some a => text a

/-- One member of an object. -/
def member (key value : Text) : Text := quote key ++ ':' :: value

/-- The members after the first. -/
def more : List Text → Text
  | [] => []
  | m :: ms => ',' :: m ++ more ms

/-- An object with the given members. -/
def object : List Text → Text
  | [] => ['{', '}']
  | m :: ms => '{' :: m ++ more ms ++ ['}']

/-- An object with fixed keys. -/
def struct (fields : List (String × Text)) : Text :=
  object (fields.map fun f => member f.1.toList f.2)

/-- A record used as a map, key by key. -/
def table {κ α : Type} (key : κ → Text) (value : α → Text) (r : Record κ α) : Text :=
  object (r.entries.map fun e => member (key e.1) (value e.2))

/-! ## Lengths -/

@[simp] theorem byteLength_nil : byteLength [] = 0 := rfl

@[simp] theorem byteLength_cons (c : Char) (t : Text) :
    byteLength (c :: t) = c.utf8Size + byteLength t := rfl

@[simp] theorem byteLength_append (t u : Text) :
    byteLength (t ++ u) = byteLength t + byteLength u := by
  simp [byteLength]

/-- A character that is written as itself, in one byte. -/
def Plain (c : Char) : Prop := 32 ≤ c.toNat ∧ c.toNat < 127 ∧ c ≠ '"' ∧ c ≠ '\\'

instance (c : Char) : Decidable (Plain c) := inferInstanceAs (Decidable (_ ∧ _))

theorem Plain.utf8Size {c : Char} (h : Plain c) : c.utf8Size = 1 := by
  rw [Char.utf8Size_eq_one_iff, UInt32.le_iff_toNat_le]
  exact Nat.le_of_lt h.2.1

theorem Plain.escape {c : Char} (h : Plain c) : escape c = [c] := by
  obtain ⟨hlow, -, hquote, hback⟩ := h
  have hne : ∀ d : Char, d.toNat < 32 → c ≠ d := by
    rintro d hd rfl
    omega
  rw [Json.escape]
  rw [if_neg hquote, if_neg hback, if_neg (hne _ (by decide)), if_neg (hne _ (by decide)),
    if_neg (hne _ (by decide)), if_neg (hne _ (by decide)), if_neg (hne _ (by decide)),
    if_neg (by omega)]

/-- Plain characters, by a test. -/
theorem plain_of_all {t : Text} (h : t.all (fun c => decide (Plain c)) = true) :
    ∀ c ∈ t, Plain c := by
  simpa using h

/-- A plain text has one byte for each character. -/
theorem byteLength_of_plain {t : Text} (h : ∀ c ∈ t, Plain c) : byteLength t = t.length := by
  induction t with
  | nil => rfl
  | cons c t ih =>
    have hc := (h c List.mem_cons_self).utf8Size
    have ht := ih fun d hd => h d (List.mem_cons_of_mem c hd)
    rw [byteLength_cons, hc, ht, List.length_cons]
    omega

/-- And two for the quotes. -/
theorem byteLength_quote_of_plain {t : Text} (h : ∀ c ∈ t, Plain c) :
    byteLength (quote t) = t.length + 2 := by
  have hescape : t.flatMap Json.escape = t := by
    induction t with
    | nil => rfl
    | cons c t ih =>
      have hc := (h c List.mem_cons_self).escape
      rw [List.flatMap_cons, hc, ih fun d hd => h d (List.mem_cons_of_mem c hd)]
      rfl
  have hsize : '"'.utf8Size = 1 := rfl
  rw [quote]
  rw [hescape]
  simp only [byteLength_cons, byteLength_append, byteLength_nil, byteLength_of_plain h, hsize]
  omega

theorem plain_of_isDigit {c : Char} (h : c.isDigit = true) : Plain c := by
  have hrange : 48 ≤ c.toNat ∧ c.toNat ≤ 57 := by
    simpa [Char.isDigit, UInt32.le_iff_toNat_le] using h
  refine ⟨by omega, by omega, ?_, ?_⟩
  · rintro rfl
    exact absurd hrange.1 (by decide)
  · rintro rfl
    exact absurd hrange.2 (by decide)

/-- What comes after the last separator can be told from what comes before. -/
theorem append_separator_inj {α : Type} {x : α} {s t u v : List α} (ht : x ∉ t) (hv : x ∉ v)
    (h : s ++ x :: t = u ++ x :: v) : s = u ∧ t = v := by
  -- if one of the two went on, its separator would stand in the rest of the other
  have hside : ∀ {s t u v : List α}, x ∉ t → ∀ w, u = s ++ w → x :: t = w ++ x :: v →
      s = u ∧ t = v := by
    intro s t u v ht w hu hw
    cases w with
    | nil =>
      rw [List.append_nil] at hu
      exact ⟨hu.symm, (List.cons.inj hw).2⟩
    | cons y w =>
      rw [List.cons_append] at hw
      obtain ⟨-, rfl⟩ := List.cons.inj hw
      exact absurd (List.mem_append_right w List.mem_cons_self) ht
  rcases List.append_eq_append_iff.mp h with ⟨w, hu, hw⟩ | ⟨w, hs, hw⟩
  · exact hside ht w hu hw
  · obtain ⟨h1, h2⟩ := hside hv w hs hw
    exact ⟨h1.symm, h2.symm⟩

/-- A number is written in digits. -/
theorem isDigit_of_mem_number {n : Nat} {c : Char} (h : c ∈ number n) : c.isDigit = true :=
  Nat.isDigit_of_mem_toDigits (by decide) (by decide) h

/-- Different numbers are written differently. -/
theorem number_injective {m n : Nat} (h : number m = number n) : m = n := by
  have hm := @Nat.ofDigitChars_toDigits 10 m (by decide) (by decide)
  have hn := @Nat.ofDigitChars_toDigits 10 n (by decide) (by decide)
  simp only [number] at h
  rw [← hm, ← hn, h]

theorem byteLength_number (n : Nat) : byteLength (number n) = (number n).length :=
  byteLength_of_plain fun _ hc =>
    plain_of_isDigit (Nat.isDigit_of_mem_toDigits (by omega) (by omega) hc)

/-- A number below a power of ten takes at most as many digits. -/
theorem byteLength_number_le {n k : Nat} (hk : 0 < k) (h : n < 10 ^ k) :
    byteLength (number n) ≤ k := by
  rw [byteLength_number]
  exact (Nat.length_toDigits_le_iff (by omega) hk).mpr h

/-- No number is empty. -/
theorem byteLength_number_pos (n : Nat) : 0 < byteLength (number n) := by
  rw [byteLength_number]
  exact Nat.length_toDigits_pos

/-- Key, colon and value. -/
theorem byteLength_member (key value : Text) :
    byteLength (member key value) = byteLength (quote key) + 1 + byteLength value := by
  have hsize : ':'.utf8Size = 1 := rfl
  rw [member]
  rw [byteLength_append, byteLength_cons, hsize]
  omega

/-- Every member brings a separator. -/
def membersLength (ms : List Text) : Nat := (ms.map fun m => byteLength m + 1).sum

@[simp] theorem membersLength_nil : membersLength [] = 0 := rfl

@[simp] theorem membersLength_cons (m : Text) (ms : List Text) :
    membersLength (m :: ms) = byteLength m + 1 + membersLength ms := rfl

/-- Every further member has a comma before it. -/
theorem byteLength_more (ms : List Text) : byteLength (more ms) = membersLength ms := by
  have hsize : ','.utf8Size = 1 := rfl
  induction ms with
  | nil => rfl
  | cons m ms ih =>
    rw [more, List.cons_append, byteLength_cons, byteLength_append, ih, hsize, membersLength_cons]
    omega

/-- The length of an object that is not empty. -/
theorem byteLength_object_cons (m : Text) (ms : List Text) :
    byteLength (object (m :: ms)) = 1 + membersLength (m :: ms) := by
  have hopen : '{'.utf8Size = 1 := rfl
  have hclose : '}'.utf8Size = 1 := rfl
  rw [object, List.cons_append, List.cons_append, byteLength_cons, byteLength_append,
    byteLength_append, byteLength_more, byteLength_cons, byteLength_nil, membersLength_cons, hopen,
    hclose]
  omega

/-- The braces, and the members with a comma each. -/
theorem byteLength_object_le (ms : List Text) : byteLength (object ms) ≤ 2 + membersLength ms := by
  cases ms with
  | nil => exact Nat.le_refl _
  | cons m ms =>
    rw [byteLength_object_cons]
    omega

/-- The first member has no comma. -/
theorem le_byteLength_object (ms : List Text) : 1 + membersLength ms ≤ byteLength (object ms) := by
  cases ms with
  | nil => decide
  | cons m ms => exact Nat.le_of_eq (byteLength_object_cons m ms).symm

/-! ## Objects with fixed keys -/

/-- The length of the keys, colons, separators and braces. -/
def frame (keys : List String) : Nat := 1 + (keys.map fun k => byteLength (quote k.toList) + 2).sum

/-- The length of an object with fixed keys is that of its frame and of its values. -/
theorem byteLength_struct {f : String × Text} {fs : List (String × Text)} {n : Nat}
    (h : frame ((f :: fs).map Prod.fst) = n) :
    byteLength (struct (f :: fs)) = n + ((f :: fs).map fun f => byteLength f.2).sum := by
  have hmembers : ∀ fs : List (String × Text),
      membersLength (fs.map fun f => member f.1.toList f.2) + 1
        = frame (fs.map Prod.fst) + (fs.map fun f => byteLength f.2).sum := by
    intro fs
    induction fs with
    | nil => rfl
    | cons f fs ih =>
      simp only [List.map_cons, membersLength_cons, byteLength_member, frame, List.sum_cons] at ih ⊢
      omega
  rw [← h, ← hmembers, struct, List.map_cons, byteLength_object_cons, Nat.add_comm]

/-! ## Maps -/

variable {κ α : Type}

/-- The length of one entry of a map with its separator. -/
def entryLength (key : κ → Text) (value : α → Text) (k : κ) (v : α) : Nat :=
  byteLength (quote (key k)) + 2 + byteLength (value v)

/-- The members of a table, one for each entry. -/
theorem membersLength_table (key : κ → Text) (value : α → Text) (r : Record κ α) :
    membersLength (r.entries.map fun e => member (key e.1) (value e.2))
      = r.total (entryLength key value) := by
  simp only [membersLength, Record.total, entryLength]
  rw [List.map_map]
  congr 1
  apply List.map_congr_left
  intro e _
  simp only [Function.comp, byteLength_member]
  omega

/-- A table is no longer than its entries, with a comma each. -/
theorem byteLength_table_le (key : κ → Text) (value : α → Text) (r : Record κ α) :
    byteLength (table key value r) ≤ 2 + r.total (entryLength key value) := by
  rw [← membersLength_table]
  exact byteLength_object_le _

/-- And at most one byte shorter. -/
theorem le_byteLength_table (key : κ → Text) (value : α → Text) (r : Record κ α) :
    1 + r.total (entryLength key value) ≤ byteLength (table key value r) := by
  rw [← membersLength_table]
  exact le_byteLength_object _

example : struct [("id", quote "a\"b".toList), ("at", nullable number none)]
    = "\x7b\"id\":\"a\\\"b\",\"at\":null\x7d".toList := by decide +kernel

end Json
