import DividendX.Lib.Utf16
import Mathlib.Data.List.Forall2

/-!
# JSON texts

Texts of code units that say where they end. A quoted string is one of them
(`stringify_append_injective`), whatever surrogates it holds; a number ends where its alphabet does
(`ends_append_injective`); and a bracketed list of parts is read part by part when each part is
(`joined_append_injective`).
-/

namespace JsonText

open Utf16 (isHigh isLow)

/-- A text. -/
abbrev Text : Type := List UInt16

/-! ## Strings -/

/-- A hexadecimal digit. -/
def hexUnit (n : Nat) : UInt16 := .ofNat (if n < 10 then 48 + n else 87 + n)

/-- The escape of a code unit by its number. -/
def unicodeEscape (u : UInt16) : Text :=
  [0x5c, 0x75, hexUnit (u.toNat / 4096), hexUnit (u.toNat / 256 % 16), hexUnit (u.toNat / 16 % 16),
    hexUnit (u.toNat % 16)]

/-- A code unit on its own between quotes. -/
def escape (u : UInt16) : Text :=
  if u = 0x22 then [0x5c, 0x22]
  else if u = 0x5c then [0x5c, 0x5c]
  else if u = 8 then [0x5c, 0x62]
  else if u = 12 then [0x5c, 0x66]
  else if u = 10 then [0x5c, 0x6e]
  else if u = 13 then [0x5c, 0x72]
  else if u = 9 then [0x5c, 0x74]
  else if u.toNat < 32 ∨ isHigh u ∨ isLow u then unicodeEscape u
  else [u]

/-- A text between quotes: a pair of surrogates stands for itself. -/
def escaped : Text → Text
  | [] => []
  | [u] => escape u
  | u :: v :: rest =>
    if isHigh u ∧ isLow v then u :: v :: escaped rest else escape u ++ escaped (v :: rest)

/-- `JSON.stringify` of a string. -/
def stringify (s : Text) : Text := 0x22 :: (escaped s ++ [0x22])

/-! ## Reading strings -/

/-- The first character of a text, and the rest. -/
def next : Text → Option (Text × Text)
  | [] => none
  | [u] => some ([u], [])
  | u :: v :: rest => if isHigh u ∧ isLow v then some ([u, v], rest) else some ([u], v :: rest)

/-- How a character is written. -/
def token : Text → Text
  | [u] => escape u
  | piece => piece

/-- A text is escaped piece by piece. -/
theorem escaped_of_next {s piece rest : Text} (h : next s = some (piece, rest)) :
    escaped s = token piece ++ escaped rest ∧ s = piece ++ rest := by
  match s with
  | [u] =>
    obtain ⟨rfl, rfl⟩ := Prod.mk.inj (Option.some.inj h)
    exact ⟨(List.append_nil _).symm, rfl⟩
  | u :: v :: tail =>
    rw [next] at h
    rw [escaped]
    split at h
    · rename_i hpair
      obtain ⟨rfl, rfl⟩ := Prod.mk.inj (Option.some.inj h)
      exact ⟨if_pos hpair, rfl⟩
    · rename_i hpair
      obtain ⟨rfl, rfl⟩ := Prod.mk.inj (Option.some.inj h)
      exact ⟨if_neg hpair, rfl⟩

/-- The number of a hexadecimal digit. -/
def unhexUnit (u : UInt16) : Nat := if u.toNat < 58 then u.toNat - 48 else u.toNat - 87

/-- The code unit of a short escape. -/
def unescape (c : UInt16) : UInt16 :=
  if c = 0x62 then 8 else if c = 0x66 then 12 else if c = 0x6e then 10 else if c = 0x72 then 13
  else if c = 0x74 then 9 else c

/-- What stands behind a backslash. -/
def readEscape : Text → Option (Text × Text)
  | [] => none
  | c :: rest =>
    if c = 0x75 then
      match rest with
      | a :: b :: c :: d :: rest =>
        some
          ([.ofNat (unhexUnit a * 4096 + unhexUnit b * 256 + unhexUnit c * 16 + unhexUnit d)], rest)
      | _ => none
    else some ([unescape c], rest)

/-- The first character between quotes, and the rest. -/
def read : Text → Option (Text × Text)
  | [] => none
  | u :: rest =>
    if u = 0x22 then none
    else if u = 0x5c then readEscape rest
    else if isHigh u then
      match rest with
      | [] => none
      | v :: rest => some ([u, v], rest)
    else some ([u], rest)

/-- A hexadecimal digit is read back. -/
theorem unhexUnit_hexUnit : ∀ n < 16, unhexUnit (hexUnit n) = n := by decide

/-- An escape of four digits is read back. -/
theorem read_unicodeEscape (u : UInt16) (rest : Text) :
    read (unicodeEscape u ++ rest) = some ([u], rest) := by
  have hlt := u.toNat_lt
  have hnumber : u.toNat / 4096 * 4096 + u.toNat / 256 % 16 * 256 + u.toNat / 16 % 16
      * 16 + u.toNat % 16 = u.toNat := by omega
  simp [unicodeEscape, read, readEscape, unhexUnit_hexUnit, hnumber,
    show u.toNat / 4096 < 16 by omega, Nat.mod_lt]

/-- So is every escape. -/
theorem read_escape (u : UInt16) (rest : Text) : read (escape u ++ rest) = some ([u], rest) := by
  rw [escape]
  split_ifs with h1 h2 h3 h4 h5 h6 h7 h8
  · subst h1; rfl
  · subst h2; rfl
  · subst h3; rfl
  · subst h4; rfl
  · subst h5; rfl
  · subst h6; rfl
  · subst h7; rfl
  · exact read_unicodeEscape u rest
  · have hhigh : isHigh u = false := by
      rw [Bool.eq_false_iff]
      exact fun hu => h8 (.inr (.inl hu))
    simp [read, h1, h2, hhigh]

/-- A written character is read. -/
theorem read_token {s piece rest : Text} (h : next s = some (piece, rest)) (more : Text) :
    read (token piece ++ more) = some (piece, more) := by
  match s with
  | [u] =>
    obtain ⟨rfl, rfl⟩ := Prod.mk.inj (Option.some.inj h)
    exact read_escape u more
  | u :: v :: tail =>
    rw [next] at h
    split at h
    · rename_i hpair
      obtain ⟨rfl, rfl⟩ := Prod.mk.inj (Option.some.inj h)
      have hu := hpair.1
      simp only [isHigh, decide_eq_true_eq] at hu
      have hquote : u ≠ 0x22 := by
        rintro rfl
        exact absurd hu (by decide)
      have hback : u ≠ 0x5c := by
        rintro rfl
        exact absurd hu (by decide)
      change read (u :: v :: more) = _
      rw [read, if_neg hquote, if_neg hback, if_pos hpair.1]
    · obtain ⟨rfl, rfl⟩ := Prod.mk.inj (Option.some.inj h)
      exact read_escape u more

theorem next_eq_none {s : Text} (h : next s = none) : s = [] := by
  match s with
  | [] => rfl
  | u :: v :: tail =>
    rw [next] at h
    split at h <;> exact absurd h (by simp)

/-- Each piece takes something away. -/
theorem length_lt_of_next {s piece rest : Text} (h : next s = some (piece, rest)) :
    rest.length < s.length := by
  match s with
  | [u] =>
    obtain ⟨rfl, rfl⟩ := Prod.mk.inj (Option.some.inj h)
    exact Nat.one_pos
  | u :: v :: tail =>
    rw [next] at h
    split at h
    · obtain ⟨rfl, rfl⟩ := Prod.mk.inj (Option.some.inj h)
      simp only [List.length_cons]
      omega
    · obtain ⟨rfl, rfl⟩ := Prod.mk.inj (Option.some.inj h)
      simp

/-- What is read between quotes is the first character, until the quote. -/
theorem read_escaped (s rest : Text) :
    read (escaped s ++ 0x22 :: rest) = (next s).map fun first =>
      (first.1, escaped first.2 ++ 0x22 :: rest) := by
  cases hnext : next s with
  | none =>
    obtain rfl := next_eq_none hnext
    rfl
  | some first =>
    rw [(escaped_of_next hnext).1, List.append_assoc, read_token hnext]
    rfl

/-- What is between quotes says where it ends. -/
theorem escaped_append_injective {s t rest rest' : Text}
    (h : escaped s ++ 0x22 :: rest = escaped t ++ 0x22 :: rest') : s = t ∧ rest = rest' := by
  induction hlength : s.length using Nat.strong_induction_on generalizing s t with
  | _ n ih =>
    have hread := congrArg read h
    rw [read_escaped, read_escaped] at hread
    rcases hs : next s with - | ⟨piece, more⟩ <;> rcases ht : next t with - | ⟨piece', more'⟩ <;>
      rw [hs, ht] at hread
    · obtain rfl := next_eq_none hs
      obtain rfl := next_eq_none ht
      exact ⟨rfl, (List.cons.inj h).2⟩
    · exact absurd hread (by simp)
    · exact absurd hread (by simp)
    · -- the first characters are one, and what follows is shorter
      simp only [Option.map_some, Option.some.injEq, Prod.mk.injEq] at hread
      have hlt := length_lt_of_next hs
      obtain ⟨hrest, hend⟩ := ih more.length (by omega) hread.2 rfl
      exact ⟨by rw [(escaped_of_next hs).2, (escaped_of_next ht).2, hread.1, hrest], hend⟩

/-- **A quoted string says where it ends.** -/
theorem stringify_append_injective {s t rest rest' : Text}
    (h : stringify s ++ rest = stringify t ++ rest') :
    s = t ∧ rest = rest' := by
  simp only [stringify, List.cons_append, List.append_assoc, List.nil_append] at h
  exact escaped_append_injective (List.cons.inj h).2

/-- A line feed has a short escape, a lone surrogate its number, and a pair stands for itself. -/
example : stringify [0x61, 0x0a, 0xd800, 0xd83d,
  0xde00] = Utf16.ofString "\"a\\n\\ud800😀\"" := by decide

/-! ## Numbers -/

/-- The code units of numbers: digits, signs, the point and the exponent. -/
def numberUnits : List UInt16 := (Utf16.ofString "0123456789+-.e")

/-- A text that ends a number: nothing, or one that does not go on with it. -/
def Ends (rest : Text) : Prop := ∀ u, rest.head? = some u → u ∉ numberUnits

theorem ends_nil : Ends [] := by
  rintro u ⟨⟩

/-- A number ends where its characters do. -/
theorem takeWhile_ends {text rest : Text} (h : ∀ u ∈ text, u ∈ numberUnits) (hrest : Ends rest) :
    (text ++ rest).takeWhile (· ∈ numberUnits) = text := by
  have hstop : rest.takeWhile (· ∈ numberUnits) = [] := by
    cases rest with
    | nil => rfl
    | cons u rest =>
      have hu := hrest u rfl
      simp [hu]
  rw [List.takeWhile_append_of_pos (by simpa using h), hstop, List.append_nil]

/-- **A number ends where its alphabet does.** -/
theorem ends_append_injective {text text' rest rest' : Text} (h : ∀ u ∈ text, u ∈ numberUnits)
    (h' : ∀ u ∈ text', u ∈ numberUnits) (hrest : Ends rest) (hrest' : Ends rest')
    (heq : text ++ rest = text' ++ rest') : text = text' ∧ rest = rest' := by
  have htext : text = text' := by
    rw [← takeWhile_ends h hrest, ← takeWhile_ends h' hrest', heq]
  subst htext
  exact ⟨rfl, List.append_cancel_left heq⟩

/-! ## Lists of parts -/

/-- `parts.join(',')`. -/
def joined : List Text → Text
  | [] => []
  | [part] => part
  | part :: part' :: parts => part ++ 0x2c :: joined (part' :: parts)

theorem joined_cons (part : Text) (parts : List Text) :
    joined (part :: parts) = part ++ (if parts = [] then [] else 0x2c :: joined parts) := by
  cases parts with
  | nil => exact (List.append_nil _).symm
  | cons part' parts => rfl

/-- **A list of parts is read part by part**, up to its closing bracket. -/
theorem joined_append_injective {α β : Type} {R : α → β → Prop} {f : α → Text}
    {g : β → Text} {close : UInt16}
    {xs : List α} {ys : List β} {rest rest' : Text} (hcomma : close ≠ 0x2c)
    (hclose : close ∉ numberUnits)
    (hreads : ∀ x ∈ xs, ∀ y ∈ ys, ∀ more more', Ends more → Ends more' →
      f x ++ more = g y ++ more' → R x y ∧ more = more')
    (hf : ∀ x ∈ xs, ∀ more, (f x ++ more).head? ≠ some close)
    (hg : ∀ y ∈ ys, ∀ more, (g y ++ more).head? ≠ some close)
    (h : joined (xs.map f) ++ close :: rest = joined (ys.map g) ++ close :: rest') :
    List.Forall₂ R xs ys ∧ rest = rest' := by
  -- What follows a part is a comma or the bracket, and neither goes on a number.
  have hends (parts : List Text) (rest : Text) :
      Ends ((if parts = [] then [] else 0x2c :: joined parts) ++ close :: rest) := by
    rintro u hu
    split at hu
    · obtain rfl := Option.some.inj hu
      exact hclose
    · obtain rfl := Option.some.inj hu
      decide
  induction xs generalizing ys with
  | nil =>
    cases ys with
    | nil => exact ⟨.nil, (List.cons.inj h).2⟩
    | cons y ys =>
      rw [List.map_cons, joined_cons, List.append_assoc] at h
      exact absurd (congrArg List.head? h).symm (hg y List.mem_cons_self _)
  | cons x xs ih =>
    cases ys with
    | nil =>
      rw [List.map_cons, joined_cons, List.append_assoc] at h
      exact absurd (congrArg List.head? h) (hf x List.mem_cons_self _)
    | cons y ys =>
      rw [List.map_cons, List.map_cons, joined_cons, joined_cons, List.append_assoc,
        List.append_assoc] at h
      obtain ⟨hxy, hmore⟩ :=
        hreads x List.mem_cons_self y List.mem_cons_self _ _ (hends _ _) (hends _ _) h
      simp only [List.map_eq_nil_iff] at hmore
      -- Both lists end here or both go on, as a comma is no bracket.
      split at hmore <;> split at hmore
      · rename_i hxs hys
        subst hxs hys
        exact ⟨.cons hxy .nil, (List.cons.inj hmore).2⟩
      · exact absurd (List.cons.inj hmore).1 hcomma
      · exact absurd (List.cons.inj hmore).1.symm hcomma
      · obtain ⟨hrest, hend⟩ :=
          ih (fun x hx y hy => hreads x (List.mem_cons_of_mem _ hx) y (List.mem_cons_of_mem _ hy))
          (fun x hx => hf x (List.mem_cons_of_mem _ hx))
            (fun y hy => hg y (List.mem_cons_of_mem _ hy))
          (List.cons.inj hmore).2
        exact ⟨.cons hxy hrest, hend⟩

end JsonText
