import Mathlib.Data.Char
import Mathlib.Data.List.Basic

/-!
# Texts of UTF-16 code units

A text is any list of code units, well formed or not. Read as characters (`scalars`), a surrogate
without its partner becomes U+FFFD, which is also what encoders of UTF-8 make of it (`utf8`). So a
text and its well-formed copy (`toWellFormed`) are encoded alike, and no other texts are
(`utf8_eq_iff`).
-/

namespace Utf16

/-- A code unit that begins a pair. -/
def isHigh (u : UInt16) : Bool := 0xd800 ≤ u.toNat ∧ u.toNat < 0xdc00

/-- A code unit that ends a pair. -/
def isLow (u : UInt16) : Bool := 0xdc00 ≤ u.toNat ∧ u.toNat < 0xe000

/-- The character of a code unit on its own. -/
def single (u : UInt16) : Char := if isHigh u ∨ isLow u then '\ufffd' else Char.ofNat u.toNat

/-- The character of a pair. -/
def pair (u v : UInt16) : Char :=
  Char.ofNat (0x10000 + (u.toNat - 0xd800) * 0x400 + (v.toNat - 0xdc00))

/-- The characters of a text. -/
def scalars : List UInt16 → List Char
  | [] => []
  | [u] => [single u]
  | u :: v :: rest =>
    if isHigh u ∧ isLow v then pair u v :: scalars rest else single u :: scalars (v :: rest)

/-- The code units of a character. -/
def ofChar (c : Char) : List UInt16 :=
  if c.toNat < 0x10000 then [.ofNat c.toNat]
  else [.ofNat (0xd800 + (c.toNat - 0x10000) / 0x400),
    .ofNat (0xdc00 + (c.toNat - 0x10000) % 0x400)]

/-- The text of some characters. -/
def ofChars (chars : List Char) : List UInt16 := chars.flatMap ofChar

/-- The text of a string. -/
def ofString (s : String) : List UInt16 := ofChars s.toList

/-- The same text with every lone surrogate replaced. -/
def toWellFormed (text : List UInt16) : List UInt16 := ofChars (scalars text)

/-- The bytes of a text in UTF-8. -/
def utf8 (text : List UInt16) : List UInt8 := (scalars text).flatMap String.utf8EncodeChar

/-! ## Reading back what is written -/

/-- A unit that begins no pair is read by itself. -/
theorem scalars_cons {u : UInt16} (h : isHigh u = false) (rest : List UInt16) :
    scalars (u :: rest) = single u :: scalars rest := by
  cases rest with
  | nil => rfl
  | cons v rest =>
    rw [scalars, if_neg]
    rw [h]
    exact fun hboth => Bool.false_ne_true hboth.1

/-- A pair is read as one character. -/
theorem scalars_pair {u v : UInt16} (hu : isHigh u = true) (hv : isLow v = true)
    (rest : List UInt16) :
    scalars (u :: v :: rest) = pair u v :: scalars rest := by
  rw [scalars, if_pos ⟨hu, hv⟩]

/-- A character is no surrogate, and no more than the last one. -/
theorem toNat_char (c : Char) : (c.toNat < 0xd800 ∨ 0xe000 ≤ c.toNat) ∧ c.toNat < 0x110000 := by
  have hvalid := c.valid
  simp only [UInt32.isValidChar, Nat.isValidChar] at hvalid
  have htoNat : c.val.toNat = c.toNat := rfl
  rw [htoNat] at hvalid
  omega

/-- A character is read back. -/
theorem scalars_ofChar (c : Char) (rest : List UInt16) :
    scalars (ofChar c ++ rest) = c :: scalars rest := by
  obtain ⟨hsurrogate, hlt⟩ := toNat_char c
  rcases Nat.lt_or_ge c.toNat 0x10000 with hc | hc
  · have hunit : (UInt16.ofNat c.toNat).toNat = c.toNat := UInt16.toNat_ofNat_of_lt' hc
    have hhigh : isHigh (.ofNat c.toNat) = false := by
      simp only [isHigh, hunit, decide_eq_false_iff_not]
      omega
    have hlow : isLow (.ofNat c.toNat) = false := by
      simp only [isLow, hunit, decide_eq_false_iff_not]
      omega
    rw [ofChar, if_pos hc, List.singleton_append, scalars_cons hhigh, single, hhigh, hlow, hunit]
    simp
  · have hhi : (UInt16.ofNat (0xd800 + (c.toNat - 0x10000) / 0x400)).toNat
        = 0xd800 + (c.toNat - 0x10000) / 0x400 :=
          UInt16.toNat_ofNat_of_lt' (by simp only [UInt16.size]; omega)
    have hlo : (UInt16.ofNat (0xdc00 + (c.toNat - 0x10000) % 0x400)).toNat
        = 0xdc00 + (c.toNat - 0x10000) % 0x400 :=
          UInt16.toNat_ofNat_of_lt' (by simp only [UInt16.size]; omega)
    have hnat : 0x10000 + (0xd800 + (c.toNat - 0x10000) / 0x400 - 0xd800) * 0x400
        + (0xdc00 + (c.toNat - 0x10000) % 0x400 - 0xdc00) = c.toNat := by omega
    rw [ofChar, if_neg (by omega), List.cons_append, List.singleton_append,
      scalars_pair, pair, hhi, hlo, hnat, Char.ofNat_toNat]
    · simp only [isHigh, hhi, decide_eq_true_eq]
      omega
    · simp only [isLow, hlo, decide_eq_true_eq]
      omega

/-- **The characters of a text of characters.** -/
@[simp] theorem scalars_ofChars (chars : List Char) : scalars (ofChars chars) = chars := by
  induction chars with
  | nil => rfl
  | cons c chars ih =>
    change scalars (ofChar c ++ ofChars chars) = _
    rw [scalars_ofChar, ih]

/-- Different characters have different units. -/
theorem ofChars_injective {chars chars' : List Char} (h : ofChars chars = ofChars chars') :
    chars = chars' := by
  rw [← scalars_ofChars chars, ← scalars_ofChars chars', h]

/-- Texts with the same characters are well formed alike. -/
theorem toWellFormed_eq_iff {s t : List UInt16} : toWellFormed s = toWellFormed t ↔
    scalars s = scalars t :=
  ⟨ofChars_injective, congrArg ofChars⟩

/-- Different characters have different bytes. -/
theorem utf8Encode_injective {chars chars' : List Char}
    (h : chars.flatMap String.utf8EncodeChar = chars'.flatMap String.utf8EncodeChar) :
    chars = chars' := by
  refine String.ofList_injective (String.toByteArray_inj.mp ?_)
  exact congrArg List.toByteArray h

/-- **What UTF-8 tells apart**: all but lone surrogates. -/
theorem utf8_eq_iff {s t : List UInt16} : utf8 s = utf8 t ↔ toWellFormed s = toWellFormed t := by
  rw [toWellFormed_eq_iff]
  exact ⟨utf8Encode_injective, congrArg (List.flatMap String.utf8EncodeChar)⟩

/-! ## Texts that are well formed -/

theorem toNat_ofNat {n : Nat} (h : n.isValidChar) : (Char.ofNat n).toNat = n := by
  rw [Char.ofNat, dif_pos h]
  rfl

/-- A unit that was read as itself. -/
theorem ofChar_single {u : UInt16} (h : single u ≠ '\ufffd') : ofChar (single u) = [u] := by
  by_cases hsurrogate : isHigh u ∨ isLow u
  · rw [single, if_pos hsurrogate] at h
    exact absurd rfl h
  · have hvalid : u.toNat.isValidChar := by
      simp only [isHigh, isLow, decide_eq_true_eq, not_or, not_and, not_lt] at hsurrogate
      have hlt := u.toNat_lt
      simp only [Nat.isValidChar]
      omega
    have htoNat : (Char.ofNat u.toNat).toNat = u.toNat := toNat_ofNat hvalid
    rw [single, if_neg hsurrogate, ofChar, htoNat, if_pos u.toNat_lt, UInt16.ofNat_toNat]

/-- A pair that was read as one character. -/
theorem ofChar_pair {u v : UInt16} (hu : isHigh u = true) (hv : isLow v = true) :
    ofChar (pair u v) = [u, v] := by
  simp only [isHigh, decide_eq_true_eq] at hu
  simp only [isLow, decide_eq_true_eq] at hv
  have htoNat : (pair u v).toNat = 0x10000 + (u.toNat - 0xd800) * 0x400 + (v.toNat - 0xdc00) := by
    refine toNat_ofNat ?_
    simp only [Nat.isValidChar]
    omega
  have hhigh : 0xd800 + ((pair u v).toNat - 0x10000) / 0x400 = u.toNat := by
    rw [htoNat]
    omega
  have hlow : 0xdc00 + ((pair u v).toNat - 0x10000) % 0x400 = v.toNat := by
    rw [htoNat]
    omega
  rw [ofChar, if_neg (by rw [htoNat]; omega), hhigh, hlow, UInt16.ofNat_toNat, UInt16.ofNat_toNat]

/-- A text in which nothing reads as U+FFFD is well formed. -/
theorem toWellFormed_of_not_mem {text : List UInt16} (h : '\ufffd' ∉ scalars text) :
    toWellFormed text = text := by
  induction text using scalars.induct with
  | case1 => rfl
  | case2 u =>
    have hne : single u ≠ '\ufffd' := fun heq => h (by simp [scalars, heq])
    simp only [toWellFormed, ofChars, scalars, List.flatMap_cons, ofChar_single hne,
      List.flatMap_nil, List.append_nil]
  | case3 u v rest hpair ih =>
    rw [scalars_pair hpair.1 hpair.2] at h
    rw [toWellFormed, scalars_pair hpair.1 hpair.2]
    change ofChar (pair u v) ++ toWellFormed rest = _
    rw [ofChar_pair hpair.1 hpair.2, ih (List.not_mem_of_not_mem_cons h)]
    rfl
  | case4 u v rest hpair ih =>
    rw [scalars, if_neg hpair] at h
    rw [toWellFormed, scalars, if_neg hpair]
    change ofChar (single u) ++ toWellFormed (v :: rest) = _
    rw [ofChar_single (List.ne_of_not_mem_cons h).symm, ih (List.not_mem_of_not_mem_cons h)]
    rfl

end Utf16
