import Mathlib.Data.List.Basic

/-!
# Base64

The text of a list of bytes: three bytes are four characters of six bits each, a shorter last group
is filled up with zero bits and `=`. The reader is a lenient one: it reads up to the first `=` and
skips what is not of the alphabet. What is written is read back (`decode_encode`).
-/

namespace Base64

/-- The characters, in the order of their values. -/
def alphabet : List Char :=
  "ABCDEFGHIJKLMNOPQRSTUVWXYZabcdefghijklmnopqrstuvwxyz0123456789+/".toList

/-- The character of six bits. -/
def digit (n : Nat) : Char := alphabet.getD n 'A'

/-- The six bits of a character, also in the spelling for URLs. -/
def value? (c : Char) : Option Nat :=
  if c = '-' then some 62
  else if c = '_' then some 63
  else if alphabet.idxOf c < 64 then some (alphabet.idxOf c) else none

/-- The text of some bytes. -/
def encode : List UInt8 → List Char
  | [] => []
  | [a] => [digit (a.toNat / 4), digit (a.toNat % 4 * 16), '=', '=']
  | [a, b] =>
    [digit (a.toNat / 4), digit (a.toNat % 4 * 16 + b.toNat / 16), digit (b.toNat % 16 * 4), '=']
  | a :: b :: c :: rest =>
    digit (a.toNat / 4) :: digit (a.toNat % 4 * 16 + b.toNat / 16)
      :: digit (b.toNat % 16 * 4 + c.toNat / 64) :: digit (c.toNat % 64) :: encode rest

/-- The bytes of groups of six bits; bits that do not fill a byte are dropped. -/
def bytes : List Nat → List UInt8
  | u :: v :: x :: y :: rest =>
    .ofNat (u * 4 + v / 16) :: .ofNat (v % 16 * 16 + x / 4) :: .ofNat (x % 4 * 64 + y) :: bytes rest
  | [u, v, x] => [.ofNat (u * 4 + v / 16), .ofNat (v % 16 * 16 + x / 4)]
  | [u, v] => [.ofNat (u * 4 + v / 16)]
  | [_] | [] => []

/-- The bytes of a text. -/
def decode (text : List Char) : List UInt8 := bytes ((text.takeWhile (· ≠ '=')).filterMap value?)

theorem digit_ne_pad {n : Nat} (h : n < 64) : digit n ≠ '=' := by
  revert n
  decide +kernel

theorem value?_digit {n : Nat} (h : n < 64) : value? (digit n) = some n := by
  revert n
  decide +kernel

/-- The six bits that are read before the first pad. -/
def sextets (text : List Char) : List Nat := (text.takeWhile (· ≠ '=')).filterMap value?

theorem sextets_digit {n : Nat} (h : n < 64) (text : List Char) :
    sextets (digit n :: text) = n :: sextets text := by
  have hne := digit_ne_pad h
  simp [sextets, hne, value?_digit h]

@[simp] theorem sextets_pad (text : List Char) : sextets ('=' :: text) = [] := by
  simp [sextets]

theorem ofNat_toNat {n : Nat} {a : UInt8} (h : n = a.toNat) : UInt8.ofNat n = a := by
  rw [h, UInt8.ofNat_toNat]

/-- **What is written is read back.** -/
theorem decode_encode (l : List UInt8) : decode (encode l) = l := by
  change bytes (sextets (encode l)) = l
  -- in groups of three bytes, of which the last may have one or two
  induction l using encode.induct with
  | case1 => rfl
  | case2 a =>
    have ha := a.toNat_lt
    rw [encode, sextets_digit (by omega), sextets_digit (by omega), sextets_pad, bytes,
      ofNat_toNat (a := a) (by omega)]
  | case3 a b =>
    have ha := a.toNat_lt
    have hb := b.toNat_lt
    rw [encode, sextets_digit (by omega), sextets_digit (by omega),
      sextets_digit (by omega), sextets_pad,
      bytes, ofNat_toNat (a := a) (by omega), ofNat_toNat (a := b) (by omega)]
  | case4 a b c rest ih =>
    have ha := a.toNat_lt
    have hb := b.toNat_lt
    have hc := c.toNat_lt
    rw [encode, sextets_digit (by omega), sextets_digit (by omega), sextets_digit (by omega),
      sextets_digit (by omega), bytes, ih, ofNat_toNat (a := a) (by omega),
      ofNat_toNat (a := b) (by omega), ofNat_toNat (a := c) (by omega)]

end Base64
