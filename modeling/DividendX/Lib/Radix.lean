import Mathlib.Data.List.TakeWhile
import Mathlib.Data.Nat.Digits.Lemmas

/-!
# Numerals of two radixes

A numeral is a list of digits, the highest first. Written in another radix with its leading zeros
kept (`convert`), it says the same number and as many leading zeros, so converting back gives it
again (`convert_convert`), and no two numerals of one length become one.
-/

namespace Radix

/-- The number of a numeral. -/
def number (base : Nat) (digits : List Nat) : Nat := Nat.ofDigits base digits.reverse

/-- The leading zeros of a numeral. -/
def zeros (digits : List Nat) : Nat := (digits.takeWhile (· = 0)).length

/-- The numeral with so many leading zeros of a number. -/
def numeral (base zeros n : Nat) : List Nat := List.replicate zeros 0 ++ (Nat.digits base n).reverse

/-- A numeral in another radix. -/
def convert (base target : Nat) (digits : List Nat) : List Nat :=
  numeral target (zeros digits) (number base digits)

/-- From the highest digit down. -/
theorem number_eq_foldl (base : Nat) (digits : List Nat) :
    number base digits = digits.foldl (fun n d => n * base + d) 0 := by
  rw [number, Nat.ofDigits_eq_foldr, List.foldr_reverse]
  simp [Nat.add_comm, Nat.mul_comm]

theorem takeWhile_zero (digits : List Nat) :
    digits.takeWhile (· = 0) = List.replicate (zeros digits) 0 := by
  refine List.eq_replicate_of_mem fun d hd => ?_
  simpa using List.mem_takeWhile_imp hd

/-- After its leading zeros a numeral has a digit that is not zero, or ends. -/
theorem zeros_append_drop (digits : List Nat) :
    List.replicate (zeros digits) 0 ++ digits.dropWhile (· = 0) = digits := by
  rw [← takeWhile_zero]
  exact List.takeWhile_append_dropWhile

/-- The leading zeros are the leading symbols of zero, however digits are written. -/
theorem length_takeWhile_map {α : Type} [DecidableEq α] {symbol : Nat → α}
    {zero : α} {digits : List Nat}
    (h : ∀ d ∈ digits, symbol d = zero ↔ d = 0) :
    ((digits.map symbol).takeWhile (· = zero)).length = zeros digits := by
  rw [zeros]
  induction digits with
  | nil => rfl
  | cons digit digits ih =>
    obtain ⟨hdigit, hdigits⟩ := List.forall_mem_cons.mp h
    by_cases hzero : digit = 0
    · have hsymbol : symbol 0 = zero := by
        rw [hzero] at hdigit
        exact hdigit.mpr rfl
      simp [hzero, hsymbol, ih hdigits]
    · simp [hdigit, hzero]

theorem number_append_zeros (base k : Nat) (digits : List Nat) :
    number base (List.replicate k 0 ++ digits) = number base digits := by
  simp [number, Nat.ofDigits_append_replicate_zero]

theorem number_eq_zero_iff {base : Nat} (hbase : 1 < base) (digits : List Nat) :
    number base digits = 0 ↔ ∀ d ∈ digits, d = 0 := by
  constructor
  · intro h d hd
    exact Nat.digits_zero_of_eq_zero (by omega) h d (List.mem_reverse.mpr hd)
  · intro h
    have happend := number_append_zeros base digits.length []
    rw [List.append_nil, ← List.eq_replicate_of_mem h] at happend
    exact happend

/-- A numeral is what its zeros and its number make it. -/
theorem numeral_number {base : Nat} (hbase : 1 < base) {digits : List Nat}
    (h : ∀ d ∈ digits, d < base) :
    numeral base (zeros digits) (number base digits) = digits := by
  have hsplit := zeros_append_drop digits
  generalize hrest : digits.dropWhile (· = 0) = rest at hsplit
  have hdigits : Nat.digits base (number base rest) = rest.reverse := by
    refine Nat.digits_ofDigits base hbase rest.reverse (fun d hd => ?_) fun hne => ?_
    · refine h d ?_
      rw [← hsplit]
      exact List.mem_append_right _ (List.mem_reverse.mp hd)
    · -- the lowest place of the reversed list is the highest digit
      have hhead : rest ≠ [] := fun hnil => hne (by rw [hnil]; rfl)
      rw [List.getLast_reverse]
      subst hrest
      have hnonzero := List.head_dropWhile_not (fun d : Nat => decide (d = 0)) hhead
      simpa using hnonzero
  -- the zeros in front count for nothing
  have hnumber : number base digits = number base rest := by
    have hzeros := number_append_zeros base (zeros digits) rest
    rwa [hsplit] at hzeros
  rw [numeral, hnumber, hdigits, List.reverse_reverse]
  exact hsplit

theorem number_numeral (base k n : Nat) : number base (numeral base k n) = n := by
  rw [numeral, number_append_zeros, number, List.reverse_reverse, Nat.ofDigits_digits]

/-- A number is written without a leading zero. -/
theorem zeros_numeral (base k n : Nat) : zeros (numeral base k n) = k := by
  have hhead : (Nat.digits base n).reverse.takeWhile (· = 0) = [] := by
    by_cases hn : n = 0
    · simp [hn]
    · have hne : Nat.digits base n ≠ [] := Nat.digits_ne_nil_iff_ne_zero.mpr hn
      have hlast := Nat.getLast_digit_ne_zero base hn
      rw [List.takeWhile_eq_nil_iff]
      intro hlength
      rw [List.get_eq_getElem, List.getElem_zero, List.head_reverse]
      simpa using hlast
  rw [zeros, numeral, List.takeWhile_append_of_pos (by simp), hhead]
  simp

theorem lt_of_mem_numeral {base k n d : Nat} (hbase : 1 < base)
    (h : d ∈ numeral base k n) : d < base := by
  rcases List.mem_append.mp h with hzero | hdigit
  · rw [List.eq_of_mem_replicate hzero]
    omega
  · exact Nat.digits_lt_base hbase (List.mem_reverse.mp hdigit)

theorem length_numeral (base k n : Nat) :
    (numeral base k n).length = k + (Nat.digits base n).length := by
  simp [numeral]

/-- The same number, the same zeros. -/
theorem number_convert (base target : Nat) (digits : List Nat) :
    number target (convert base target digits) = number base digits := number_numeral _ _ _

theorem zeros_convert (base target : Nat) (digits : List Nat) :
    zeros (convert base target digits) = zeros digits := zeros_numeral _ _ _

/-- **Back again.** -/
theorem convert_convert {base : Nat} (target : Nat) (hbase : 1 < base) {digits : List Nat}
    (h : ∀ d ∈ digits, d < base) : convert target base (convert base target digits) = digits := by
  rw [convert, number_convert, zeros_convert]
  exact numeral_number hbase h

/-- Numerals that become one are one. -/
theorem convert_injective {base target : Nat} (hbase : 1 < base) {l₁ l₂ : List Nat}
    (h₁ : ∀ d ∈ l₁, d < base) (h₂ : ∀ d ∈ l₂, d < base)
    (h : convert base target l₁ = convert base target l₂) :
    l₁ = l₂ := by
  rw [← convert_convert target hbase h₁, ← convert_convert target hbase h₂, h]

end Radix
