import Mathlib.Algebra.Order.Field.Power
import Mathlib.Data.Rat.Cast.Order
import Mathlib.Tactic.Linarith
import Mathlib.Tactic.Positivity
import Mathlib.Tactic.Ring
import Mathlib.Tactic.NormNum

/-!
# Binary64 patterns as exact rationals

The value of a 64-bit IEEE 754 pattern, read off its three fields as a rational number, with no
rounding anywhere. A **positive normal** pattern has sign bit `0` and a nonzero exponent field
that is not all ones; on those the value is `(2 ^ 52 + fraction) * 2 ^ (exponent - 1075)`, it is
positive, and the unsigned order of the patterns is the order of the values (`le_iff_value_le`).
-/

namespace Binary64

/-- The sign bit. -/
def signField (bits : UInt64) : Nat := bits.toNat / 2 ^ 63

/-- The eleven exponent bits. -/
def exponentField (bits : UInt64) : Nat := bits.toNat / 2 ^ 52 % 2 ^ 11

/-- The fifty-two fraction bits. -/
def fractionField (bits : UInt64) : Nat := bits.toNat % 2 ^ 52

/-- The magnitude of a finite pattern: subnormal when the exponent field is zero. -/
def magnitude (bits : UInt64) : ℚ :=
  if exponentField bits = 0 then (fractionField bits : ℚ) * 2 ^ (-1074 : ℤ)
  else ((2 ^ 52 + fractionField bits : ℕ) : ℚ) * 2 ^ ((exponentField bits : ℤ) - 1075)

/-- The exact value of a finite pattern; infinities and NaNs have no value, and what is given
for them means nothing. -/
def value (bits : UInt64) : ℚ :=
  if signField bits = 0 then magnitude bits else -magnitude bits

/-- Sign bit `0`, exponent field neither zero nor all ones. -/
def PositiveNormal (bits : UInt64) : Prop :=
  signField bits = 0 ∧ exponentField bits ≠ 0 ∧ exponentField bits ≠ 2047

instance (bits : UInt64) : Decidable (PositiveNormal bits) :=
  inferInstanceAs (Decidable (_ ∧ _ ∧ _))

theorem fractionField_lt (bits : UInt64) : fractionField bits < 2 ^ 52 :=
  Nat.mod_lt _ (by norm_num)

namespace PositiveNormal

variable {a b : UInt64}

/-- With the sign bit clear the two lower fields make up the whole pattern. -/
theorem toNat_eq (h : PositiveNormal a) :
    a.toNat = exponentField a * 2 ^ 52 + fractionField a := by
  have hs := h.1
  rw [signField] at hs
  rw [exponentField, fractionField]
  omega

theorem value_eq (h : PositiveNormal a) :
    value a = ((2 ^ 52 + fractionField a : ℕ) : ℚ) * 2 ^ ((exponentField a : ℤ) - 1075) := by
  rw [value, if_pos h.1, magnitude, if_neg h.2.1]

theorem value_pos (h : PositiveNormal a) : 0 < value a := by
  rw [h.value_eq]
  positivity

/-- One binade up is at least as much as the end of the binade below. -/
theorem value_lt_of_exponent_lt (ha : PositiveNormal a) (hb : PositiveNormal b)
    (h : exponentField a < exponentField b) : value a < value b := by
  rw [ha.value_eq, hb.value_eq]
  have hfa : ((2 ^ 52 + fractionField a : ℕ) : ℚ) < 2 ^ 53 := by
    have := fractionField_lt a
    exact_mod_cast (by omega : 2 ^ 52 + fractionField a < 2 ^ 53)
  have hfb : (2 ^ 52 : ℚ) ≤ ((2 ^ 52 + fractionField b : ℕ) : ℚ) := by
    exact_mod_cast Nat.le_add_right _ _
  have hp : (0 : ℚ) < 2 ^ ((exponentField a : ℤ) - 1075) := by positivity
  -- the end of one binade is at most the start of the next
  calc ((2 ^ 52 + fractionField a : ℕ) : ℚ) * 2 ^ ((exponentField a : ℤ) - 1075)
      < 2 ^ 53 * 2 ^ ((exponentField a : ℤ) - 1075) := by gcongr
    _ = 2 ^ 52 * 2 ^ ((exponentField a : ℤ) + 1 - 1075) := by
        rw [show (exponentField a : ℤ) + 1 - 1075 = ((exponentField a : ℤ) - 1075) + 1 by ring,
          zpow_add₀ (by norm_num)]
        ring
    _ ≤ 2 ^ 52 * 2 ^ ((exponentField b : ℤ) - 1075) := by
        gcongr
        · norm_num
        · exact_mod_cast h
    _ ≤ ((2 ^ 52 + fractionField b : ℕ) : ℚ) * 2 ^ ((exponentField b : ℤ) - 1075) := by gcongr

theorem value_lt_of_lt (ha : PositiveNormal a) (hb : PositiveNormal b) (h : a < b) :
    value a < value b := by
  have hlt : a.toNat < b.toNat := UInt64.lt_iff_toNat_lt.mp h
  rw [ha.toNat_eq, hb.toNat_eq] at hlt
  have hfa := fractionField_lt a
  have hfb := fractionField_lt b
  rcases Nat.lt_or_ge (exponentField a) (exponentField b) with he | he
  · exact value_lt_of_exponent_lt ha hb he
  · -- the same binade: the fractions decide
    have heq : exponentField a = exponentField b := by omega
    rw [ha.value_eq, hb.value_eq, heq]
    have hf : fractionField a < fractionField b := by
      rw [heq] at hlt
      omega
    have hp : (0 : ℚ) < 2 ^ ((exponentField b : ℤ) - 1075) := by positivity
    have hc : ((2 ^ 52 + fractionField a : ℕ) : ℚ) < ((2 ^ 52 + fractionField b : ℕ) : ℚ) := by
      exact_mod_cast Nat.add_lt_add_left hf _
    gcongr

/-- **Order**: on positive normal patterns the order of the bits is the order of the values. -/
theorem le_iff_value_le (ha : PositiveNormal a) (hb : PositiveNormal b) :
    a ≤ b ↔ value a ≤ value b := by
  constructor
  · intro h
    rcases UInt64.lt_or_eq_of_le h with hlt | rfl
    · exact (value_lt_of_lt ha hb hlt).le
    · exact le_refl _
  · intro h
    by_contra hn
    exact absurd (value_lt_of_lt hb ha (UInt64.not_le.mp hn)) (not_lt.mpr h)

end PositiveNormal

end Binary64
