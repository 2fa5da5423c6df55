import Mathlib.Data.Rat.Lemmas
import Mathlib.Algebra.Order.Field.Rat
import Mathlib.Algebra.Order.Field.Basic
import Mathlib.Tactic.FieldSimp
import Mathlib.Tactic.Positivity
import Mathlib.Tactic.Ring

/-!
# Fractions of big integers, kept in lowest terms

Code that has no rational type carries a pair of big integers and divides both by their greatest
common divisor after every step. Here such a pair is a `Fraction`, `lowest` is the division, and
`ofRat` is the pair that stands for a rational. The two lemmas everything rests on:
`lowest_eq_ofRat`, a pair brought to lowest terms is the pair of its value, whatever pair it came
from; and `compare_lt_zero`, comparing cross products compares the values.
-/

/-- A numerator over a denominator. -/
structure Fraction where
  numerator : Int
  denominator : Int
  deriving DecidableEq

namespace Fraction

/-! ## The greatest common divisor -/

/-- Euclid's loop, `while (b !== 0) [a, b] = [b, a % b]`, for a number of turns. -/
def euclid : Nat → Nat → Nat → Nat
  | 0, a, _ => a
  | turns + 1, a, b => if b = 0 then a else euclid turns b (a % b)

/-- The loop on the absolute values; the second one goes down at every turn. -/
def gcd (left right : Int) : Int := euclid right.natAbs left.natAbs right.natAbs

theorem euclid_eq_gcd {turns a b : Nat} (h : b ≤ turns) : euclid turns a b = Nat.gcd a b := by
  induction turns generalizing a b with
  | zero =>
    obtain rfl : b = 0 := Nat.le_zero.mp h
    exact (Nat.gcd_zero_right a).symm
  | succ turns ih =>
    rw [euclid]
    split
    · rename_i hb
      rw [hb, Nat.gcd_zero_right]
    · rename_i hb
      have hmod := Nat.mod_lt a (Nat.pos_of_ne_zero hb)
      rw [ih (by omega), Nat.gcd_comm a b, Nat.gcd_rec b a, Nat.gcd_comm]

theorem gcd_eq (left right : Int) : gcd left right = Int.gcd left right := by
  rw [gcd, euclid_eq_gcd le_rfl]
  rfl

/-! ## Lowest terms -/

/-- Both parts divided by their greatest common divisor. -/
def lowest (f : Fraction) : Fraction :=
  ⟨f.numerator.tdiv (gcd f.numerator f.denominator),
    f.denominator.tdiv (gcd f.numerator f.denominator)⟩

/-- The fraction in lowest terms with a given value. -/
def ofRat (x : ℚ) : Fraction := ⟨x.num, x.den⟩

/-- A pair brought to lowest terms depends on its value only. -/
theorem lowest_eq_ofRat (n : Int) {d : Int} (hd : 0 < d) :
    lowest ⟨n, d⟩ = ofRat ((n : ℚ) / d) := by
  have hgcd : 0 < Int.gcd n d := Int.gcd_pos_of_ne_zero_right n hd.ne'
  obtain ⟨n', hn'⟩ := Int.gcd_dvd_left n d
  obtain ⟨d', hd'⟩ := Int.gcd_dvd_right n d
  have hmul := Int.gcd_mul_left (Int.gcd n d) n' d'
  rw [← hn', ← hd', Int.natAbs_natCast] at hmul
  -- divided by their greatest common divisor, the two are coprime
  have hcop : n'.natAbs.Coprime d'.natAbs :=
    Nat.eq_of_mul_eq_mul_left hgcd (hmul.symm.trans (Nat.mul_one _).symm)
  rw [lowest, gcd_eq]
  dsimp only
  generalize Int.gcd n d = g at hgcd hn' hd'
  subst hn' hd'
  have hg : (g : Int) ≠ 0 := by exact_mod_cast hgcd.ne'
  have hgq : ((g : Int) : ℚ) ≠ 0 := by exact_mod_cast hg
  have hpos : 0 < d' := pos_of_mul_pos_right hd (Int.natCast_nonneg g)
  rw [Int.mul_tdiv_cancel_left n' hg, Int.mul_tdiv_cancel_left d' hg, Int.cast_mul, Int.cast_mul,
    mul_div_mul_left _ _ hgq, ofRat, Rat.num_div_eq_of_coprime hpos hcop,
    Rat.den_div_eq_of_coprime hpos hcop]

theorem value_ofRat (x : ℚ) : ((ofRat x).numerator : ℚ) / (ofRat x).denominator = x := by
  change (x.num : ℚ) / ((x.den : Int) : ℚ) = x
  rw [Int.cast_natCast]
  exact Rat.num_div_den x

theorem numerator_ofRat_nonneg {x : ℚ} (h : 0 ≤ x) : 0 ≤ (ofRat x).numerator :=
  Rat.num_nonneg.mpr h

theorem denominator_ofRat_pos (x : ℚ) : 0 < (ofRat x).denominator := by
  change (0 : Int) < x.den
  exact_mod_cast x.den_pos

/-! ## Comparing -/

/-- The sign of the difference of the cross products. -/
def compare (left right : Fraction) : Int :=
  let delta := left.numerator * right.denominator - right.numerator * left.denominator
  if delta < 0 then -1 else if 0 < delta then 1 else 0

theorem compare_lt_zero {l r : Fraction} (hl : 0 < l.denominator) (hr : 0 < r.denominator) :
    compare l r < 0 ↔ (l.numerator : ℚ) / l.denominator < (r.numerator : ℚ) / r.denominator := by
  have hl' : (0 : ℚ) < l.denominator := by exact_mod_cast hl
  have hr' : (0 : ℚ) < r.denominator := by exact_mod_cast hr
  have hcross : compare l r < 0 ↔
      l.numerator * r.denominator < r.numerator * l.denominator := by
    unfold compare
    dsimp only
    split
    · exact iff_of_true (by norm_num) (by omega)
    · split
      · exact iff_of_false (by norm_num) (by omega)
      · exact iff_of_false (by norm_num) (by omega)
  rw [hcross, div_lt_div_iff₀ hl' hr']
  exact_mod_cast Iff.rfl

end Fraction
