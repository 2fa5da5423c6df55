import DividendX.Calendar
import DividendX.Lib.Fraction
import DividendX.Sdk.Arithmetic
import DividendX.Sdk.EventInputs
import Mathlib.Data.Nat.Size

/-!
# The oracle of the protocol tests

`oracle.rs`: the arithmetic of a series a third time, which the protocol tests compare the program
with. It keeps fractions in lowest terms and bounds both parts after every product, holds the
unreduced product beside it for the sizes of the stored bytes, and has its own pools, payouts and
calendar.

The oracle accepts the lists of events the program accepts (`accumulate_eq_ok`), and its bound on
the parts is never met within 64 events. `accumulateUnreduced_eq_ok` ties the unreduced product to
the stored bytes for lists of every length, and `oraclePools_eq` the pools.
-/

namespace DividendX

open LittleEndian Binary64

namespace Oracle

/-! ## Exact ratios -/

/-- `OracleError`. -/
inductive OracleError where
  | invalidMultiplier
  | decreasingMultiplier
  | ratioAboveOne
  | componentTooLarge
  | invalidDecimal
  | invalidDate
  | arithmetic
  deriving DecidableEq

/-- A computation of the oracle. -/
abbrev Verdict (α : Type) := Except OracleError α

def MAX_COMPONENT_BITS : Nat := 8192
def PROVEN_FACTOR_PRODUCT_BITS : Nat := 7424
def MIN_MULTIPLIER_BITS : UInt64 := 0x3df0_0000_0000_0000
def MAX_MULTIPLIER_EXCLUSIVE_BITS : UInt64 := 0x41f0_0000_0000_0000

/-- `ExactRatio`. -/
structure ExactRatio where
  numerator : Nat
  denominator : Nat
  deriving DecidableEq

/-- `validate_multiplier`. -/
def validateMultiplier (bits : UInt64) : Verdict Unit :=
  let sign := bits >>> 63
  let exponent := (bits >>> 52) &&& 0x7ff
  Result.require (¬ (sign ≠ 0 ∨ exponent = 0 ∨ exponent = 0x7ff ∨ bits < MIN_MULTIPLIER_BITS ∨
    MAX_MULTIPLIER_EXCLUSIVE_BITS ≤ bits)) .invalidMultiplier

/-- The zeros below the lowest one bit, of a number of so many bits. -/
def trailingZeros : Nat → Nat → Nat
  | 0, _ => 0
  | bits + 1, n => if n % 2 = 1 then 0 else trailingZeros bits (n / 2) + 1

namespace ExactRatio

/-- `ExactRatio::one`. -/
def one : ExactRatio := ⟨1, 1⟩

/-- `ExactRatio::new`. -/
def new (numerator denominator : Nat) : Verdict ExactRatio := do
  Result.require (denominator ≠ 0) .arithmetic
  let gcd := numerator.gcd denominator
  return ⟨numerator / gcd, denominator / gcd⟩

/-- `ExactRatio::from_f64_bits`. -/
def fromF64Bits (bits : UInt64) : Verdict ExactRatio := do
  validateMultiplier bits
  let exponentField := (bits >>> 52) &&& 0x7ff
  let significand := ((1 : UInt64) <<< 52) ||| (bits &&& (((1 : UInt64) <<< 52) - 1))
  let exponent := (exponentField.toNat : Int) - 1023 - 52
  let trailing := trailingZeros 64 significand.toNat
  let numerator := significand.toNat >>> trailing
  let exponent := exponent + trailing
  if 0 ≤ exponent then new (numerator <<< exponent.toNat) 1
  else new numerator (1 <<< (-exponent).toNat)

/-- `ExactRatio::multiply`: the new value of the receiver. -/
def multiply (self rhs : ExactRatio) : Verdict ExactRatio := do
  let next ← new (self.numerator * rhs.numerator) (self.denominator * rhs.denominator)
  Result.require (¬ (MAX_COMPONENT_BITS < next.numerator.size ∨
    MAX_COMPONENT_BITS < next.denominator.size)) .componentTooLarge
  return next

end ExactRatio

open ExactRatio

/-! ## Multipliers and events -/

/-- `active_multiplier_bits`. -/
def activeMultiplierBits (currentBits pendingBits : UInt64)
    (pendingEffectiveTimestamp clockUnixTimestamp : Int64) : Verdict UInt64 := do
  validateMultiplier currentBits
  validateMultiplier pendingBits
  Result.require (¬ pendingEffectiveTimestamp < 0) .arithmetic
  return if pendingEffectiveTimestamp ≤ clockUnixTimestamp then pendingBits else currentBits

/-- `factor`. -/
def factor (m0Bits m1Bits : UInt64) : Verdict ExactRatio := do
  validateMultiplier m0Bits
  validateMultiplier m1Bits
  Result.require (¬ m1Bits < m0Bits) .decreasingMultiplier
  let m0 ← fromF64Bits m0Bits
  let m1 ← fromF64Bits m1Bits
  let result ← new (m0.numerator * m1.denominator) (m0.denominator * m1.numerator)
  Result.require (¬ result.denominator < result.numerator) .ratioAboveOne
  return result

/-- One turn of `accumulate`. -/
def accumulateEvent (ratio : ExactRatio) (event : UInt64 × UInt64) : Verdict ExactRatio := do
  let f ← factor event.1 event.2
  ratio.multiply f

/-- `accumulate`. -/
def accumulate (events : List (UInt64 × UInt64)) : Verdict ExactRatio :=
  events.foldlM accumulateEvent one

/-- `raw_binary_parts`. -/
def rawBinaryParts (bits : UInt64) : UInt64 × Int :=
  let exponentField := (bits >>> 52) &&& 0x7ff
  let significand := ((1 : UInt64) <<< 52) ||| (bits &&& (((1 : UInt64) <<< 52) - 1))
  (significand, (exponentField.toNat : Int) - 1023 - 52)

/-- One turn of `accumulate_unreduced`. -/
def accumulateUnreducedEvent (ratio : ExactRatio) (event : UInt64 × UInt64) :
    Verdict ExactRatio := do
  validateMultiplier event.1
  validateMultiplier event.2
  Result.require (¬ event.2 < event.1) .decreasingMultiplier
  let (m0Significand, m0Exponent) := rawBinaryParts event.1
  let (m1Significand, m1Exponent) := rawBinaryParts event.2
  let numerator := ratio.numerator * m0Significand.toNat
  let denominator := ratio.denominator * m1Significand.toNat
  let shift := m0Exponent - m1Exponent
  let numerator' := if 0 ≤ shift then numerator <<< shift.toNat else numerator
  let denominator' := if 0 ≤ shift then denominator else denominator <<< (-shift).toNat
  Result.require (¬ (MAX_COMPONENT_BITS < numerator'.size ∨
    MAX_COMPONENT_BITS < denominator'.size)) .componentTooLarge
  return ⟨numerator', denominator'⟩

/-- `accumulate_unreduced`. -/
def accumulateUnreduced (events : List (UInt64 × UInt64)) : Verdict ExactRatio :=
  events.foldlM accumulateUnreducedEvent one

/-! ## Pools and payouts -/

/-- `Pools`. -/
structure Pools where
  pt : Nat
  dr : Nat
  deriving DecidableEq

/-- `pools`. -/
def pools (quantity : UInt64) (ratio : ExactRatio) : Verdict Pools := do
  Result.require (¬ ratio.denominator < ratio.numerator) .ratioAboveOne
  let dr := quantity.toNat * (ratio.denominator - ratio.numerator) / ratio.denominator
  let pt := quantity.toNat - dr
  return ⟨pt, dr⟩

/-- `u128::checked_mul` and `u128::checked_add`, on the exact result. -/
def checkedU128 (n : Nat) : Option Nat := if n < 2 ^ 128 then some n else none

/-- `cumulative_payout`. -/
def cumulativePayout (priorBurned burn pool nominalSupply : UInt64) : Verdict UInt64 := do
  Result.require (nominalSupply ≠ 0) .arithmetic
  let product ← Result.okOr (checkedU128 (priorBurned.toNat * pool.toNat)) .arithmetic
  let before := product / nominalSupply.toNat
  let product ← Result.okOr (checkedU128 (priorBurned.toNat + burn.toNat) >>= fun total =>
    checkedU128 (total * pool.toNat)) .arithmetic
  let through := product / nominalSupply.toNat
  Result.require (through - before < 2 ^ 64) .arithmetic
  return UInt64.ofNat (through - before)

/-! ## Dates -/

/-- `month_days`. -/
def monthDays (leap : Bool) : List UInt32 :=
  [31, if leap then 29 else 28, 31, 30, 31, 30, 31, 31, 30, 31, 30, 31]

/-- `valid_civil_date`. -/
def validCivilDate (encoded : UInt32) : Verdict Unit := do
  Result.require (encoded ≠ 0) .invalidDate
  let year := encoded / 10000
  let month := (encoded / 100) % 100
  let day := encoded % 100
  Result.require ((2020 ≤ year ∧ year ≤ 2100) ∧ (1 ≤ month ∧ month ≤ 12)) .invalidDate
  let leap := year % 4 == 0 && (year % 100 != 0 || year % 400 == 0)
  let last := (monthDays leap).getD (month - 1).toNat 0
  Result.require (¬ (day = 0 ∨ last < day)) .invalidDate

/-- The days of one year. -/
def yearDays (candidate : Nat) : Nat :=
  let leap := candidate % 4 == 0 && (candidate % 100 != 0 || candidate % 400 == 0)
  if leap then 366 else 365

/-- `jan1_unix_timestamp`. -/
def jan1UnixTimestamp (year : UInt16) : Verdict Int64 := do
  Result.require (2020 ≤ year ∧ year ≤ 2101) .invalidDate
  let days := (List.range' 1970 (year.toNat - 1970)).foldl
    (fun days candidate => days + yearDays candidate) 0
  Result.okOr (checkedMulI64 days 86400) .arithmetic

/-! ## Ratios in lowest terms -/

namespace ExactRatio

/-- The ratio in lowest terms with a given value. -/
def ofRat (x : ℚ) : ExactRatio := ⟨x.num.toNat, x.den⟩

/-- Dividing by the greatest common divisor gives the ratio of the value. -/
theorem ofRat_div (n : Nat) {d : Nat} (hd : d ≠ 0) :
    ofRat ((n : ℚ) / d) = ⟨n / n.gcd d, d / n.gcd d⟩ := by
  have h := Fraction.lowest_eq_ofRat n (Int.natCast_pos.mpr (Nat.pos_of_ne_zero hd))
  rw [Int.cast_natCast, Int.cast_natCast, Fraction.lowest, Fraction.gcd_eq, Fraction.ofRat,
    Fraction.mk.injEq] at h
  obtain ⟨hnum, hden⟩ := h
  simp only [Int.gcd_natCast_natCast, ← Int.ofNat_tdiv] at hnum hden
  rw [ofRat, ← hnum, Int.toNat_natCast, ExactRatio.mk.injEq]
  exact ⟨rfl, (Int.natCast_inj.mp hden).symm⟩

/-- Neither part grows. -/
theorem ofRat_div_le (n : Nat) {d : Nat} (hd : d ≠ 0) :
    (ofRat ((n : ℚ) / d)).numerator ≤ n ∧ (ofRat ((n : ℚ) / d)).denominator ≤ d := by
  rw [ofRat_div n hd]
  exact ⟨Nat.div_le_self _ _, Nat.div_le_self _ _⟩

theorem value_ofRat {x : ℚ} (h : 0 ≤ x) :
    ((ofRat x).numerator : ℚ) / (ofRat x).denominator = x := by
  obtain ⟨k, hk⟩ := Int.eq_ofNat_of_zero_le (Rat.num_nonneg.mpr h)
  have hx := Rat.num_div_den x
  rw [hk, Int.cast_natCast] at hx
  rw [ofRat, hk, Int.toNat_natCast]
  exact hx

theorem numerator_ofRat_pos {x : ℚ} (h : 0 < x) : 0 < (ofRat x).numerator := by
  have := Rat.num_pos.mpr h
  change 0 < x.num.toNat
  omega

theorem denominator_ofRat_pos (x : ℚ) : 0 < (ofRat x).denominator := x.den_pos

/-- The parts are ordered as the value is to one. -/
theorem numerator_le_iff {x : ℚ} (h : 0 ≤ x) :
    (ofRat x).numerator ≤ (ofRat x).denominator ↔ x ≤ 1 := by
  have hnum := Rat.num_nonneg.mpr h
  rw [← Rat.num_le_denom_iff]
  change x.num.toNat ≤ x.den ↔ x.num ≤ x.den
  omega

theorem new_eq_ok {n d : Nat} {r : ExactRatio} :
    new n d = .ok r ↔ d ≠ 0 ∧ r = ofRat ((n : ℚ) / d) := by
  simp only [new, Result.bind_eq_ok, Result.require_eq_ok, Result.exists_unit, Result.pure_eq_ok]
  constructor
  · rintro ⟨hd, rfl⟩
    exact ⟨hd, (ofRat_div n hd).symm⟩
  · rintro ⟨hd, rfl⟩
    exact ⟨hd, (ofRat_div n hd).symm⟩

/-- The product of two positive values. -/
theorem new_mul {x y : ℚ} (hx : 0 ≤ x) (hy : 0 ≤ y) :
    new ((ofRat x).numerator * (ofRat y).numerator)
      ((ofRat x).denominator * (ofRat y).denominator) = .ok (ofRat (x * y)) := by
  refine new_eq_ok.mpr ⟨?_, ?_⟩
  · exact (Nat.mul_pos (denominator_ofRat_pos x) (denominator_ofRat_pos y)).ne'
  · rw [Nat.cast_mul, Nat.cast_mul, mul_div_mul_comm, value_ofRat hx, value_ofRat hy]

/-- The quotient of two positive values. -/
theorem new_div {x y : ℚ} (hx : 0 ≤ x) (hy : 0 < y) :
    new ((ofRat x).numerator * (ofRat y).denominator)
      ((ofRat x).denominator * (ofRat y).numerator) = .ok (ofRat (x / y)) := by
  refine new_eq_ok.mpr ⟨?_, ?_⟩
  · exact (Nat.mul_pos (denominator_ofRat_pos x) (numerator_ofRat_pos hy)).ne'
  · conv_lhs => rw [← value_ofRat hx, ← value_ofRat hy.le]
    rw [Nat.cast_mul, Nat.cast_mul, div_div_div_eq]

end ExactRatio

/-! ## Multipliers -/

/-- The oracle takes the patterns the program takes. -/
theorem validateMultiplier_eq_ok {bits : UInt64} {u : Unit} :
    validateMultiplier bits = .ok u ↔ Admissible bits := by
  simp only [validateMultiplier, Result.require_eq_ok, not_or, not_not, UInt64.not_lt,
    UInt64.not_le]
  constructor
  · rintro ⟨-, -, -, hlow, hhigh⟩
    exact admissible_iff_bits.mp ⟨hlow, hhigh⟩
  · intro h
    obtain ⟨f, hf⟩ := exists_decodeMultiplier.mpr h
    simp only [decodeMultiplier, Result.bind_eq_ok, Result.require_eq_ok, Result.exists_unit] at hf
    obtain ⟨hsign, ⟨hzero, hones⟩, hrange, -⟩ := hf
    exact ⟨hsign, hzero, hones, hrange⟩

theorem trailingZeros_dvd (bits n : Nat) : 2 ^ trailingZeros bits n ∣ n := by
  induction bits generalizing n with
  | zero => exact one_dvd n
  | succ bits ih =>
    rw [trailingZeros]
    split
    · exact one_dvd n
    · rename_i hodd
      have hn : n = 2 * (n / 2) := by omega
      rw [pow_succ', hn, Nat.mul_div_cancel_left _ Nat.two_pos]
      exact Nat.mul_dvd_mul_left 2 (ih (n / 2))

/-- Shifting a number down by its trailing zeros loses nothing. -/
theorem shiftRight_trailingZeros (bits n : Nat) :
    (n >>> trailingZeros bits n) * 2 ^ trailingZeros bits n = n := by
  rw [Nat.shiftRight_eq_div_pow]
  exact Nat.div_mul_cancel (trailingZeros_dvd bits n)

/-- A pattern decodes to its exact value. -/
theorem fromF64Bits_eq_ok {bits : UInt64} {r : ExactRatio} :
    fromF64Bits bits = .ok r ↔ Admissible bits ∧ r = ofRat (value bits) := by
  -- Powers of two leave the significand first, so the fraction is in lowest terms.
  have hvalue : Admissible bits → (if 0 ≤ ((exponentField bits : Int) - 1023 - 52) +
        (trailingZeros 64 (significand bits) : Nat)
      then new ((significand bits >>> trailingZeros 64 (significand bits)) <<<
        (((exponentField bits : Int) - 1023 - 52) +
          (trailingZeros 64 (significand bits) : Nat)).toNat) 1
      else new (significand bits >>> trailingZeros 64 (significand bits))
        (1 <<< (-(((exponentField bits : Int) - 1023 - 52) +
          (trailingZeros 64 (significand bits) : Nat))).toNat)) = .ok (ofRat (value bits)) := by
    intro h
    have hparts := shiftRight_trailingZeros 64 (significand bits)
    generalize trailingZeros 64 (significand bits) = t at hparts
    generalize significand bits >>> t = odd at hparts
    have hv : value bits = (odd : ℚ) * 2 ^ ((t : ℤ) + ((exponentField bits : ℤ) - 1075)) := by
      have hsig : ((2 ^ 52 + fractionField bits : ℕ) : ℚ) = (odd : ℚ) * 2 ^ t := by
        exact_mod_cast hparts.symm
      rw [h.positiveNormal.value_eq, hsig, zpow_add₀ two_ne_zero, zpow_natCast, mul_assoc]
    split_ifs with hsign
    · obtain ⟨k, hk⟩ := Int.eq_ofNat_of_zero_le hsign
      refine new_eq_ok.mpr ⟨one_ne_zero, ?_⟩
      rw [hv, hk, show (t : ℤ) + ((exponentField bits : ℤ) - 1075) = k by omega, Int.toNat_natCast,
        Nat.shiftLeft_eq, Nat.cast_one, div_one, zpow_natCast]
      push_cast
      rfl
    · obtain ⟨k, hk⟩ := Int.eq_ofNat_of_zero_le (by omega :
        0 ≤ -((exponentField bits : Int) - 1023 - 52 + (t : Nat)))
      rw [hk, Int.toNat_natCast, Nat.one_shiftLeft]
      refine new_eq_ok.mpr ⟨(Nat.two_pow_pos k).ne', ?_⟩
      rw [hv, show (t : ℤ) + ((exponentField bits : ℤ) - 1075) = -(k : ℤ) by omega, zpow_neg,
        zpow_natCast, Nat.cast_pow, Nat.cast_ofNat, div_eq_mul_inv]
  have hsig : (((1 : UInt64) <<< 52) ||| (bits &&& (((1 : UInt64) <<< 52) - 1))).toNat =
      significand bits := toNat_significand bits
  simp only [fromF64Bits, Result.bind_eq_ok, Result.exists_unit, validateMultiplier_eq_ok,
    toNat_exponentBits, hsig]
  constructor
  · rintro ⟨h, hr⟩
    rw [hvalue h] at hr
    exact ⟨h, (Except.ok.inj hr).symm⟩
  · rintro ⟨h, rfl⟩
    exact ⟨h, hvalue h⟩

/-- The factor of an event is accepted exactly when the program calls the pair qualified, and the
test that it is at most one never fails. -/
theorem factor_eq_ok {m0 m1 : UInt64} {r : ExactRatio} :
    factor m0 m1 = .ok r ↔ Qualified m0 m1 ∧ r = ofRat (value m0 / value m1) := by
  have hle : Qualified m0 m1 → value m0 / value m1 ≤ 1 := by
    intro hq
    rw [div_le_one hq.2.1.positiveNormal.value_pos]
    exact (hq.1.positiveNormal.le_iff_value_le hq.2.1.positiveNormal).mp hq.2.2
  simp only [factor, Result.bind_eq_ok, Result.require_eq_ok, Result.exists_unit,
    Result.pure_eq_ok, validateMultiplier_eq_ok, fromF64Bits_eq_ok, UInt64.not_lt]
  constructor
  · rintro ⟨h0, h1, hm, _, ⟨-, rfl⟩, _, ⟨-, rfl⟩, _, hr, -, rfl⟩
    rw [new_div h0.positiveNormal.value_pos.le h1.positiveNormal.value_pos] at hr
    exact ⟨⟨h0, h1, hm⟩, (Except.ok.inj hr).symm⟩
  · rintro ⟨hq, rfl⟩
    have h0 := hq.1.positiveNormal.value_pos
    have h1 := hq.2.1.positiveNormal.value_pos
    refine ⟨hq.1, hq.2.1, hq.2.2, _, ⟨hq.1, rfl⟩, _, ⟨hq.2.1, rfl⟩, _, new_div h0.le h1, ?_, rfl⟩
    exact not_lt.mpr ((numerator_le_iff (div_pos h0 h1).le).mpr (hle hq))

/-- How a factor is refused. -/
theorem factor_eq_error {m0 m1 : UInt64} {e : OracleError} (h : factor m0 m1 = .error e) :
    e = .invalidMultiplier ∨ e = .decreasingMultiplier := by
  by_cases hq : Qualified m0 m1
  · rw [factor_eq_ok.mpr ⟨hq, rfl⟩] at h
    cases h
  · have hvalid : ∀ {bits : UInt64} {e : OracleError}, validateMultiplier bits = .error e →
        e = .invalidMultiplier := fun he => (Result.require_eq_error.mp he).2.symm
    simp only [factor, Result.bind_eq_error, Result.require_eq_error, Result.require_eq_ok,
      Result.exists_unit, validateMultiplier_eq_ok, UInt64.not_lt] at h
    rcases h with he | ⟨h0, he | ⟨h1, ⟨-, rfl⟩ | ⟨hm, -⟩⟩⟩
    · exact .inl (hvalid he)
    · exact .inl (hvalid he)
    · exact .inr rfl
    · exact absurd ⟨h0, h1, hm⟩ hq

/-! ## The product in lowest terms -/

/-- The number of bits of a part. -/
theorem size_le_iff (n k : Nat) : n.size ≤ k ↔ n < 2 ^ k := Nat.size_le

/-- Within 64 events neither part has more bits than the oracle's own bound says. -/
theorem size_ofRat_le {n d c : Nat} (h : RetentionBound n d c) (hc : c ≤ 64) :
    (ofRat ((n : ℚ) / d)).numerator.size ≤ PROVEN_FACTOR_PRODUCT_BITS ∧
      (ofRat ((n : ℚ) / d)).denominator.size ≤ PROVEN_FACTOR_PRODUCT_BITS := by
  obtain ⟨hnum, hden⟩ := ofRat_div_le n h.denominator_pos.ne'
  rw [PROVEN_FACTOR_PRODUCT_BITS, size_le_iff, size_le_iff]
  exact ⟨(hnum.trans h.le).trans_lt (h.lt hc), hden.trans_lt (h.lt hc)⟩

/-- One turn of the product: the bound on the parts is never met. -/
theorem accumulateEvent_eq {n d c : Nat} (h : RetentionBound n d c) (hc : c < 64)
    {m0 m1 : UInt64} (hq : Qualified m0 m1) :
    accumulateEvent (ofRat ((n : ℚ) / d)) (m0, m1) = .ok (ofRat
      (((n * numeratorFactor m0 m1 : Nat) : ℚ) / (d * denominatorFactor m0 m1 : Nat))) := by
  obtain ⟨hnum, hden⟩ := size_ofRat_le (h.step hq) hc
  have hx : (0 : ℚ) ≤ (n : ℚ) / d := div_nonneg n.cast_nonneg d.cast_nonneg
  have hf := div_pos hq.1.positiveNormal.value_pos hq.2.1.positiveNormal.value_pos
  rw [RetentionBound.ratio_step n d hq] at hnum hden ⊢
  refine Result.bind_eq_ok.mpr ⟨_, factor_eq_ok.mpr ⟨hq, rfl⟩, ?_⟩
  refine Result.bind_eq_ok.mpr ⟨_, new_mul hx hf.le, ?_⟩
  refine Result.bind_eq_ok.mpr ⟨(), Result.require_eq_ok.mpr ?_, rfl⟩
  have hroom : PROVEN_FACTOR_PRODUCT_BITS ≤ MAX_COMPONENT_BITS := by decide
  exact not_or.mpr ⟨not_lt.mpr (hnum.trans hroom), not_lt.mpr (hden.trans hroom)⟩

/-- Refused turns are refused factors. -/
theorem qualified_of_accumulateEvent {r r' : ExactRatio} {e : UInt64 × UInt64}
    (h : accumulateEvent r e = .ok r') : Qualified e.1 e.2 := by
  obtain ⟨f, hf, -⟩ := Result.bind_eq_ok.mp h
  exact (factor_eq_ok.mp hf).1

/-- The product of a list, from any product of fewer events. -/
theorem foldlM_accumulateEvent {events : List (UInt64 × UInt64)} {n d c : Nat}
    (h : RetentionBound n d c) (hc : c + events.length ≤ 64) :
    ((∀ e ∈ events, Qualified e.1 e.2) → ∃ n' d', RetentionBound n' d' (c + events.length) ∧
      events.foldlM accumulateEvent (ofRat ((n : ℚ) / d)) = .ok (ofRat ((n' : ℚ) / d')) ∧
      (n' : ℚ) / d' = (n : ℚ) / d * retention events) ∧
    ∀ e, events.foldlM accumulateEvent (ofRat ((n : ℚ) / d)) = .error e →
      (e = .invalidMultiplier ∨ e = .decreasingMultiplier) ∧ ¬ ∀ e ∈ events, Qualified e.1 e.2 := by
  induction events generalizing n d c with
  | nil =>
    refine ⟨fun _ => ⟨n, d, h, rfl, ?_⟩, fun e he => absurd he (by nofun)⟩
    rw [retention, List.map_nil, List.prod_nil, mul_one]
  | cons event events ih =>
    obtain ⟨m0, m1⟩ := event
    rw [List.length_cons] at hc
    rw [List.foldlM_cons, List.length_cons]
    constructor
    · intro hall
      obtain ⟨hq, htail⟩ := List.forall_mem_cons.mp hall
      obtain ⟨n', d', hbound, hrest, hvalue⟩ := (ih (h.step hq) (by omega)).1 htail
      refine ⟨n', d', ?_, ?_, ?_⟩
      · rwa [Nat.add_assoc, Nat.add_comm 1] at hbound
      · rw [accumulateEvent_eq h (by omega) hq]
        exact hrest
      · rw [hvalue, RetentionBound.ratio_step n d hq, retention, retention, List.map_cons,
          List.prod_cons, mul_assoc]
    · intro e he
      -- The first event that does not qualify is the one that is refused.
      by_cases hq : Qualified m0 m1
      · rw [accumulateEvent_eq h (by omega) hq] at he
        obtain ⟨hkind, hsome⟩ := (ih (h.step hq) (by omega)).2 e he
        exact ⟨hkind, fun hall => hsome (List.forall_mem_cons.mp hall).2⟩
      · refine ⟨?_, fun hall => hq (List.forall_mem_cons.mp hall).1⟩
        rcases Result.bind_eq_error.mp he with herr | ⟨r, hr, -⟩
        · rcases Result.bind_eq_error.mp herr with hf | ⟨f, hf, -⟩
          · exact factor_eq_error hf
          · exact absurd (factor_eq_ok.mp hf).1 hq
        · exact absurd (qualified_of_accumulateEvent hr) hq

theorem one_eq : one = ofRat (((1 : Nat) : ℚ) / (1 : Nat)) := by
  rw [Nat.cast_one, div_one]
  rfl

/-- **The oracle's product**: within 64 events it is accepted exactly when every pair is qualified,
and then it is the retention of the list in lowest terms. -/
theorem accumulate_eq_ok {events : List (UInt64 × UInt64)} (hlen : events.length ≤ 64)
    {r : ExactRatio} :
    accumulate events = .ok r ↔ (∀ e ∈ events, Qualified e.1 e.2) ∧
      r = ofRat (retention events) := by
  obtain ⟨hok, herror⟩ := foldlM_accumulateEvent RetentionBound.start
    (by omega : 0 + events.length ≤ 64)
  rw [← one_eq] at hok herror
  have hvalue : (∀ e ∈ events, Qualified e.1 e.2) →
      accumulate events = .ok (ofRat (retention events)) := by
    intro hall
    obtain ⟨n', d', -, hfold, hv⟩ := hok hall
    rw [Nat.cast_one, div_one, one_mul] at hv
    rw [accumulate, hfold, hv]
  constructor
  · intro h
    have hall : ∀ e ∈ events, Qualified e.1 e.2 := by
      intro e he
      obtain ⟨r, r', hturn⟩ := Result.foldlM_ok_of_mem h he
      exact qualified_of_accumulateEvent hturn
    exact ⟨hall, Except.ok.inj (h.symm.trans (hvalue hall))⟩
  · rintro ⟨hall, rfl⟩
    exact hvalue hall

/-- What the product of a list can be refused for: a pattern out of range, or a decrease. The bound
on the parts, a zero denominator and a ratio above one are never met within 64 events. -/
theorem accumulate_eq_error {events : List (UInt64 × UInt64)} (hlen : events.length ≤ 64)
    {e : OracleError} (h : accumulate events = .error e) :
    e = .invalidMultiplier ∨ e = .decreasingMultiplier := by
  rw [accumulate, one_eq] at h
  exact ((foldlM_accumulateEvent RetentionBound.start (by omega)).2 e h).1

/-- The bits of the two parts of an accepted product. -/
theorem size_of_accumulate {events : List (UInt64 × UInt64)} (hlen : events.length ≤ 64)
    {r : ExactRatio} (h : accumulate events = .ok r) :
    r.numerator.size ≤ PROVEN_FACTOR_PRODUCT_BITS ∧
      r.denominator.size ≤ PROVEN_FACTOR_PRODUCT_BITS := by
  obtain ⟨hall, -⟩ := (accumulate_eq_ok hlen).mp h
  obtain ⟨n, d, hbound, hfold, -⟩ :=
    (foldlM_accumulateEvent RetentionBound.start (by omega : 0 + events.length ≤ 64)).1 hall
  rw [← one_eq] at hfold
  obtain rfl := Except.ok.inj (h.symm.trans hfold)
  exact size_ofRat_le hbound (by omega)

/-! ## The product as it is stored -/

/-- The two products of one turn, shifted by the difference of the exponents. -/
theorem accumulateUnreducedEvent_eq_ok {n d : Nat} {m0 m1 : UInt64} {r : ExactRatio} :
    accumulateUnreducedEvent ⟨n, d⟩ (m0, m1) = .ok r ↔ Qualified m0 m1 ∧
      n * numeratorFactor m0 m1 < 256 ^ 1024 ∧ d * denominatorFactor m0 m1 < 256 ^ 1024 ∧
      r = ⟨n * numeratorFactor m0 m1, d * denominatorFactor m0 m1⟩ := by
  have hparts : Qualified m0 m1 →
      (if 0 ≤ (rawBinaryParts m0).2 - (rawBinaryParts m1).2
        then (n * (rawBinaryParts m0).1.toNat) <<<
          ((rawBinaryParts m0).2 - (rawBinaryParts m1).2).toNat
        else n * (rawBinaryParts m0).1.toNat) = n * numeratorFactor m0 m1 ∧
      (if 0 ≤ (rawBinaryParts m0).2 - (rawBinaryParts m1).2
        then d * (rawBinaryParts m1).1.toNat
        else (d * (rawBinaryParts m1).1.toNat) <<<
          (-((rawBinaryParts m0).2 - (rawBinaryParts m1).2)).toNat) =
        d * denominatorFactor m0 m1 := by
    intro hq
    -- the parts are the ones the program decodes
    have hdecode : ∀ {bits : UInt64}, Admissible bits →
        decodeMultiplier bits = .ok ⟨(rawBinaryParts bits).1, (rawBinaryParts bits).2⟩ := by
      intro bits h
      refine decodeMultiplier_eq_ok.mpr ⟨h, toNat_significand bits, ?_⟩
      change ((bits >>> 52 &&& 0x7ff).toNat : Int) - 1023 - 52 = _
      rw [toNat_exponentBits]
      omega
    exact scaled_eq (hdecode hq.1) (hdecode hq.2.1) n d
  have hsize : ∀ k : Nat, ¬ MAX_COMPONENT_BITS < k.size ↔ k < 256 ^ 1024 := by
    intro k
    rw [not_lt, size_le_iff, MAX_COMPONENT_BITS, RetentionBound.bytes_eq]
  simp only [accumulateUnreducedEvent, Result.bind_eq_ok, Result.require_eq_ok,
    Result.exists_unit, Result.pure_eq_ok, validateMultiplier_eq_ok, UInt64.not_lt, not_or, hsize]
  constructor
  · rintro ⟨h0, h1, hle, ⟨hn, hd⟩, rfl⟩
    obtain ⟨hnum, hden⟩ := hparts ⟨h0, h1, hle⟩
    rw [hnum] at hn ⊢
    rw [hden] at hd ⊢
    exact ⟨⟨h0, h1, hle⟩, hn, hd, rfl⟩
  · rintro ⟨hq, hn, hd, rfl⟩
    obtain ⟨hnum, hden⟩ := hparts hq
    rw [hnum, hden]
    exact ⟨hq.1, hq.2.1, hq.2.2, ⟨hn, hd⟩, rfl⟩

/-- One turn in numbers is one turn in bytes. -/
theorem accumulateUnreducedEvent_iff {n d n' d' : Nat} (hn : n ≠ 0) (hd : d ≠ 0)
    (hnb : n < 256 ^ 1024) (hdb : d < 256 ^ 1024) {m0 m1 : UInt64} :
    accumulateUnreducedEvent ⟨n, d⟩ (m0, m1) = .ok ⟨n', d'⟩ ↔
      multiplyRatio (toBytes n) (toBytes d) m0 m1 = .ok (toBytes n', toBytes d') := by
  have hinj : ∀ {a b : Nat}, toBytes a = toBytes b ↔ a = b := by
    intro a b
    refine ⟨fun h => ?_, congrArg toBytes⟩
    have := congrArg ofBytes h
    rwa [ofBytes_toBytes, ofBytes_toBytes] at this
  rw [accumulateUnreducedEvent_eq_ok, multiplyRatio_eq_ok, ofBytes_toBytes, ofBytes_toBytes,
    length_toBytes_le_iff (by norm_num), length_toBytes_le_iff (by norm_num), ExactRatio.mk.injEq,
    hinj, hinj]
  constructor
  · rintro ⟨hq, hnum, hden, rfl, rfl⟩
    exact ⟨hnb, hdb, hq, hn, hd, hnum, hden, rfl, rfl⟩
  · rintro ⟨-, -, hq, -, -, hnum, hden, rfl, rfl⟩
    exact ⟨hq, hnum, hden, rfl, rfl⟩

/-- What a turn leaves is positive and fits again. -/
theorem fits_of_accumulateUnreducedEvent {n d n' d' : Nat} (hn : n ≠ 0) (hd : d ≠ 0)
    {e : UInt64 × UInt64} (h : accumulateUnreducedEvent ⟨n, d⟩ e = .ok ⟨n', d'⟩) :
    n' ≠ 0 ∧ d' ≠ 0 ∧ n' < 256 ^ 1024 ∧ d' < 256 ^ 1024 := by
  obtain ⟨m0, m1⟩ := e
  obtain ⟨-, hnum, hden, hr⟩ := accumulateUnreducedEvent_eq_ok.mp h
  obtain ⟨rfl, rfl⟩ := ExactRatio.mk.inj hr
  exact ⟨Nat.mul_ne_zero hn (numeratorFactor_pos m0 m1).ne',
    Nat.mul_ne_zero hd (denominatorFactor_pos m0 m1).ne', hnum, hden⟩

theorem foldlM_accumulateUnreducedEvent {events : List (UInt64 × UInt64)} {n d n' d' : Nat}
    (hn : n ≠ 0) (hd : d ≠ 0) (hnb : n < 256 ^ 1024) (hdb : d < 256 ^ 1024) :
    events.foldlM accumulateUnreducedEvent ⟨n, d⟩ = .ok ⟨n', d'⟩ ↔
      events.foldlM (fun ratio e => multiplyRatio ratio.1 ratio.2 e.1 e.2) (toBytes n, toBytes d) =
        .ok (toBytes n', toBytes d') := by
  induction events generalizing n d with
  | nil =>
    simp only [List.foldlM_nil, Result.pure_eq_ok, ExactRatio.mk.injEq, Prod.mk.injEq]
    refine ⟨fun h => ⟨congrArg toBytes h.1, congrArg toBytes h.2⟩, fun h => ?_⟩
    have hn' := congrArg ofBytes h.1
    have hd' := congrArg ofBytes h.2
    simp only [ofBytes_toBytes] at hn' hd'
    exact ⟨hn', hd'⟩
  | cons e events ih =>
    obtain ⟨m0, m1⟩ := e
    rw [List.foldlM_cons, List.foldlM_cons, Result.bind_eq_ok, Result.bind_eq_ok]
    constructor
    · rintro ⟨⟨n₁, d₁⟩, hturn, hrest⟩
      obtain ⟨hn₁, hd₁, hnb₁, hdb₁⟩ := fits_of_accumulateUnreducedEvent hn hd hturn
      exact ⟨_, (accumulateUnreducedEvent_iff hn hd hnb hdb).mp hturn,
        (ih hn₁ hd₁ hnb₁ hdb₁).mp hrest⟩
    · rintro ⟨⟨bn, bd⟩, hturn, hrest⟩
      obtain ⟨-, -, -, -, -, -, -, rfl, rfl⟩ := multiplyRatio_eq_ok.mp hturn
      have hturn' := (accumulateUnreducedEvent_iff hn hd hnb hdb).mpr hturn
      obtain ⟨hn₁, hd₁, hnb₁, hdb₁⟩ := fits_of_accumulateUnreducedEvent hn hd hturn'
      exact ⟨_, hturn', (ih hn₁ hd₁ hnb₁ hdb₁).mpr hrest⟩

/-- **The unreduced product is what the program stores**, for lists of any length: the oracle
refuses the lists the program refuses, and otherwise the stored bytes are its two parts. -/
theorem accumulateUnreduced_eq_ok {events : List (UInt64 × UInt64)} {n d : Nat} :
    accumulateUnreduced events = .ok ⟨n, d⟩ ↔
      retainedRatio events = .ok (toBytes n, toBytes d) := by
  have hone := RetentionBound.start.fits (Nat.zero_le 64)
  exact foldlM_accumulateUnreducedEvent one_ne_zero one_ne_zero hone hone

/-- The two products of a list. -/
def partsOf (events : List (UInt64 × UInt64)) : ExactRatio :=
  ⟨(events.map fun e => numeratorFactor e.1 e.2).prod,
    (events.map fun e => denominatorFactor e.1 e.2).prod⟩

/-- Within 64 qualified events the unreduced product is the two products of the factors. -/
theorem foldlM_accumulateUnreducedEvent_eq {events : List (UInt64 × UInt64)} {n d c : Nat}
    (h : RetentionBound n d c) (hc : c + events.length ≤ 64)
    (hall : ∀ e ∈ events, Qualified e.1 e.2) :
    events.foldlM accumulateUnreducedEvent ⟨n, d⟩ =
      .ok ⟨n * (partsOf events).numerator, d * (partsOf events).denominator⟩ := by
  induction events generalizing n d c with
  | nil =>
    change Except.ok _ = Except.ok _
    rw [partsOf, List.map_nil, List.map_nil, List.prod_nil, Nat.mul_one, Nat.mul_one]
  | cons e events ih =>
    obtain ⟨m0, m1⟩ := e
    obtain ⟨hq, htail⟩ := List.forall_mem_cons.mp hall
    rw [List.length_cons] at hc
    have hnext := h.step hq
    have hturn := accumulateUnreducedEvent_eq_ok.mpr
      ⟨hq, hnext.le.trans_lt (hnext.fits (by omega)), hnext.fits (by omega), rfl⟩
    rw [List.foldlM_cons, hturn]
    refine (ih hnext (by omega) htail).trans ?_
    rw [partsOf, partsOf]
    simp only [List.map_cons, List.prod_cons, Nat.mul_assoc]

theorem accumulateUnreduced_eq {events : List (UInt64 × UInt64)} (hlen : events.length ≤ 64)
    (hall : ∀ e ∈ events, Qualified e.1 e.2) :
    accumulateUnreduced events = .ok (partsOf events) := by
  have h := foldlM_accumulateUnreducedEvent_eq RetentionBound.start (by omega) hall
  rwa [Nat.one_mul, Nat.one_mul] at h

/-! ## Pools and payouts -/

/-- The pools of a ratio depend on its value only. -/
theorem pools_eq_ok {q : UInt64} {r : ExactRatio} (hd : r.denominator ≠ 0) {p : Pools} :
    pools q r = .ok p ↔ r.numerator ≤ r.denominator ∧
      p = ⟨q.toNat - ⌊(q.toNat : ℚ) * (1 - (r.numerator : ℚ) / r.denominator)⌋₊,
        ⌊(q.toNat : ℚ) * (1 - (r.numerator : ℚ) / r.denominator)⌋₊⟩ := by
  simp only [pools, Result.bind_eq_ok, Result.require_eq_ok, Result.exists_unit,
    Result.pure_eq_ok, not_lt]
  refine and_congr_right fun hle => ?_
  rw [floor_lost_share q.toNat hd hle]
  exact eq_comm

/-- The pools of a retention between zero and one. -/
theorem pools_ofRat (q : UInt64) {x : ℚ} (hx : 0 ≤ x) (hx1 : x ≤ 1) :
    pools q (ofRat x) =
      .ok ⟨q.toNat - ⌊(q.toNat : ℚ) * (1 - x)⌋₊, ⌊(q.toNat : ℚ) * (1 - x)⌋₊⟩ := by
  refine (pools_eq_ok (denominator_ofRat_pos x).ne').mpr ⟨(numerator_le_iff hx).mpr hx1, ?_⟩
  rw [value_ofRat hx]

/-- `pools` of a running product. -/
def poolsOf (product : Verdict ExactRatio) (quantity : UInt64) : Verdict Pools := do
  let ratio ← product
  pools quantity ratio

/-- The program's pools, as the oracle writes them. -/
def expected (program : Outcome (UInt64 × UInt64)) : Option Pools :=
  program.toOption.map fun p => ⟨p.1.toNat, p.2.toNat⟩

theorem expected_eq_some {program : Outcome (UInt64 × UInt64)} {p : Pools} :
    expected program = some p ↔ ∃ pt dr, program = .ok (pt, dr) ∧ p = ⟨pt.toNat, dr.toNat⟩ := by
  rw [expected, Option.map_eq_some_iff]
  simp only [Result.toOption_eq_some, Prod.exists]
  refine exists_congr fun pt => exists_congr fun dr => and_congr_right fun _ => ?_
  exact eq_comm

theorem poolsOf_accumulate {events : List (UInt64 × UInt64)} (hlen : events.length ≤ 64)
    (q : UInt64) :
    (poolsOf (accumulate events) q).toOption = expected (retainedPools events q) := by
  ext p
  rw [Result.toOption_eq_some, expected_eq_some, poolsOf, Result.bind_eq_ok]
  simp only [accumulate_eq_ok hlen]
  constructor
  · rintro ⟨_, ⟨hall, rfl⟩, hp⟩
    obtain ⟨h0, h1⟩ := Sdk.retention_mem hall
    obtain ⟨pt, dr, hok⟩ := exists_retainedPools hlen hall q
    obtain ⟨-, hdr, hsum⟩ := retainedPools_floor hlen hok
    rw [pools_ofRat q h0 h1, ← hdr] at hp
    refine ⟨pt, dr, hok, (Except.ok.inj hp).symm.trans ?_⟩
    rw [hsum, Nat.add_sub_cancel]
  · rintro ⟨pt, dr, hok, rfl⟩
    obtain ⟨hall, hdr, hsum⟩ := retainedPools_floor hlen hok
    obtain ⟨h0, h1⟩ := Sdk.retention_mem hall
    refine ⟨_, ⟨hall, rfl⟩, ?_⟩
    rw [pools_ofRat q h0 h1, ← hdr, hsum, Nat.add_sub_cancel]

/-- The two products of the oracle have the same value. -/
theorem accumulateUnreduced_value {events : List (UInt64 × UInt64)} (hlen : events.length ≤ 64)
    (hall : ∀ e ∈ events, Qualified e.1 e.2) :
    ∃ n d : Nat, accumulateUnreduced events = .ok ⟨n, d⟩ ∧ d ≠ 0 ∧ n ≤ d ∧
      (n : ℚ) / d = retention events := by
  obtain ⟨n, d, hbound, hok, hvalue⟩ :=
    (@foldlM_multiplyRatio events 1 1 0 RetentionBound.start (by omega)).2 hall
  rw [Nat.cast_one, div_one, one_mul] at hvalue
  exact ⟨n, d, accumulateUnreduced_eq_ok.mpr hok, hbound.denominator_pos.ne', hbound.le, hvalue⟩

theorem poolsOf_accumulateUnreduced {events : List (UInt64 × UInt64)} (hlen : events.length ≤ 64)
    (q : UInt64) :
    (poolsOf (accumulateUnreduced events) q).toOption =
      (poolsOf (accumulate events) q).toOption := by
  by_cases hall : ∀ e ∈ events, Qualified e.1 e.2
  · obtain ⟨n, d, hok, hd, hle, hvalue⟩ := accumulateUnreduced_value hlen hall
    obtain ⟨h0, h1⟩ := Sdk.retention_mem hall
    have hreduced := (accumulate_eq_ok hlen).mpr ⟨hall, rfl⟩
    rw [poolsOf, poolsOf, hok, hreduced]
    change (pools q ⟨n, d⟩).toOption = (pools q (ofRat _)).toOption
    have hunreduced := (@pools_eq_ok q ⟨n, d⟩ hd _).mpr ⟨hle, rfl⟩
    rw [pools_ofRat q h0 h1, hunreduced]
    dsimp only
    rw [hvalue]
  · have hrefused : ∀ {p : Pools}, poolsOf (accumulate events) q ≠ .ok p := by
      intro p hp
      obtain ⟨r, hr, -⟩ := Result.bind_eq_ok.mp hp
      exact hall ((accumulate_eq_ok hlen).mp hr).1
    have hrefused' : ∀ {p : Pools}, poolsOf (accumulateUnreduced events) q ≠ .ok p := by
      intro p hp
      obtain ⟨⟨n, d⟩, hr, -⟩ := Result.bind_eq_ok.mp hp
      have hstored := accumulateUnreduced_eq_ok.mp hr
      exact hall ((@foldlM_multiplyRatio events 1 1 0 RetentionBound.start (by omega)).1
        ⟨_, hstored⟩)
    ext p
    rw [Result.toOption_eq_some, Result.toOption_eq_some]
    exact iff_of_false hrefused' hrefused

/-- **The oracle's arithmetic is the program's.** For at most 64 events: the oracle accepts the
lists the program accepts and refuses the others for a pattern out of range or a decrease only; its
product is in lowest terms, has the value of the stored fraction and stays within the bits the
oracle calls proven; both products give the program's pools for every quantity; and no order of the
events changes anything. -/
theorem oracle_agrees (events : List (UInt64 × UInt64)) (hlen : events.length ≤ 64) :
    ((∃ r, accumulate events = .ok r) ↔ ∃ ratio, retainedRatio events = .ok ratio) ∧
      (∀ r ratio, accumulate events = .ok r → retainedRatio events = .ok ratio →
        r.numerator * ofBytes ratio.2 = ofBytes ratio.1 * r.denominator ∧
          r.numerator.Coprime r.denominator ∧
          r.numerator.size ≤ PROVEN_FACTOR_PRODUCT_BITS ∧
          r.denominator.size ≤ PROVEN_FACTOR_PRODUCT_BITS) ∧
      (∀ e, accumulate events = .error e → e = .invalidMultiplier ∨ e = .decreasingMultiplier) ∧
      (∀ q, (poolsOf (accumulate events) q).toOption = expected (retainedPools events q) ∧
        (poolsOf (accumulateUnreduced events) q).toOption = expected (retainedPools events q)) ∧
      ∀ events' : List (UInt64 × UInt64), events'.Perm events →
        (accumulate events').toOption = (accumulate events).toOption := by
  obtain ⟨hqualified, hratio⟩ :=
    @foldlM_multiplyRatio events 1 1 0 RetentionBound.start (by omega)
  refine ⟨⟨?_, ?_⟩, ?_, fun e => accumulate_eq_error hlen, ?_, ?_⟩
  · rintro ⟨r, hr⟩
    obtain ⟨n, d, -, hok, -⟩ := hratio ((accumulate_eq_ok hlen).mp hr).1
    exact ⟨_, hok⟩
  · rintro ⟨ratio, hok⟩
    exact ⟨_, (accumulate_eq_ok hlen).mpr ⟨hqualified ⟨ratio, hok⟩, rfl⟩⟩
  · intro r ratio hr hok
    obtain ⟨hall, hvalue⟩ := (accumulate_eq_ok hlen).mp hr
    obtain ⟨n, d, hbound, hok', hsame⟩ := hratio hall
    obtain rfl : (toBytes n, toBytes d) = ratio := Except.ok.inj (hok'.symm.trans hok)
    rw [Nat.cast_one, div_one, one_mul] at hsame
    refine ⟨?_, ?_, size_of_accumulate hlen hr⟩
    · -- equal values are equal cross products
      have hd : (d : ℚ) ≠ 0 := by exact_mod_cast hbound.denominator_pos.ne'
      have hden : (r.denominator : ℚ) ≠ 0 := by
        rw [hvalue]
        exact_mod_cast (denominator_ofRat_pos _).ne'
      have hcross : (r.numerator : ℚ) / r.denominator = (n : ℚ) / d := by
        rw [hvalue, value_ofRat (Sdk.retention_mem hall).1, hsame]
      rw [div_eq_div_iff hden hd] at hcross
      rw [ofBytes_toBytes, ofBytes_toBytes]
      exact_mod_cast hcross
    · obtain ⟨k, hk⟩ := Int.eq_ofNat_of_zero_le (Rat.num_nonneg.mpr (Sdk.retention_mem hall).1)
      have hreduced := (retention events).reduced
      rw [hk] at hreduced
      rw [hvalue, ofRat, hk]
      exact hreduced
  · intro q
    refine ⟨poolsOf_accumulate hlen q, ?_⟩
    rw [poolsOf_accumulateUnreduced hlen q]
    exact poolsOf_accumulate hlen q
  · intro events' hperm
    ext r
    rw [Result.toOption_eq_some, Result.toOption_eq_some,
      accumulate_eq_ok (hperm.length_eq.trans_le hlen), accumulate_eq_ok hlen,
      Sdk.qualified_perm hperm, Sdk.retention_perm hperm]

/-- Two events that halve a unit. -/
theorem oracle_agrees_sample :
    (poolsOf (accumulate [(0x3FF4000000000000, 0x4000000000000000),
      (0x3FF0000000000000, 0x3FF4000000000000)]) 1001).toOption = some ⟨501, 500⟩ := by
  obtain ⟨-, -, -, hpools, -⟩ := oracle_agrees
    [(0x3FF4000000000000, 0x4000000000000000), (0x3FF0000000000000, 0x3FF4000000000000)]
    (by decide)
  rw [(hpools 1001).1]
  decide +kernel

/-- **A payout inside the supply** is the program's. Beyond it the program refuses, the oracle may
still answer. -/
theorem cumulativePayout_eq_ok {before amount pool supply payout : UInt64} (hs : supply ≠ 0)
    (hle : before.toNat + amount.toNat ≤ supply.toNat) :
    cumulativePayout before amount pool supply = .ok payout ↔
      redemptionPayout before amount pool supply = .ok payout := by
  have hsup := supply.toNat_lt
  have hpool := pool.toNat_lt
  have hbefore : before.toNat * pool.toNat < 2 ^ 128 := word_mul_lt before pool
  have hafter : (before.toNat + amount.toNat) * pool.toNat < 2 ^ 128 :=
    calc (before.toNat + amount.toNat) * pool.toNat
        ≤ supply.toNat * pool.toNat := Nat.mul_le_mul_right _ hle
      _ < 2 ^ 128 := word_mul_lt supply pool
  have htotal : before.toNat + amount.toNat < 2 ^ 128 := by omega
  have hbound : cumulative (before.toNat + amount.toNat) pool.toNat supply.toNat -
      cumulative before.toNat pool.toNat supply.toNat < 2 ^ 64 :=
    ((Nat.sub_le _ _).trans (cumulative_le hle pool.toNat)).trans_lt hpool
  rw [redemptionPayout_eq_ok hs, and_iff_right hle]
  simp only [cumulativePayout, checkedU128, Result.bind_eq_ok, Result.require_eq_ok,
    Result.exists_unit, Result.pure_eq_ok, Result.okOr_eq_ok, if_pos hbefore, if_pos htotal,
    Option.bind_eq_bind, Option.bind_some, if_pos hafter, Option.some.injEq]
  constructor
  · rintro ⟨-, _, rfl, _, rfl, hlt, rfl⟩
    exact UInt64.toNat_ofNat_of_lt hlt
  · intro hp
    refine ⟨hs, _, rfl, _, rfl, hbound, ?_⟩
    change UInt64.ofNat (cumulative _ _ _ - cumulative _ _ _) = payout
    rw [← hp]
    exact UInt64.ofNat_toNat

/-! ## The two calendars -/

theorem yearDays_eq (y : Nat) : (yearDays y : Int) =
    if y % 4 = 0 ∧ (y % 100 ≠ 0 ∨ y % 400 = 0) then 366 else 365 := by
  rw [yearDays]
  simp only [Bool.and_eq_true, Bool.or_eq_true, beq_iff_eq, bne_iff_ne]
  split <;> rfl

/-- The years from 1970 on add up to the day number of the first of January. -/
theorem foldl_yearDays (years : Nat) :
    (((List.range' 1970 years).foldl (fun days candidate => days + yearDays candidate) 0 : Nat) :
      Int) = unixDays (1970 + years : Nat) 1 1 := by
  induction years with
  | zero => decide
  | succ years ih =>
    rw [List.range'_concat, List.foldl_append, List.foldl_cons, List.foldl_nil, Nat.cast_add, ih,
      yearDays_eq, unixDays_january (by omega), unixDays_january (by omega)]
    split <;> omega

/-- The oracle's first of January is the program's, for every year it knows. -/
theorem jan1UnixTimestamp_eq_ok {year : UInt16} {t : Int64} :
    jan1UnixTimestamp year = .ok t ↔ (2020 ≤ year.toNat ∧ year.toNat ≤ 2101) ∧
      t.toInt = unixDays year.toNat 1 1 * 86400 := by
  have hyear : (2020 ≤ year ∧ year ≤ 2101) ↔ 2020 ≤ year.toNat ∧ year.toNat ≤ 2101 :=
    and_congr UInt16.le_iff_toNat_le UInt16.le_iff_toNat_le
  simp only [jan1UnixTimestamp, Result.bind_eq_ok, Result.require_eq_ok, Result.exists_unit,
    Result.okOr_eq_ok, foldl_yearDays, hyear]
  refine and_congr_right fun hrange => ?_
  rw [show 1970 + (year.toNat - 1970) = year.toNat by omega]
  have hjan := @unixDays_january year.toNat (by omega)
  rw [checkedMulI64, if_pos (by omega), Option.some.injEq]
  constructor
  · rintro rfl
    exact Int64.toInt_ofInt_of_le (by omega) (by omega)
  · intro ht
    rw [← ht]
    exact Int64.ofInt_toInt t

/-- The table of month lengths. -/
theorem monthDays_getD (leap : Bool) {m : Nat} (h : 1 ≤ m ∧ m ≤ 12) :
    ((monthDays leap).getD (m - 1) 0).toNat = Devnet.Instant.lastDay leap m := by
  have hall : ∀ m < 13, 1 ≤ m →
      ((monthDays leap).getD (m - 1) 0).toNat = Devnet.Instant.lastDay leap m := by
    cases leap <;> decide
  exact hall m (by omega) h.1

/-- **The oracle's dates are the program's**, up to the year 2100. -/
theorem validCivilDate_eq_ok {date : UInt32} {u : Unit} :
    validCivilDate date = .ok u ↔
      (∃ ymd, parseCivilDate date = .ok ymd) ∧ date.toNat / 10000 ≤ 2100 := by
  have hyear : (date / 10000).toNat = date.toNat / 10000 := UInt32.toNat_div _ _
  have hmonth : (date / 100 % 100).toNat = date.toNat / 100 % 100 := by
    rw [UInt32.toNat_mod, UInt32.toNat_div]
    rfl
  have hday : (date % 100).toNat = date.toNat % 100 := UInt32.toNat_mod _ _
  -- The leap years of the two are the same, in words and in integers.
  have hleap : (date / 10000 % 4 == 0 && (date / 10000 % 100 != 0 || date / 10000 % 400 == 0)) =
      Devnet.Instant.inLeapYear (date.toNat / 10000 : Nat) := by
    have hmod : ∀ k : UInt32, date / 10000 % k = 0 ↔
        ((date.toNat / 10000 : Nat) : Int) % k.toNat = 0 := by
      intro k
      rw [← UInt32.toNat_inj, UInt32.toNat_mod, hyear]
      norm_cast
    rw [Bool.eq_iff_iff]
    simp only [Devnet.Instant.inLeapYear, Bool.and_eq_true, Bool.or_eq_true, beq_iff_eq, bne_iff_ne,
      ne_eq, decide_eq_true_eq, hmod]
    rfl
  have hzero : date ≠ 0 ↔ date.toNat ≠ 0 := not_congr UInt32.toNat_inj.symm
  have hlast : 1 ≤ date.toNat / 100 % 100 ∧ date.toNat / 100 % 100 ≤ 12 →
      ((monthDays (Devnet.Instant.inLeapYear (date.toNat / 10000 : Nat))).getD
        (date / 100 % 100 - 1).toNat 0).toNat =
      Devnet.Instant.lastDay (Devnet.Instant.inLeapYear (date.toNat / 10000 : Nat))
        (date.toNat / 100 % 100) := by
    intro hm
    rw [UInt32.toNat_sub_of_le _ _ (UInt32.le_iff_toNat_le.mpr (by rw [hmonth]; exact hm.1)),
      hmonth]
    exact monthDays_getD _ hm
  simp only [validCivilDate, Result.bind_eq_ok, Result.require_eq_ok, Result.exists_unit, hleap,
    not_or, UInt32.not_lt, UInt32.le_iff_toNat_le, hyear, hmonth, hzero, ← UInt32.toNat_inj, hday,
    Sdk.parseCivilDate_iff]
  constructor
  · rintro ⟨-, ⟨hy, hm⟩, hpos, hle⟩
    rw [hlast hm] at hle
    exact ⟨⟨⟨hy.1, hy.2.trans (by decide)⟩, hm, Nat.pos_of_ne_zero hpos, hle⟩, hy.2⟩
  · rintro ⟨⟨hy, hm, hpos, hle⟩, hlimit⟩
    rw [← hlast hm] at hle
    refine ⟨?_, ⟨⟨hy.1, hlimit⟩, hm⟩, Nat.pos_iff_ne_zero.mp hpos, hle⟩
    have hlow := hy.1
    omega

/-- **One calendar for both**: the oracle accepts the dates the program accepts up to 2100, and the
bounds of every admitted year are its two first days of January. -/
theorem oracle_calendar (date : UInt32) (year : UInt16) :
    (validCivilDate date = .ok () ↔
      (∃ ymd, parseCivilDate date = .ok ymd) ∧ date.toNat / 10000 ≤ 2100) ∧
    ∀ start maturity, yearBounds year = .ok (start, maturity) ↔
      year.toNat ≤ 2100 ∧ jan1UnixTimestamp year = .ok start ∧
        jan1UnixTimestamp (year + 1) = .ok maturity := by
  refine ⟨validCivilDate_eq_ok, fun start maturity => ?_⟩
  have hnext : year.toNat ≤ 2100 → (year + 1).toNat = year.toNat + 1 := by
    intro hle
    rw [UInt16.toNat_add]
    change (year.toNat + 1) % 2 ^ 16 = _
    omega
  constructor
  · intro h
    obtain ⟨hlow, hhigh, hstart, hmaturity⟩ := yearBounds_eq_ok h
    refine ⟨hhigh, jan1UnixTimestamp_eq_ok.mpr ⟨⟨hlow, by omega⟩, hstart⟩, ?_⟩
    refine jan1UnixTimestamp_eq_ok.mpr ⟨?_, ?_⟩
    · rw [hnext hhigh]
      omega
    · rw [hnext hhigh, hmaturity]
      rfl
  · rintro ⟨hhigh, hstart, hmaturity⟩
    obtain ⟨hrange, hs⟩ := jan1UnixTimestamp_eq_ok.mp hstart
    obtain ⟨-, hm⟩ := jan1UnixTimestamp_eq_ok.mp hmaturity
    rw [hnext hhigh] at hm
    have hjan := @unixDays_january year.toNat (by omega)
    have hjan' := @unixDays_january (year.toNat + 1) (by omega)
    push_cast at hjan hjan' hm
    -- both products lie inside the word, so the program computes the same bounds
    have hinside : ∀ (days : Int) (t : Int64), t.toInt = days * 86400 → 0 ≤ days → days < 100000 →
        checkedMulI64 days 86400 = some t := by
      intro days t ht hlow hhigh
      rw [checkedMulI64, if_pos (by omega), ← ht, Int64.ofInt_toInt]
    simp only [yearBounds, Result.bind_eq_ok, Result.require_eq_ok, Result.exists_unit,
      Result.okOr_eq_ok, Result.pure_eq_ok, Prod.mk.injEq]
    exact ⟨⟨UInt16.le_iff_toNat_le.mpr hrange.1, UInt16.le_iff_toNat_le.mpr hhigh⟩, start,
      hinside _ _ hs (by omega) (by omega), maturity, hinside _ _ hm (by omega) (by omega),
      rfl, rfl⟩

end Oracle

end DividendX
