import DividendX.Sdk.AnnualReference
import DividendX.Lib.Result

/-!
# Amounts of the demo

`index.ts` of the accounting SDK, up to `allocate`: decimal texts become raw amounts through a
factor, and a raw amount is split between principal and dividend by the two factors of an event. A
`bigint` is an integer, and so is a JavaScript number that a check lets pass.
-/

namespace DividendX

namespace Demo

open AnnualReference (textLength decimalParts ofDigits)

/-! ## Errors -/

/-- `DemoErrorCode`. -/
inductive DemoErrorCode
  | invalidAmount
  | missingAsset
  | missingEvent
  | invalidFixture
  | insufficientBalance
  | staleData
  | pausedCollateral
  | rejectedEvent
  | depositsClosed
  | wrongPhase
  | staleQuote
  | expiredQuote
  | missingQuote
  | userRejected
  | zeroPayout
  | alreadySettled
deriving DecidableEq, Repr

/-- What a call may throw: a `DemoError`, or an error of the language. -/
inductive Failure
  | demoError (code : DemoErrorCode) (message : String)
  | rangeError
  | typeError
deriving DecidableEq, Repr

/-- Computations that may throw. -/
abbrev Thrown (α : Type) := Except Failure α

/-- `if (!condition) fail(code, message)`. -/
def demand (condition : Prop) [Decidable condition] (code : DemoErrorCode) (message : String) :
    Thrown Unit :=
  Result.require condition (.demoError code message)

@[simp] theorem demand_eq_ok {p : Prop} [Decidable p] {c : DemoErrorCode} {m : String} {u : Unit} :
    demand p c m = .ok u ↔ p :=
  Result.require_eq_ok

/-! ## Checked numbers -/

def U64_MAX : Int := 18_446_744_073_709_551_615
def FACTOR_MAX_LENGTH : Nat := 64
def QUOTE_TTL_MS : Int := 60_000

/-- `left / right` of two `bigint`s. -/
def quotient (left right : Int) : Thrown Int :=
  if right = 0 then .error .rangeError else .ok (left.tdiv right)

/-- `pow10`. -/
def pow10 (exponent : Int) : Thrown Int := do
  demand (¬ (exponent < 0 ∨ 36 < exponent)) .invalidAmount
    ("Invalid decimal precision: " ++ toString exponent)
  return 10 ^ exponent.toNat

/-- `assertRaw`. -/
def assertRaw (value : Int) (allowZero : Bool := true) : Thrown Unit :=
  demand (¬ (value < 0 ∨ (allowZero = false ∧ value = 0) ∨ U64_MAX < value)) .invalidAmount
    "Raw amount must be an unsigned u64 value"

/-- `parseDecimal`. -/
def parseDecimal (value : String) : Thrown Fraction := do
  let message := "Amount must be an unsigned plain decimal string"
  demand (textLength value ≠ 0 ∧ textLength value ≤ FACTOR_MAX_LENGTH) .invalidAmount message
  let (whole, fraction) ←
    Result.okOr (decimalParts value.toList) (.demoError .invalidAmount message)
  demand (¬ 18 < fraction.length) .invalidAmount "Decimal precision exceeds 18 places"
  let denominator ← pow10 fraction.length
  return ⟨ofDigits (whole ++ fraction), denominator⟩

/-- `factor`. -/
def factor (value : String) : Thrown Fraction := do
  let parsed ← parseDecimal value
  demand (parsed.numerator ≠ 0) .invalidAmount "Multiplier must be positive"
  return parsed

/-- The number of code units behind the first point. -/
def fractionLength (display : String) : Nat :=
  textLength (String.ofList (display.toList.dropWhile (· != '.')).tail)

/-- `toRawAmount`. -/
def toRawAmount (display : String) (decimals : Int) (multiplier : String) : Thrown Int := do
  demand (¬ (decimals < 0 ∨ 18 < decimals)) .invalidAmount
    "Asset decimals must be an integer from 0 to 18"
  demand (¬ decimals < fractionLength display) .invalidAmount
    ("Amount exceeds the asset's " ++ toString decimals ++ "-decimal precision")
  let amount ← parseDecimal display
  let scale ← factor multiplier
  let unit ← pow10 decimals
  let raw ← quotient (amount.numerator * unit * scale.denominator)
    (amount.denominator * scale.numerator)
  assertRaw raw
  return raw

/-- `parseUsdc`. -/
def parseUsdc (display : String) : Thrown Int := toRawAmount display 6 "1"

/-- The pools of an allocation. -/
structure Pools where
  ptPoolRaw : Int
  drPoolRaw : Int
deriving DecidableEq

/-- `allocate`. -/
def allocate (raw : Int) (m0 m1 : String) : Thrown Pools := do
  assertRaw raw
  let before ← factor m0
  let after ← factor m1
  let increaseNumerator :=
    after.numerator * before.denominator - before.numerator * after.denominator
  demand (¬ increaseNumerator < 0) .invalidFixture "Event multiplier must not decrease"
  let drPoolRaw ← quotient (raw * increaseNumerator) (after.numerator * before.denominator)
  return { ptPoolRaw := raw - drPoolRaw, drPoolRaw := drPoolRaw }

/-! ## What the checks say -/

theorem quotient_eq_ok {a b q : Int} : quotient a b = .ok q ↔ b ≠ 0 ∧ a.tdiv b = q := by
  by_cases hb : b = 0
  · simp [quotient, hb]
  · simp [quotient, hb]

@[simp] theorem assertRaw_eq_ok {value : Int} {u : Unit} :
    assertRaw value = .ok u ↔ 0 ≤ value ∧ value ≤ U64_MAX := by
  simp [assertRaw]

theorem assertRaw_pos {value : Int} {u : Unit} :
    assertRaw value false = .ok u ↔ 0 < value ∧ value ≤ U64_MAX := by
  simp only [assertRaw, demand_eq_ok, true_and]
  omega

/-- The powers of ten a check lets pass are positive. -/
theorem pow10_pos {exponent p : Int} (h : pow10 exponent = .ok p) : 0 < p := by
  simp only [pow10, Result.bind_eq_ok, Result.exists_unit, Result.pure_eq_ok] at h
  obtain ⟨-, rfl⟩ := h
  positivity

theorem parseDecimal_nonneg {value : String} {f : Fraction} (h : parseDecimal value = .ok f) :
    0 ≤ f.numerator ∧ 0 < f.denominator := by
  simp only [parseDecimal, Result.bind_eq_ok, Result.exists_unit, Result.pure_eq_ok] at h
  obtain ⟨-, ⟨whole, fraction⟩, -, -, denominator, hdenominator, rfl⟩ := h
  exact ⟨Int.natCast_nonneg _, pow10_pos hdenominator⟩

/-- A factor is a positive fraction. -/
theorem factor_pos {value : String} {f : Fraction} (h : factor value = .ok f) :
    0 < f.numerator ∧ 0 < f.denominator := by
  simp only [factor, Result.bind_eq_ok, Result.exists_unit, Result.pure_eq_ok, demand_eq_ok] at h
  obtain ⟨_, hparsed, hne, rfl⟩ := h
  obtain ⟨hnum, hden⟩ := parseDecimal_nonneg hparsed
  exact ⟨by omega, hden⟩

/-- An allocation splits a raw amount into two parts that are not negative. -/
theorem allocate_splits {raw : Int} {m0 m1 : String} {pools : Pools}
    (h : allocate raw m0 m1 = .ok pools) :
    0 ≤ pools.ptPoolRaw ∧ 0 ≤ pools.drPoolRaw ∧ pools.ptPoolRaw + pools.drPoolRaw = raw := by
  simp only [allocate, Result.bind_eq_ok, Result.exists_unit, Result.pure_eq_ok, demand_eq_ok,
    assertRaw_eq_ok, quotient_eq_ok] at h
  obtain ⟨⟨hraw, -⟩, before, hbefore, after, hafter, hrise, dr, ⟨hne, hdr⟩, rfl⟩ := h
  obtain ⟨hbn, hbd⟩ := factor_pos hbefore
  obtain ⟨han, had⟩ := factor_pos hafter
  have hunit : 0 < after.numerator * before.denominator := mul_pos han hbd
  have hfall : 0 ≤ before.numerator * after.denominator := (mul_pos hbn had).le
  have hprod := mul_nonneg hraw (not_lt.mp hrise)
  rw [Int.tdiv_eq_ediv_of_nonneg hprod] at hdr
  have hdrNonneg : 0 ≤ dr := by
    rw [← hdr]
    exact Int.ediv_nonneg hprod hunit.le
  -- the factor before is not negative, so the rise is at most the factor after
  have hdrLe : dr ≤ raw := by
    rw [← hdr]
    refine Int.ediv_le_of_le_mul hunit ?_
    exact mul_le_mul_of_nonneg_left (by omega) hraw
  exact ⟨by dsimp only; omega, hdrNonneg, by dsimp only; omega⟩

end Demo

end DividendX
