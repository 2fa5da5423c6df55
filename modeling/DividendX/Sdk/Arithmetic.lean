import DividendX.Lib.Fraction
import DividendX.Retention

/-!
# The client's arithmetic

`arithmetic.ts` of the transaction SDK: the same multipliers, retention product, pools and payouts
as `math.rs`, computed a second time over unlimited integers. Where the program keeps an unreduced
fraction and compares bit patterns, the client divides by the greatest common divisor after every
step and compares rationals.

Both sides are read through one rational, the `retention` of the list of events: the client holds it
in lowest terms (`multiplyRetentionRatios_eq_ok`), the program holds some fraction with that value
(`foldlM_multiplyRatio`), and the pools are the floor of the same number.
-/

namespace DividendX

open LittleEndian Binary64

namespace Sdk

/-! ## Errors -/

/-- `DividendXSdkErrorCode`. -/
inductive ErrorCode where
  | invalidAmount
  | invalidClock
  | invalidDigest
  | invalidF64Bits
  | invalidIdentity
  | invalidPublicKey
  | invalidQuote
  | invalidSeries
  | idlMismatch
  | rpcAccountMissing
  | rpcAccountOwner
  | transactionFailed
  deriving DecidableEq

/-- `DividendXSdkError`. -/
structure Error where
  code : ErrorCode
  message : String
  deriving DecidableEq

/-- A call that may throw. -/
abbrev Thrown (α : Type) := Except Error α

/-- `invariant`. -/
def invariant (condition : Prop) [Decidable condition] (code : ErrorCode) (message : String) :
    Thrown Unit :=
  Result.require condition ⟨code, message⟩

@[simp] theorem invariant_eq_ok {p : Prop} [Decidable p] {c : ErrorCode} {m : String} {u : Unit} :
    invariant p c m = .ok u ↔ p :=
  Result.require_eq_ok

/-! ## Bytes and ranges -/

def MAX_U64 : Int := 2 ^ 64 - 1
def MAX_EVENTS : Nat := 64
def MAX_RATIONAL_BYTES : Nat := 1024

/-- `assertU64`. -/
def assertU64 (value : Int) (label : String) (allowZero : Bool := true) : Thrown Unit :=
  invariant ((if allowZero then 0 else 1) ≤ value ∧ value ≤ MAX_U64) .invalidAmount
    (label ++ " must be " ++ (if allowZero then "an unsigned" else "a positive unsigned") ++
      " u64 bigint")

/-- `bigintToMinimalLe`. -/
def bigintToMinimalLe (value : Int) : Thrown (List UInt8) := do
  invariant (0 ≤ value) .invalidAmount "value must be non-negative"
  return toBytes value.toNat

/-! ## Multipliers -/

/-- `ExactRational`. -/
abbrev ExactRational := Fraction

/-- `Binary64Value`. -/
structure Binary64Value extends Fraction where
  bits : Int
  significand : Int
  exponent2 : Int
  deriving DecidableEq

def FRACTION_MASK : Nat := (1 <<< 52) - 1
def EXPONENT_MASK : Nat := 0x7ff

/-- `reduceRational`. -/
def reduceRational (value : ExactRational) : Thrown ExactRational := do
  invariant (0 ≤ value.numerator ∧ 0 < value.denominator) .invalidF64Bits
    "rational must be non-negative with a positive denominator"
  return value.lowest

/-- `compareRationals`. -/
def compareRationals (left right : ExactRational) : Int := left.compare right

/-- `decodeCanonicalMultiplier`. -/
def decodeCanonicalMultiplier (bits : Int) : Thrown Binary64Value := do
  invariant (0 ≤ bits ∧ bits ≤ 2 ^ 64 - 1) .invalidF64Bits
    "multiplier bits must be an unsigned u64"
  -- not negative from here on: the bit operations are those of naturals
  let pattern := bits.toNat
  let sign := pattern >>> 63
  let rawExponent := (pattern >>> 52) &&& EXPONENT_MASK
  let fraction := pattern &&& FRACTION_MASK
  invariant (sign = 0) .invalidF64Bits "multiplier must be positive"
  invariant (rawExponent ≠ 0) .invalidF64Bits "zero and subnormal multipliers are not supported"
  invariant (rawExponent ≠ EXPONENT_MASK) .invalidF64Bits
    "NaN and infinite multipliers are not supported"
  let significand : Nat := (1 <<< 52) ||| fraction
  let exponent2 : Int := (rawExponent : Int) - 1023 - 52
  let rational : ExactRational :=
    if 0 ≤ exponent2 then ⟨(significand <<< exponent2.toNat : Nat), 1⟩
    else ⟨significand, (1 <<< (-exponent2).toNat : Nat)⟩
  let reduced ← reduceRational rational
  invariant (0 ≤ compareRationals reduced ⟨1, 2 ^ 32⟩) .invalidF64Bits
    "multiplier is below 2^-32"
  invariant (compareRationals reduced ⟨2 ^ 32, 1⟩ < 0) .invalidF64Bits
    "multiplier must be below 2^32"
  return { toFraction := reduced, bits := bits, significand := significand, exponent2 := exponent2 }

/-- `eventRetentionRatio`. -/
def eventRetentionRatio (m0Bits m1Bits : Int) : Thrown ExactRational := do
  let m0 ← decodeCanonicalMultiplier m0Bits
  let m1 ← decodeCanonicalMultiplier m1Bits
  invariant (0 ≤ compareRationals m1.toFraction m0.toFraction) .invalidF64Bits
    "qualified event requires M1 >= M0"
  reduceRational ⟨m0.numerator * m1.denominator, m0.denominator * m1.numerator⟩

/-! ## Products, pools and payouts -/

/-- The multipliers of one event, as the client passes them. -/
structure EventFactors where
  m0Bits : Int
  m1Bits : Int
  deriving DecidableEq

/-- One turn of the loop of `multiplyRetentionRatios`. -/
def multiplyEvent (result : ExactRational) (event : EventFactors) : Thrown ExactRational := do
  let ratio ← eventRetentionRatio event.m0Bits event.m1Bits
  let result ← reduceRational
    ⟨result.numerator * ratio.numerator, result.denominator * ratio.denominator⟩
  let numerator ← bigintToMinimalLe result.numerator
  invariant (numerator.length ≤ MAX_RATIONAL_BYTES) .invalidF64Bits
    "accumulator numerator exceeds 8192 bits"
  let denominator ← bigintToMinimalLe result.denominator
  invariant (denominator.length ≤ MAX_RATIONAL_BYTES) .invalidF64Bits
    "accumulator denominator exceeds 8192 bits"
  return result

/-- `multiplyRetentionRatios`. -/
def multiplyRetentionRatios (events : List EventFactors) : Thrown ExactRational := do
  invariant (events.length ≤ MAX_EVENTS) .invalidF64Bits
    ("at most " ++ toString MAX_EVENTS ++ " event factors are supported")
  events.foldlM multiplyEvent ⟨1, 1⟩

/-- What `allocationFromRetention` returns. -/
structure Allocation where
  ptRaw : Int
  drRaw : Int
  deriving DecidableEq

/-- `allocationFromRetention`. -/
def allocationFromRetention (accountableRaw : Int) (retention : ExactRational) :
    Thrown Allocation := do
  assertU64 accountableRaw "accountable raw amount"
  let reduced ← reduceRational retention
  invariant (reduced.numerator ≤ reduced.denominator) .invalidF64Bits
    "retention ratio cannot exceed one"
  let drRaw := (accountableRaw * (reduced.denominator - reduced.numerator)).tdiv reduced.denominator
  return { ptRaw := accountableRaw - drRaw, drRaw := drRaw }

/-- `cumulativeRedemptionPayout`. -/
def cumulativeRedemptionPayout
    (poolRaw supplyDenominatorRaw previouslyRedeemedClaimsRaw burnRaw : Int) : Thrown Int := do
  assertU64 poolRaw "redemption pool"
  assertU64 supplyDenominatorRaw "supply denominator" false
  assertU64 previouslyRedeemedClaimsRaw "previously redeemed claims"
  assertU64 burnRaw "burn amount" false
  invariant (previouslyRedeemedClaimsRaw + burnRaw ≤ supplyDenominatorRaw) .invalidAmount
    "redemption exceeds the final nominal supply"
  return ((previouslyRedeemedClaimsRaw + burnRaw) * poolRaw).tdiv supplyDenominatorRaw -
    (previouslyRedeemedClaimsRaw * poolRaw).tdiv supplyDenominatorRaw

/-! ## One multiplier -/

theorem assertU64_toNat (x : UInt64) (label : String) : assertU64 x.toNat label = .ok () := by
  have hx := x.toNat_lt
  rw [assertU64, invariant_eq_ok, MAX_U64]
  exact ⟨Int.natCast_nonneg _, by omega⟩

theorem assertU64_pos {x : UInt64} (h : 0 < x) (label : String) :
    assertU64 x.toNat label false = .ok () := by
  have hx := x.toNat_lt
  have hpos : 0 < x.toNat := UInt64.lt_iff_toNat_lt.mp h
  rw [assertU64, invariant_eq_ok, MAX_U64]
  exact ⟨Int.natCast_pos.mpr hpos, by omega⟩

/-- A pair of non-negative value is reduced to the pair of its value. -/
theorem reduceRational_eq {n d : Int} (hn : 0 ≤ n) (hd : 0 < d) :
    reduceRational ⟨n, d⟩ = .ok (Fraction.ofRat ((n : ℚ) / d)) := by
  simp only [reduceRational, Result.bind_eq_ok, invariant_eq_ok, Result.exists_unit,
    Result.pure_eq_ok]
  exact ⟨⟨hn, hd⟩, Fraction.lowest_eq_ofRat n hd⟩

theorem compareRationals_ofRat {x : ℚ} {r : ExactRational} (hr : 0 < r.denominator) :
    compareRationals (Fraction.ofRat x) r < 0 ↔ x < (r.numerator : ℚ) / r.denominator := by
  rw [compareRationals, Fraction.compare_lt_zero (Fraction.denominator_ofRat_pos x) hr,
    Fraction.value_ofRat]

/-- The fields of a pattern, as the client takes them out. -/
theorem pattern_fields (bits : UInt64) :
    bits.toNat >>> 63 = signField bits ∧
      (bits.toNat >>> 52) &&& EXPONENT_MASK = exponentField bits ∧
      ((1 <<< 52) ||| (bits.toNat &&& FRACTION_MASK)) = significand bits := by
  refine ⟨Nat.shiftRight_eq_div_pow _ _, ?_, ?_⟩
  · change bits.toNat >>> 52 &&& (2 ^ 11 - 1) = _
    rw [Nat.and_two_pow_sub_one_eq_mod, Nat.shiftRight_eq_div_pow]
    rfl
  · change 2 ^ 52 ||| (bits.toNat &&& (2 ^ 52 - 1)) = _
    have hor := Nat.two_pow_add_eq_or_of_lt (fractionField_lt bits) 1
    rw [Nat.mul_one] at hor
    rw [Nat.and_two_pow_sub_one_eq_mod]
    exact hor.symm

/-- The quotient the client writes down for a pattern is its value. -/
theorem rational_eq_value {bits : UInt64} (h : PositiveNormal bits) :
    reduceRational
      (if 0 ≤ (exponentField bits : Int) - 1023 - 52
        then ⟨(significand bits <<< ((exponentField bits : Int) - 1023 - 52).toNat : Nat), 1⟩
        else ⟨significand bits, (1 <<< (-((exponentField bits : Int) - 1023 - 52)).toNat : Nat)⟩) =
      .ok (Fraction.ofRat (value bits)) := by
  have hsig : value bits = (significand bits : ℚ) * 2 ^ ((exponentField bits : ℤ) - 1075) :=
    h.value_eq
  have hexp : (exponentField bits : Int) - 1023 - 52 = (exponentField bits : ℤ) - 1075 := by omega
  rw [hexp]
  split
  · rename_i hpos
    obtain ⟨k, hk⟩ := Int.eq_ofNat_of_zero_le hpos
    rw [reduceRational_eq (Int.natCast_nonneg _) one_pos, hsig, hk, Int.toNat_natCast,
      Nat.shiftLeft_eq, zpow_natCast]
    push_cast
    rw [div_one]
  · rename_i hneg
    obtain ⟨k, hk⟩ := Int.eq_ofNat_of_zero_le (by omega : 0 ≤ -((exponentField bits : ℤ) - 1075))
    have hk' : (exponentField bits : ℤ) - 1075 = -(k : Int) := by omega
    have hpow : (0 : Int) < (1 <<< k : Nat) := by
      rw [Nat.one_shiftLeft]
      exact_mod_cast Nat.two_pow_pos k
    rw [hk, Int.toNat_natCast, reduceRational_eq (Int.natCast_nonneg _) hpow, hsig, hk', zpow_neg,
      zpow_natCast, Nat.one_shiftLeft]
    push_cast
    rw [div_eq_mul_inv]

/-- The range test on values is the range test on patterns. -/
theorem admissible_iff {bits : UInt64} (h : PositiveNormal bits) :
    Admissible bits ↔ 1 / 2 ^ 32 ≤ value bits ∧ value bits < 2 ^ 32 := by
  have hmin : PositiveNormal MIN_NORMAL_BITS := by decide
  have hmax : PositiveNormal MAX_EXCLUSIVE_BITS := by decide
  have hvmin : value MIN_NORMAL_BITS = 1 / 2 ^ 32 := by
    rw [hmin.value_eq, show exponentField MIN_NORMAL_BITS = 991 by decide,
      show fractionField MIN_NORMAL_BITS = 0 by decide]
    norm_num
  have hvmax : value MAX_EXCLUSIVE_BITS = 2 ^ 32 := by
    rw [hmax.value_eq, show exponentField MAX_EXCLUSIVE_BITS = 1055 by decide,
      show fractionField MAX_EXCLUSIVE_BITS = 0 by decide]
    norm_num
  rw [← admissible_iff_bits, ← UInt64.not_le, hmin.le_iff_value_le h, hmax.le_iff_value_le h, hvmin,
    hvmax, not_le]

/-- The client decodes exactly the multipliers the program decodes, and keeps their value. -/
theorem decodeCanonicalMultiplier_eq_ok {bits : UInt64} {v : Binary64Value} :
    decodeCanonicalMultiplier bits.toNat = .ok v ↔ Admissible bits ∧
      v = ⟨Fraction.ofRat (value bits), bits.toNat, significand bits,
        (exponentField bits : Int) - 1023 - 52⟩ := by
  obtain ⟨hsign, hexp, hsig⟩ := pattern_fields bits
  have hbits : (0 : Int) ≤ bits.toNat ∧ (bits.toNat : Int) ≤ 2 ^ 64 - 1 := by
    have := bits.toNat_lt
    exact ⟨Int.natCast_nonneg _, by omega⟩
  simp only [decodeCanonicalMultiplier, Result.bind_eq_ok, invariant_eq_ok, Result.exists_unit,
    Result.pure_eq_ok, Int.toNat_natCast, hsign, hexp, hsig]
  have hrange : ∀ x : ℚ, (0 ≤ compareRationals (Fraction.ofRat x) ⟨1, 2 ^ 32⟩ ∧
      compareRationals (Fraction.ofRat x) ⟨2 ^ 32, 1⟩ < 0) ↔
      1 / 2 ^ 32 ≤ x ∧ x < 2 ^ 32 := by
    intro x
    have hlow := @compareRationals_ofRat x ⟨1, 2 ^ 32⟩ (by norm_num)
    have hhigh := @compareRationals_ofRat x ⟨2 ^ 32, 1⟩ one_pos
    rw [← not_lt, hlow, hhigh, not_lt]
    norm_num
  constructor
  · rintro ⟨-, hs, he0, he1, r, hr, hlow, hhigh, rfl⟩
    have hp : PositiveNormal bits := ⟨hs, he0, he1⟩
    obtain rfl : Fraction.ofRat (value bits) = r :=
      Except.ok.inj ((rational_eq_value hp).symm.trans hr)
    exact ⟨(admissible_iff hp).mpr ((hrange _).mp ⟨hlow, hhigh⟩), rfl⟩
  · rintro ⟨hadm, rfl⟩
    have hp := hadm.positiveNormal
    obtain ⟨hlow, hhigh⟩ := (hrange _).mpr ((admissible_iff hp).mp hadm)
    exact ⟨hbits, hp.1, hp.2.1, hp.2.2, _, rational_eq_value hp, hlow, hhigh, rfl⟩

/-! ## One event -/

/-- Multipliers are ordered as fractions as their patterns are. -/
theorem compareRationals_iff_le {m0 m1 : UInt64} (h0 : Admissible m0) (h1 : Admissible m1) :
    0 ≤ compareRationals (Fraction.ofRat (value m1)) (Fraction.ofRat (value m0)) ↔ m0 ≤ m1 := by
  rw [← not_lt, compareRationals_ofRat (Fraction.denominator_ofRat_pos _), Fraction.value_ofRat,
    not_lt, h0.positiveNormal.le_iff_value_le h1.positiveNormal]

/-- The ratio of an event is accepted exactly when the program calls the pair qualified. -/
theorem eventRetentionRatio_eq_ok {m0 m1 : UInt64} {r : ExactRational} :
    eventRetentionRatio m0.toNat m1.toNat = .ok r ↔
      Qualified m0 m1 ∧ r = Fraction.ofRat (value m0 / value m1) := by
  have hreduce : Admissible m0 → Admissible m1 →
      reduceRational ⟨(value m0).num * (value m1).den, (value m0).den * (value m1).num⟩ =
        .ok (Fraction.ofRat (value m0 / value m1)) := by
    intro h0 h1
    have hv0 := h0.positiveNormal.value_pos
    have hv1 := h1.positiveNormal.value_pos
    have hn : 0 ≤ (value m0).num * (value m1).den :=
      mul_nonneg (Rat.num_nonneg.mpr hv0.le) (Int.natCast_nonneg _)
    have hd : 0 < ((value m0).den : Int) * (value m1).num :=
      mul_pos (Int.natCast_pos.mpr (value m0).den_pos) (Rat.num_pos.mpr hv1)
    rw [reduceRational_eq hn hd]
    congr 2
    conv_rhs => rw [← Rat.num_div_den (value m0), ← Rat.num_div_den (value m1)]
    push_cast
    exact (div_div_div_eq _ _ _ _).symm
  simp only [eventRetentionRatio, Result.bind_eq_ok, invariant_eq_ok, Result.exists_unit,
    decodeCanonicalMultiplier_eq_ok]
  constructor
  · rintro ⟨_, ⟨h0, rfl⟩, _, ⟨h1, rfl⟩, hle, hr⟩
    exact ⟨⟨h0, h1, (compareRationals_iff_le h0 h1).mp hle⟩,
      Except.ok.inj (hr.symm.trans (hreduce h0 h1))⟩
  · rintro ⟨⟨h0, h1, hle⟩, rfl⟩
    exact ⟨_, ⟨h0, rfl⟩, _, ⟨h1, rfl⟩, (compareRationals_iff_le h0 h1).mpr hle, hreduce h0 h1⟩

/-! ## A list of events -/

/-- A fraction in lowest terms is no larger than any fraction of its value. -/
theorem retention_fits {n d c : Nat} (h : RetentionBound n d c) (hc : c ≤ 64) :
    0 < (n : ℚ) / d ∧ (n : ℚ) / d ≤ 1 ∧ ((n : ℚ) / d).den < 256 ^ 1024 := by
  have hn : (0 : ℚ) < n := by exact_mod_cast h.pos
  have hd : (0 : ℚ) < d := by exact_mod_cast h.denominator_pos
  refine ⟨div_pos hn hd, ?_, ?_⟩
  · rw [div_le_one hd]
    exact_mod_cast h.le
  · have hdvd := Rat.den_dvd n d
    rw [Rat.divInt_eq_div, Int.cast_natCast, Int.cast_natCast, Int.natCast_dvd_natCast] at hdvd
    exact (Nat.le_of_dvd h.denominator_pos hdvd).trans_lt (h.fits hc)

theorem bigintToMinimalLe_natCast (n : Nat) : bigintToMinimalLe n = .ok (toBytes n) := by
  simp only [bigintToMinimalLe, Result.bind_eq_ok, invariant_eq_ok, Result.exists_unit,
    Result.pure_eq_ok, Int.toNat_natCast]
  exact ⟨Int.natCast_nonneg n, trivial⟩

/-- One turn of the loop: a fraction in lowest terms stays one, and its size never matters. -/
theorem multiplyEvent_eq_ok {n d c : Nat} (h : RetentionBound n d c) (hc : c < 64)
    {m0 m1 : UInt64} {r : ExactRational} :
    multiplyEvent (Fraction.ofRat ((n : ℚ) / d)) ⟨m0.toNat, m1.toNat⟩ = .ok r ↔
      Qualified m0 m1 ∧ r = Fraction.ofRat ((n : ℚ) / d * (value m0 / value m1)) := by
  obtain ⟨hpos, -, -⟩ := retention_fits h hc.le
  generalize hx : (n : ℚ) / d = x at hpos
  simp only [multiplyEvent, Result.bind_eq_ok, invariant_eq_ok, Result.exists_unit,
    Result.pure_eq_ok, eventRetentionRatio_eq_ok]
  have hturn : Qualified m0 m1 → reduceRational
      ⟨(Fraction.ofRat x).numerator * (Fraction.ofRat (value m0 / value m1)).numerator,
        (Fraction.ofRat x).denominator * (Fraction.ofRat (value m0 / value m1)).denominator⟩ =
      .ok (Fraction.ofRat (x * (value m0 / value m1))) := by
    intro hq
    have hratio := div_pos hq.1.positiveNormal.value_pos hq.2.1.positiveNormal.value_pos
    rw [reduceRational_eq
      (mul_nonneg (Fraction.numerator_ofRat_nonneg hpos.le)
        (Fraction.numerator_ofRat_nonneg hratio.le))
      (mul_pos (Fraction.denominator_ofRat_pos _) (Fraction.denominator_ofRat_pos _)),
      Int.cast_mul, Int.cast_mul, mul_div_mul_comm, Fraction.value_ofRat, Fraction.value_ofRat]
  have hsize : Qualified m0 m1 → ∃ k : Nat, (x * (value m0 / value m1)).num = k ∧
      (toBytes k).length ≤ 1024 ∧ (toBytes (x * (value m0 / value m1)).den).length ≤ 1024 := by
    intro hq
    obtain ⟨hpos', hle', hden⟩ := retention_fits (h.step hq) hc
    rw [RetentionBound.ratio_step n d hq, hx] at hpos' hle' hden
    obtain ⟨k, hk⟩ := Int.eq_ofNat_of_zero_le (Rat.num_nonneg.mpr hpos'.le)
    have hnum := Rat.num_le_denom_iff.mpr hle'
    rw [hk] at hnum
    refine ⟨k, hk, ?_, ?_⟩
    · rw [length_toBytes_le_iff (by norm_num)]
      exact (Int.ofNat_le.mp hnum).trans_lt hden
    · rwa [length_toBytes_le_iff (by norm_num)]
  constructor
  · rintro ⟨_, ⟨hq, rfl⟩, r', hr', _, -, -, _, -, -, rfl⟩
    exact ⟨hq, Except.ok.inj (hr'.symm.trans (hturn hq))⟩
  · rintro ⟨hq, rfl⟩
    obtain ⟨k, hk, hnum, hden⟩ := hsize hq
    refine ⟨_, ⟨hq, rfl⟩, _, hturn hq, _, ?_, hnum, _, bigintToMinimalLe_natCast _, hden, rfl⟩
    rw [Fraction.ofRat, hk]
    exact bigintToMinimalLe_natCast k

/-- The events of a list, as the client passes them. -/
def factorsOf (events : List (UInt64 × UInt64)) : List EventFactors :=
  events.map fun e => ⟨e.1.toNat, e.2.toNat⟩

theorem foldlM_multiplyEvent {events : List (UInt64 × UInt64)} {n d c : Nat}
    (h : RetentionBound n d c) (hc : c + events.length ≤ 64) {r : ExactRational} :
    (factorsOf events).foldlM multiplyEvent (Fraction.ofRat ((n : ℚ) / d)) = .ok r ↔
      (∀ e ∈ events, Qualified e.1 e.2) ∧
        r = Fraction.ofRat ((n : ℚ) / d * retention events) := by
  induction events generalizing n d c with
  | nil =>
    rw [retention, List.map_nil, List.prod_nil, mul_one]
    exact ⟨fun hr => ⟨fun e he => absurd he List.not_mem_nil, (Except.ok.inj hr).symm⟩,
      fun hr => congrArg Except.ok hr.2.symm⟩
  | cons e events ih =>
    rw [List.length_cons] at hc
    rw [factorsOf, List.map_cons, List.foldlM_cons, Result.bind_eq_ok, List.forall_mem_cons]
    simp only [multiplyEvent_eq_ok h (by omega)]
    have hrest : Qualified e.1 e.2 →
        ((factorsOf events).foldlM multiplyEvent
          (Fraction.ofRat ((n : ℚ) / d * (value e.1 / value e.2))) = .ok r ↔
        (∀ e ∈ events, Qualified e.1 e.2) ∧
          r = Fraction.ofRat ((n : ℚ) / d * retention (e :: events))) := by
      intro hq
      rw [← RetentionBound.ratio_step n d hq, ih (h.step hq) (by omega),
        RetentionBound.ratio_step n d hq, retention, retention, List.map_cons, List.prod_cons,
        mul_assoc]
    constructor
    · rintro ⟨_, ⟨hq, rfl⟩, hr⟩
      obtain ⟨hall, hval⟩ := (hrest hq).mp hr
      exact ⟨⟨hq, hall⟩, hval⟩
    · rintro ⟨⟨hq, hall⟩, hval⟩
      exact ⟨_, ⟨hq, rfl⟩, (hrest hq).mpr ⟨hall, hval⟩⟩

/-- **The product**: accepted exactly when every pair is qualified, and then the retention of the
list in lowest terms. -/
theorem multiplyRetentionRatios_eq_ok {events : List (UInt64 × UInt64)}
    (hlen : events.length ≤ 64) {r : ExactRational} :
    multiplyRetentionRatios (factorsOf events) = .ok r ↔
      (∀ e ∈ events, Qualified e.1 e.2) ∧ r = Fraction.ofRat (retention events) := by
  have hlen' : (factorsOf events).length ≤ MAX_EVENTS := by
    rw [factorsOf, List.length_map]
    exact hlen
  have hone : (⟨1, 1⟩ : ExactRational) = Fraction.ofRat (((1 : Nat) : ℚ) / (1 : Nat)) := by
    rw [Nat.cast_one, div_one]
    rfl
  rw [multiplyRetentionRatios, Result.bind_eq_ok, Result.exists_unit, invariant_eq_ok, hone,
    foldlM_multiplyEvent RetentionBound.start (by omega), Nat.cast_one, div_one, one_mul,
    and_iff_right hlen']

/-- The two calls a client makes for the pools of a list. -/
def retentionPools (events : List (UInt64 × UInt64)) (accountableRaw : UInt64) :
    Thrown Allocation := do
  let retention ← multiplyRetentionRatios (factorsOf events)
  allocationFromRetention accountableRaw.toNat retention

/-- The pools of a retention between zero and one are the floor and the rest. -/
theorem allocationFromRetention_eq (q : UInt64) {x : ℚ} (hx : 0 ≤ x) (hx1 : x ≤ 1) :
    allocationFromRetention q.toNat (Fraction.ofRat x) =
      .ok ⟨q.toNat - (⌊(q.toNat : ℚ) * (1 - x)⌋₊ : Nat), (⌊(q.toNat : ℚ) * (1 - x)⌋₊ : Nat)⟩ := by
  obtain ⟨k, hk⟩ := Int.eq_ofNat_of_zero_le (Rat.num_nonneg.mpr hx)
  have hle : k ≤ x.den := by
    have hnum := Rat.num_le_denom_iff.mpr hx1
    rw [hk] at hnum
    exact Int.ofNat_le.mp hnum
  have hvalue : x = (k : ℚ) / x.den := by
    conv_lhs => rw [← Rat.num_div_den x, hk, Int.cast_natCast]
  have hreduce : reduceRational (Fraction.ofRat x) = .ok (Fraction.ofRat x) := by
    have h := @reduceRational_eq x.num x.den (Rat.num_nonneg.mpr hx)
      (Int.natCast_pos.mpr x.den_pos)
    rwa [Int.cast_natCast, Rat.num_div_den] at h
  have hdr : ((q.toNat : Int) * (x.den - x.num)).tdiv x.den =
      (⌊(q.toNat : ℚ) * (1 - x)⌋₊ : Nat) := by
    conv_rhs => rw [hvalue]
    rw [floor_lost_share q.toNat x.den_ne_zero hle, hk, ← Int.natCast_sub hle,
      ← Int.natCast_mul]
    exact Int.ofNat_tdiv _ _
  simp only [allocationFromRetention, Result.bind_eq_ok, invariant_eq_ok, Result.exists_unit,
    Result.pure_eq_ok, assertU64_toNat, true_and]
  refine ⟨Fraction.ofRat x, hreduce, Rat.num_le_denom_iff.mpr hx1, ?_⟩
  rw [← hdr]
  rfl

theorem retention_mem {events : List (UInt64 × UInt64)} (h : ∀ e ∈ events, Qualified e.1 e.2) :
    0 ≤ retention events ∧ retention events ≤ 1 := by
  induction events with
  | nil =>
    rw [retention, List.map_nil, List.prod_nil]
    exact ⟨zero_le_one, le_rfl⟩
  | cons e events ih =>
    obtain ⟨hq, hall⟩ := List.forall_mem_cons.mp h
    obtain ⟨hnonneg, hle⟩ := ih hall
    have hv1 := hq.2.1.positiveNormal.value_pos
    have hratio : value e.1 / value e.2 ≤ 1 := by
      rw [div_le_one hv1]
      exact (hq.1.positiveNormal.le_iff_value_le hq.2.1.positiveNormal).mp hq.2.2
    have hratio0 := (div_pos hq.1.positiveNormal.value_pos hv1).le
    rw [retention, List.map_cons, List.prod_cons]
    exact ⟨mul_nonneg hratio0 hnonneg, mul_le_one₀ hratio hnonneg hle⟩

theorem retentionPools_eq_ok {events : List (UInt64 × UInt64)} (hlen : events.length ≤ 64)
    {q : UInt64} {a : Allocation} :
    retentionPools events q = .ok a ↔ (∀ e ∈ events, Qualified e.1 e.2) ∧
      a = ⟨q.toNat - (⌊(q.toNat : ℚ) * (1 - retention events)⌋₊ : Nat),
        (⌊(q.toNat : ℚ) * (1 - retention events)⌋₊ : Nat)⟩ := by
  rw [retentionPools, Result.bind_eq_ok]
  simp only [multiplyRetentionRatios_eq_ok hlen]
  constructor
  · rintro ⟨_, ⟨hall, rfl⟩, ha⟩
    obtain ⟨h0, h1⟩ := retention_mem hall
    rw [allocationFromRetention_eq q h0 h1] at ha
    exact ⟨hall, (Except.ok.inj ha).symm⟩
  · rintro ⟨hall, rfl⟩
    obtain ⟨h0, h1⟩ := retention_mem hall
    exact ⟨_, ⟨hall, rfl⟩, allocationFromRetention_eq q h0 h1⟩

/-! ## The client against the program -/

/-- The client's pools are the program's. -/
theorem retentionPools_agrees {events : List (UInt64 × UInt64)} (hlen : events.length ≤ 64)
    (q : UInt64) :
    (retentionPools events q).toOption =
      (retainedPools events q).toOption.map fun p => ⟨p.1.toNat, p.2.toNat⟩ := by
  ext a
  rw [Result.toOption_eq_some, retentionPools_eq_ok hlen, Option.map_eq_some_iff]
  simp only [Result.toOption_eq_some]
  constructor
  · rintro ⟨hall, rfl⟩
    obtain ⟨pt, dr, hok⟩ := exists_retainedPools hlen hall q
    obtain ⟨-, hdr, hsum⟩ := retainedPools_floor hlen hok
    refine ⟨(pt, dr), hok, ?_⟩
    rw [← hdr, hsum, Int.natCast_add, Int.add_sub_cancel]
  · rintro ⟨⟨pt, dr⟩, hok, rfl⟩
    obtain ⟨hall, hdr, hsum⟩ := retainedPools_floor hlen hok
    refine ⟨hall, ?_⟩
    rw [← hdr, hsum, Int.natCast_add, Int.add_sub_cancel]

section Permutation

variable {events events' : List (UInt64 × UInt64)}

theorem qualified_perm (h : events'.Perm events) :
    (∀ e ∈ events', Qualified e.1 e.2) ↔ ∀ e ∈ events, Qualified e.1 e.2 :=
  ⟨fun hall e he => hall e (h.mem_iff.mpr he), fun hall e he => hall e (h.mem_iff.mp he)⟩

theorem retention_perm (h : events'.Perm events) : retention events' = retention events :=
  (h.map _).prod_eq

/-- No order of the events changes the pools of either side. -/
theorem pools_perm (h : events'.Perm events) (hlen : events.length ≤ 64) (q : UInt64) :
    (retentionPools events' q).toOption = (retentionPools events q).toOption ∧
      (retainedPools events' q).toOption = (retainedPools events q).toOption := by
  have hlen' : events'.length ≤ 64 := h.length_eq.trans_le hlen
  constructor
  · ext a
    rw [Result.toOption_eq_some, Result.toOption_eq_some, retentionPools_eq_ok hlen',
      retentionPools_eq_ok hlen, qualified_perm h, retention_perm h]
  · ext ⟨pt, dr⟩
    rw [Result.toOption_eq_some, Result.toOption_eq_some, retainedPools_eq_ok hlen',
      retainedPools_eq_ok hlen, qualified_perm h, retention_perm h]

end Permutation

theorem cumulativeRedemptionPayout_eq_ok {pool supply redeemed amount : UInt64} {p : Int}
    (hs : 0 < supply) (ha : 0 < amount) :
    cumulativeRedemptionPayout pool.toNat supply.toNat redeemed.toNat amount.toNat = .ok p ↔
      redeemed.toNat + amount.toNat ≤ supply.toNat ∧
        p = (cumulative (redeemed.toNat + amount.toNat) pool.toNat supply.toNat : Int) -
          cumulative redeemed.toNat pool.toNat supply.toNat := by
  simp only [cumulativeRedemptionPayout, Result.bind_eq_ok, invariant_eq_ok, Result.exists_unit,
    Result.pure_eq_ok, assertU64_toNat, assertU64_pos hs, assertU64_pos ha, true_and]
  rw [← Int.natCast_add, Int.ofNat_le, ← Int.natCast_mul, ← Int.natCast_mul, ← Int.ofNat_tdiv,
    ← Int.ofNat_tdiv, eq_comm (a := p)]
  exact Iff.rfl

/-- The client's payout is the program's. -/
theorem cumulativeRedemptionPayout_agrees (pool redeemed : UInt64) {supply amount : UInt64}
    (hs : 0 < supply) (ha : 0 < amount) :
    (cumulativeRedemptionPayout pool.toNat supply.toNat redeemed.toNat amount.toNat).toOption =
      (redemptionPayout redeemed amount pool supply).toOption.map fun p => (p.toNat : Int) := by
  have hmono := cumulative_mono (Nat.le_add_right redeemed.toNat amount.toNat) pool.toNat
    supply.toNat
  ext p
  rw [Result.toOption_eq_some, cumulativeRedemptionPayout_eq_ok hs ha, Option.map_eq_some_iff]
  simp only [Result.toOption_eq_some]
  constructor
  · rintro ⟨hle, rfl⟩
    obtain ⟨payout, hpayout⟩ := @exists_redemptionPayout redeemed amount pool supply hle
    obtain ⟨-, hvalue⟩ := (redemptionPayout_eq_ok (UInt64.ne_of_lt hs).symm).mp hpayout
    exact ⟨payout, hpayout, by omega⟩
  · rintro ⟨payout, hpayout, rfl⟩
    obtain ⟨hle, hvalue⟩ := (redemptionPayout_eq_ok (UInt64.ne_of_lt hs).symm).mp hpayout
    exact ⟨hle, by omega⟩

end Sdk

/-- **The client's arithmetic is the program's**: for at most 64 events the client's pools are
accepted exactly when the program's are, and are the same; neither depends on the order of the
events; and the payout of a redemption is accepted exactly when the program's is, and is the
same. -/
theorem sdk_arithmetic_agrees (events : List (UInt64 × UInt64)) (hlen : events.length ≤ 64)
    (q : UInt64) :
    (Sdk.retentionPools events q).toOption =
        (retainedPools events q).toOption.map (fun p => ⟨p.1.toNat, p.2.toNat⟩) ∧
      (∀ events' : List (UInt64 × UInt64), events'.Perm events →
        (Sdk.retentionPools events' q).toOption = (Sdk.retentionPools events q).toOption ∧
          (retainedPools events' q).toOption = (retainedPools events q).toOption) ∧
      ∀ pool supply redeemed amount : UInt64, 0 < supply → 0 < amount →
        (Sdk.cumulativeRedemptionPayout pool.toNat supply.toNat redeemed.toNat
            amount.toNat).toOption =
          (redemptionPayout redeemed amount pool supply).toOption.map fun p => (p.toNat : Int) := by
  refine ⟨Sdk.retentionPools_agrees hlen q, ?_, ?_⟩
  · intro events' hperm
    exact Sdk.pools_perm hperm hlen q
  · intro pool supply redeemed amount hs ha
    exact Sdk.cumulativeRedemptionPayout_agrees pool redeemed hs ha

/-- Two events that halve a unit, in either order, and a third of a pool of five. -/
theorem sdk_arithmetic_agrees_sample :
    (Sdk.retentionPools [(0x3FF4000000000000, 0x4000000000000000),
        (0x3FF0000000000000, 0x3FF4000000000000)] 1001).toOption = some ⟨501, 500⟩ ∧
      (Sdk.retentionPools [(0x3FF0000000000000, 0x3FF4000000000000),
        (0x3FF4000000000000, 0x4000000000000000)] 1001).toOption = some ⟨501, 500⟩ ∧
      (Sdk.cumulativeRedemptionPayout 5 3 1 1).toOption = some 2 := by
  obtain ⟨hpools, hperm, hpayout⟩ := sdk_arithmetic_agrees
    [(0x3FF0000000000000, 0x3FF4000000000000), (0x3FF4000000000000, 0x4000000000000000)]
    (by decide) 1001
  have hprogram : retainedPools [(0x3FF0000000000000, 0x3FF4000000000000),
      (0x3FF4000000000000, 0x4000000000000000)] 1001 = .ok (501, 500) := by decide +kernel
  rw [hprogram] at hpools
  refine ⟨((hperm _ (List.Perm.swap _ _ _)).1).trans hpools, hpools, ?_⟩
  exact hpayout 5 3 1 1 (by decide) (by decide)

end DividendX
