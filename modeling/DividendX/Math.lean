import Mathlib.Tactic.LinearCombination
import DividendX.Lib.Binary64
import DividendX.Lib.LittleEndian
import DividendX.State

/-!
# Exact retention arithmetic

`math.rs`: decoding of multiplier patterns, the running product of retention ratios over
big integers, the split of the backing into two pools and the cumulative redemption payout.

Each function has one lemma that says exactly when it succeeds and with what
(`decodeMultiplier_eq_ok`, `multiplyRatio_eq_ok`, `splitPools_eq_ok`, `redemptionPayout_eq_ok`);
nothing later looks inside a body again.
-/

namespace DividendX

open LittleEndian Binary64

/-! ## Multipliers -/

def FRACTION_MASK : UInt64 := ((1 : UInt64) <<< 52) - 1
def MIN_NORMAL_BITS : UInt64 := (1023 - 32 : UInt64) <<< 52
def MAX_EXCLUSIVE_BITS : UInt64 := (1023 + 32 : UInt64) <<< 52

/-- A decoded multiplier, `significand * 2 ^ exponent`. -/
structure BinaryFactor where
  significand : UInt64
  exponent : Int
  deriving DecidableEq

/-- `decode_multiplier`. -/
def decodeMultiplier (bits : UInt64) : Outcome BinaryFactor := do
  let sign := bits >>> 63
  let exponentBits := (bits >>> 52) &&& 0x7ff
  let fraction := bits &&& FRACTION_MASK
  ensure (sign = 0) .invalidMultiplier
  ensure (exponentBits ≠ 0 ∧ exponentBits ≠ 0x7ff) .invalidMultiplier
  ensure (MIN_NORMAL_BITS ≤ bits ∧ bits < MAX_EXCLUSIVE_BITS) .invalidMultiplier
  return { significand := ((1 : UInt64) <<< 52) ||| fraction,
           exponent := (exponentBits.toNat : Int) - 1023 - 52 }

/-- `require_qualified_factor`. -/
def requireQualifiedFactor (m0Bits m1Bits : UInt64) : Outcome Unit := do
  let _ ← decodeMultiplier m0Bits
  let _ ← decodeMultiplier m1Bits
  ensure (m0Bits ≤ m1Bits) .invalidMultiplier

/-! ## The running product -/

/-- `bounded_bytes`. -/
def boundedBytes (value : Nat) : Outcome (List UInt8) := do
  let bytes := toBytes value
  ensure (bytes ≠ [] ∧ bytes.length ≤ MAX_BIGINT_BYTES) .arithmeticBoundExceeded
  return bytes

/-- `multiply_ratio`: multiply an unreduced fraction by `m0 / m1`. -/
def multiplyRatio (numeratorBytes denominatorBytes : List UInt8) (m0Bits m1Bits : UInt64) :
    Outcome (List UInt8 × List UInt8) := do
  ensure (numeratorBytes.length ≤ MAX_BIGINT_BYTES) .arithmeticBoundExceeded
  ensure (denominatorBytes.length ≤ MAX_BIGINT_BYTES) .arithmeticBoundExceeded
  requireQualifiedFactor m0Bits m1Bits
  let m0 ← decodeMultiplier m0Bits
  let m1 ← decodeMultiplier m1Bits
  let numerator := ofBytes numeratorBytes
  let denominator := ofBytes denominatorBytes
  ensure (numerator ≠ 0) .invalidAccountData
  ensure (denominator ≠ 0) .invalidAccountData
  let numerator := numerator * m0.significand.toNat
  let denominator := denominator * m1.significand.toNat
  let shift := m0.exponent - m1.exponent
  let numerator' := if 0 ≤ shift then numerator <<< shift.toNat else numerator
  let denominator' := if 0 ≤ shift then denominator else denominator <<< (-shift).toNat
  let numeratorOut ← boundedBytes numerator'
  let denominatorOut ← boundedBytes denominator'
  return (numeratorOut, denominatorOut)

/-! ## Pools -/

/-- `biguint_to_u64`. -/
def biguintToU64 (value : Nat) : Outcome UInt64 := do
  let bytes := toBytes value
  ensure (bytes.length ≤ 8) .arithmeticOverflow
  return UInt64.ofNat (ofBytes bytes)

/-- `split_pools`: the dividend pool is `floor (q * (1 - n / d))`, the principal pool the rest. -/
def splitPools (quantity : UInt64) (numeratorBytes denominatorBytes : List UInt8) :
    Outcome (UInt64 × UInt64) := do
  ensure (numeratorBytes.length ≤ MAX_BIGINT_BYTES) .arithmeticBoundExceeded
  ensure (denominatorBytes.length ≤ MAX_BIGINT_BYTES) .arithmeticBoundExceeded
  let numerator := ofBytes numeratorBytes
  let denominator := ofBytes denominatorBytes
  ensure (numerator ≠ 0 ∧ denominator ≠ 0 ∧ numerator ≤ denominator) .invalidAccountData
  let dividendNumerator := quantity.toNat * (denominator - numerator)
  ensure ((toBytes dividendNumerator).length ≤ MAX_BIGINT_BYTES) .arithmeticBoundExceeded
  let dividend := dividendNumerator / denominator
  let dr ← biguintToU64 dividend
  let pt ← orError (Checked.subU64 quantity dr) .arithmeticOverflow
  return (pt, dr)

/-! ## Payouts -/

/-- `u128` multiplication under overflow checks. -/
def mulU128 (a b : Nat) : Outcome Nat :=
  Result.require (a * b < 2 ^ 128) .panic >>= fun _ => pure (a * b)

/-- `u128` subtraction under overflow checks. -/
def subU128 (a b : Nat) : Outcome Nat := Result.require (b ≤ a) .panic >>= fun _ => pure (a - b)

/-- `redemption_payout`: what redeeming `amount` more pays, by the difference of two cumulative
floors. -/
def redemptionPayout (redeemedBefore amount pool supply : UInt64) : Outcome UInt64 :=
  if supply = 0 then do
    ensure (amount = 0) .redemptionExceedsSupply
    return 0
  else do
    let redeemedAfter ← orError (Checked.addU64 redeemedBefore amount) .arithmeticOverflow
    ensure (redeemedAfter ≤ supply) .redemptionExceedsSupply
    let beforeProduct ← mulU128 redeemedBefore.toNat pool.toNat
    let afterProduct ← mulU128 redeemedAfter.toNat pool.toNat
    let payout ← subU128 (afterProduct / supply.toNat) (beforeProduct / supply.toNat)
    ensure (payout < 2 ^ 64) .arithmeticOverflow
    return UInt64.ofNat payout

/-! ## What decoding accepts -/

/-- The patterns of multipliers in `[2 ^ -32, 2 ^ 32)`. -/
def Admissible (bits : UInt64) : Prop := 991 * 2 ^ 52 ≤ bits.toNat ∧ bits.toNat < 1055 * 2 ^ 52

instance (bits : UInt64) : Decidable (Admissible bits) := inferInstanceAs (Decidable (_ ∧ _))

/-- A pair of multipliers that does not decrease. -/
def Qualified (m0 m1 : UInt64) : Prop := Admissible m0 ∧ Admissible m1 ∧ m0 ≤ m1

instance (m0 m1 : UInt64) : Decidable (Qualified m0 m1) := inferInstanceAs (Decidable (_ ∧ _ ∧ _))

/-- The 53-bit significand of a normal pattern. -/
def significand (bits : UInt64) : Nat := 2 ^ 52 + fractionField bits

/-- The exponents that are admitted. -/
theorem Admissible.exponent {bits : UInt64} (h : Admissible bits) :
    991 ≤ exponentField bits ∧ exponentField bits < 1055 := by
  obtain ⟨hlo, hhi⟩ := h
  rw [exponentField]
  omega

theorem Admissible.positiveNormal {bits : UInt64} (h : Admissible bits) : PositiveNormal bits := by
  have he := h.exponent
  obtain ⟨hlo, hhi⟩ := h
  refine ⟨?_, by omega, by omega⟩
  rw [signField]
  omega

theorem significand_lt (bits : UInt64) : significand bits < 2 ^ 53 := by
  have := fractionField_lt bits
  rw [significand]
  omega

theorem significand_pos (bits : UInt64) : 0 < significand bits := by
  rw [significand]
  omega

/-- The exponent as the program cuts it out. -/
theorem toNat_exponentBits (bits : UInt64) :
    ((bits >>> 52) &&& 0x7ff).toNat = exponentField bits := by
  rw [UInt64.toNat_and, UInt64.toNat_shiftRight]
  show bits.toNat >>> 52 &&& (2 ^ 11 - 1) = exponentField bits
  rw [Nat.and_two_pow_sub_one_eq_mod, Nat.shiftRight_eq_div_pow]
  rfl

/-- The significand as the program puts it together. -/
theorem toNat_significand (bits : UInt64) :
    (((1 : UInt64) <<< 52) ||| (bits &&& FRACTION_MASK)).toNat = significand bits := by
  have hf : (bits &&& FRACTION_MASK).toNat = fractionField bits := by
    rw [UInt64.toNat_and]
    show bits.toNat &&& (2 ^ 52 - 1) = fractionField bits
    rw [Nat.and_two_pow_sub_one_eq_mod]
    rfl
  have hor := Nat.two_pow_add_eq_or_of_lt (fractionField_lt bits) 1
  rw [Nat.mul_one] at hor
  rw [UInt64.toNat_or, hf]
  exact hor.symm

/-- The two bounds on the bits are the bounds on the fields. -/
theorem admissible_iff_bits {bits : UInt64} :
    MIN_NORMAL_BITS ≤ bits ∧ bits < MAX_EXCLUSIVE_BITS ↔ Admissible bits :=
  and_congr UInt64.le_iff_toNat_le UInt64.lt_iff_toNat_lt

/-- Decoding accepts exactly the admissible patterns and splits them into their fields. -/
theorem decodeMultiplier_eq_ok {bits : UInt64} {f : BinaryFactor} :
    decodeMultiplier bits = .ok f ↔ Admissible bits ∧ f.significand.toNat = significand bits ∧
      f.exponent = (exponentField bits : Int) - 1075 := by
  simp only [decodeMultiplier, Result.bind_eq_ok, Result.require_eq_ok, Result.exists_unit,
    Result.pure_eq_ok]
  constructor
  · rintro ⟨-, -, hb, rfl⟩
    refine ⟨admissible_iff_bits.mp hb, toNat_significand bits, ?_⟩
    show ((bits >>> 52 &&& 0x7ff).toNat : Int) - 1023 - 52 = _
    rw [toNat_exponentBits]
    omega
  · rintro ⟨hadm, hsig, hexp⟩
    -- the sign and exponent tests follow from the range test
    have he := hadm.exponent
    have hne : ∀ c : UInt64, c.toNat ≠ exponentField bits → ¬ bits >>> 52 &&& 0x7ff = c := by
      rintro c hc rfl
      exact hc (toNat_exponentBits bits)
    refine ⟨?_, ⟨hne 0 ?_, hne 0x7ff ?_⟩, admissible_iff_bits.mpr hadm, ?_⟩
    · rw [← UInt64.toNat_inj, UInt64.toNat_shiftRight]
      show bits.toNat >>> 63 = 0
      rw [Nat.shiftRight_eq_div_pow]
      exact hadm.positiveNormal.1
    · show 0 ≠ _
      omega
    · show 2047 ≠ _
      omega
    · obtain ⟨sig, exp⟩ := f
      simp only [BinaryFactor.mk.injEq]
      simp only at hsig hexp
      refine ⟨UInt64.toNat_inj.mp ((toNat_significand bits).trans hsig.symm), ?_⟩
      rw [toNat_exponentBits, hexp]
      omega

/-- What decodes is admissible. -/
theorem exists_decodeMultiplier {bits : UInt64} :
    (∃ f, decodeMultiplier bits = .ok f) ↔ Admissible bits := by
  constructor
  · rintro ⟨f, hf⟩
    exact (decodeMultiplier_eq_ok.mp hf).1
  · intro h
    have hlt : significand bits < 2 ^ 64 := lt_trans (significand_lt bits) (by norm_num)
    refine ⟨⟨UInt64.ofNat (significand bits), _⟩, decodeMultiplier_eq_ok.mpr ⟨h, ?_, rfl⟩⟩
    exact UInt64.toNat_ofNat_of_lt hlt

/-- What qualifies: two admissible multipliers, the second no less. -/
theorem requireQualifiedFactor_eq_ok {m0 m1 : UInt64} {u : Unit} :
    requireQualifiedFactor m0 m1 = .ok u ↔ Qualified m0 m1 := by
  simp only [requireQualifiedFactor, Result.bind_eq_ok, Result.require_eq_ok, Qualified,
    ← @exists_decodeMultiplier m0, ← @exists_decodeMultiplier m1]
  constructor
  · rintro ⟨f, hf, g, hg, hle⟩
    exact ⟨⟨f, hf⟩, ⟨g, hg⟩, hle⟩
  · rintro ⟨⟨f, hf⟩, ⟨g, hg⟩, hle⟩
    exact ⟨f, hf, g, hg, hle⟩

/-! ## The product, factor by factor -/

/-- What one event multiplies the numerator by. -/
def numeratorFactor (m0 m1 : UInt64) : Nat :=
  significand m0 * 2 ^ (exponentField m0 - exponentField m1)

/-- What one event multiplies the denominator by. -/
def denominatorFactor (m0 m1 : UInt64) : Nat :=
  significand m1 * 2 ^ (exponentField m1 - exponentField m0)

theorem numeratorFactor_pos (m0 m1 : UInt64) : 0 < numeratorFactor m0 m1 :=
  Nat.mul_pos (significand_pos m0) (by positivity)

theorem denominatorFactor_pos (m0 m1 : UInt64) : 0 < denominatorFactor m0 m1 :=
  Nat.mul_pos (significand_pos m1) (by positivity)

/-- 53 bits of significand and 63 bits of shift: an event adds at most 116 bits. -/
theorem denominatorFactor_lt {m0 m1 : UInt64} (h : Qualified m0 m1) :
    denominatorFactor m0 m1 < 2 ^ 116 := by
  have h0 := h.1.exponent
  have h1 := h.2.1.exponent
  calc denominatorFactor m0 m1
      < 2 ^ 53 * 2 ^ (exponentField m1 - exponentField m0) := by
        rw [denominatorFactor]
        have := significand_lt m1
        gcongr
    _ ≤ 2 ^ 53 * 2 ^ 63 := by
        gcongr
        · norm_num
        · omega
    _ = 2 ^ 116 := by norm_num

/-- The two integer factors stand for the ratio of the two multipliers. -/
theorem factor_ratio {m0 m1 : UInt64} (h : Qualified m0 m1) :
    (numeratorFactor m0 m1 : ℚ) / denominatorFactor m0 m1 = value m0 / value m1 := by
  have hp0 := h.1.positiveNormal
  have hp1 := h.2.1.positiveNormal
  rw [div_eq_div_iff (by exact_mod_cast (denominatorFactor_pos m0 m1).ne') hp1.value_pos.ne',
    hp0.value_eq, hp1.value_eq]
  simp only [numeratorFactor, denominatorFactor, significand]
  push_cast
  have hz : ∀ n : Nat, (2 : ℚ) ^ n = 2 ^ (n : ℤ) := fun n => (zpow_natCast 2 n).symm
  have hexp : (2 : ℚ) ^ (exponentField m0 - exponentField m1)
      * 2 ^ ((exponentField m1 : ℤ) - 1075) =
      2 ^ ((exponentField m0 : ℤ) - 1075) * 2 ^ (exponentField m1 - exponentField m0) := by
    rw [hz (exponentField m0 - exponentField m1), hz (exponentField m1 - exponentField m0),
      ← zpow_add₀ (by norm_num), ← zpow_add₀ (by norm_num)]
    congr 1
    omega
  linear_combination ((2 ^ 52 + (fractionField m0 : ℚ)) * (2 ^ 52 + (fractionField m1 : ℚ))) * hexp

/-- A multiplier that does not decrease retains at most everything. -/
theorem numeratorFactor_le {m0 m1 : UInt64} (h : Qualified m0 m1) :
    numeratorFactor m0 m1 ≤ denominatorFactor m0 m1 := by
  have hle := (h.1.positiveNormal.le_iff_value_le h.2.1.positiveNormal).mp h.2.2
  have hratio : (numeratorFactor m0 m1 : ℚ) / denominatorFactor m0 m1 ≤ 1 := by
    rw [factor_ratio h, div_le_one h.2.1.positiveNormal.value_pos]
    exact hle
  rw [div_le_one (by exact_mod_cast denominatorFactor_pos m0 m1)] at hratio
  exact_mod_cast hratio

theorem boundedBytes_eq_ok {n : Nat} {bytes : List UInt8} :
    boundedBytes n = .ok bytes ↔ n < 256 ^ 1024 ∧ bytes = toBytes n := by
  simp only [boundedBytes, Result.bind_eq_ok, Result.require_eq_ok, Result.exists_unit,
    Result.pure_eq_ok, toBytes_ne_nil, ne_eq, not_false_eq_true, true_and]
  rw [MAX_BIGINT_BYTES, length_toBytes_le_iff (by norm_num), eq_comm (a := toBytes n)]

/-- The two products, shifted by the difference of the exponents. -/
theorem scaled_eq {m0 m1 : UInt64} {f g : BinaryFactor} (hf : decodeMultiplier m0 = .ok f)
    (hg : decodeMultiplier m1 = .ok g) (n d : Nat) :
    (if 0 ≤ f.exponent - g.exponent
      then (n * f.significand.toNat) <<< (f.exponent - g.exponent).toNat
      else n * f.significand.toNat) = n * numeratorFactor m0 m1 ∧
    (if 0 ≤ f.exponent - g.exponent then d * g.significand.toNat
      else (d * g.significand.toNat) <<< (-(f.exponent - g.exponent)).toNat) =
      d * denominatorFactor m0 m1 := by
  obtain ⟨-, hfs, hfe⟩ := decodeMultiplier_eq_ok.mp hf
  obtain ⟨-, hgs, hge⟩ := decodeMultiplier_eq_ok.mp hg
  have hshift : f.exponent - g.exponent = (exponentField m0 : Int) - exponentField m1 := by omega
  rw [hfs, hgs, hshift, Nat.shiftLeft_eq, Nat.shiftLeft_eq]
  rw [numeratorFactor, denominatorFactor]
  split
  · rename_i hpos
    rw [show exponentField m1 - exponentField m0 = 0 by omega, pow_zero, Nat.mul_one,
      show ((exponentField m0 : Int) - exponentField m1).toNat =
        exponentField m0 - exponentField m1 by omega]
    exact ⟨by ring, rfl⟩
  · rename_i hneg
    rw [show exponentField m0 - exponentField m1 = 0 by omega, pow_zero, Nat.mul_one,
      show (-((exponentField m0 : Int) - exponentField m1)).toNat =
        exponentField m1 - exponentField m0 by omega]
    exact ⟨rfl, by ring⟩

/-- **The product step**: it succeeds exactly on nonzero bounded inputs and a qualified pair whose
products still fit, and stores the two products minimally. -/
theorem multiplyRatio_eq_ok {n d n' d' : List UInt8} {m0 m1 : UInt64} :
    multiplyRatio n d m0 m1 = .ok (n', d') ↔
      n.length ≤ 1024 ∧ d.length ≤ 1024 ∧ Qualified m0 m1 ∧ ofBytes n ≠ 0 ∧ ofBytes d ≠ 0 ∧
      ofBytes n * numeratorFactor m0 m1 < 256 ^ 1024 ∧
      ofBytes d * denominatorFactor m0 m1 < 256 ^ 1024 ∧
      n' = toBytes (ofBytes n * numeratorFactor m0 m1) ∧
      d' = toBytes (ofBytes d * denominatorFactor m0 m1) := by
  simp only [multiplyRatio, Result.bind_eq_ok, Result.require_eq_ok, Result.exists_unit,
    Result.pure_eq_ok, requireQualifiedFactor_eq_ok, boundedBytes_eq_ok, Prod.mk.injEq]
  simp only [MAX_BIGINT_BYTES]
  constructor
  · rintro ⟨hn, hd, hq, f, hf, g, hg, hn0, hd0, _, ⟨hnb, rfl⟩, _, ⟨hdb, rfl⟩, rfl, rfl⟩
    obtain ⟨hnum, hden⟩ := scaled_eq hf hg (ofBytes n) (ofBytes d)
    rw [hnum] at hnb ⊢
    rw [hden] at hdb ⊢
    exact ⟨hn, hd, hq, hn0, hd0, hnb, hdb, rfl, rfl⟩
  · rintro ⟨hn, hd, hq, hn0, hd0, hnb, hdb, rfl, rfl⟩
    obtain ⟨f, hf⟩ := exists_decodeMultiplier.mpr hq.1
    obtain ⟨g, hg⟩ := exists_decodeMultiplier.mpr hq.2.1
    obtain ⟨hnum, hden⟩ := scaled_eq hf hg (ofBytes n) (ofBytes d)
    refine ⟨hn, hd, hq, f, hf, g, hg, hn0, hd0, _, ⟨?_, rfl⟩, _, ⟨?_, rfl⟩, ?_, ?_⟩
    · rwa [hnum]
    · rwa [hden]
    · rw [hnum]
    · rw [hden]

/-! ## Pools and payouts in closed form -/

theorem biguintToU64_eq_ok {n : Nat} {x : UInt64} : biguintToU64 n = .ok x ↔ n = x.toNat := by
  simp only [biguintToU64, Result.bind_eq_ok, Result.require_eq_ok, Result.exists_unit,
    Result.pure_eq_ok, ofBytes_toBytes]
  rw [length_toBytes_le_iff (by norm_num), show (256 : Nat) ^ 8 = 2 ^ 64 by norm_num]
  constructor
  · rintro ⟨hlt, rfl⟩
    exact (UInt64.toNat_ofNat_of_lt hlt).symm
  · rintro rfl
    exact ⟨x.toNat_lt, UInt64.ofNat_toNat⟩

/-- The dividend pool never exceeds the backing. -/
theorem dividend_le (q : Nat) {n d : Nat} : q * (d - n) / d ≤ q := by
  apply Nat.div_le_of_le_mul
  rw [Nat.mul_comm d q]
  exact Nat.mul_le_mul_left q (Nat.sub_le d n)

/-- **The split**: it succeeds exactly on a bounded fraction between zero and one, and gives the
floor of the dividend share and the rest. -/
theorem splitPools_eq_ok {q pt dr : UInt64} {n d : List UInt8} :
    splitPools q n d = .ok (pt, dr) ↔
      n.length ≤ 1024 ∧ d.length ≤ 1024 ∧ (ofBytes n ≠ 0 ∧ ofBytes d ≠ 0 ∧ ofBytes n ≤ ofBytes d) ∧
      q.toNat * (ofBytes d - ofBytes n) < 256 ^ 1024 ∧
      dr.toNat = q.toNat * (ofBytes d - ofBytes n) / ofBytes d ∧ q.toNat = pt.toNat + dr.toNat := by
  simp only [splitPools, Result.bind_eq_ok, Result.require_eq_ok, Result.exists_unit,
    Result.pure_eq_ok, Result.okOr_eq_ok, biguintToU64_eq_ok, Checked.subU64_eq_some,
    Prod.mk.injEq]
  rw [MAX_BIGINT_BYTES, length_toBytes_le_iff (by norm_num)]
  constructor
  · rintro ⟨hn, hd, hnd, hlt, dr', hdr, pt', hpt, rfl, rfl⟩
    exact ⟨hn, hd, hnd, hlt, hdr.symm, hpt⟩
  · rintro ⟨hn, hd, hnd, hlt, hdr, hpt⟩
    exact ⟨hn, hd, hnd, hlt, dr, hdr.symm, pt, hpt, rfl, rfl⟩

theorem mulU128_eq_ok {a b c : Nat} : mulU128 a b = .ok c ↔ a * b < 2 ^ 128 ∧ a * b = c := by
  simp only [mulU128, Result.bind_eq_ok, Result.require_eq_ok, Result.exists_unit,
    Result.pure_eq_ok]

theorem subU128_eq_ok {a b c : Nat} : subU128 a b = .ok c ↔ b ≤ a ∧ a - b = c := by
  simp only [subU128, Result.bind_eq_ok, Result.require_eq_ok, Result.exists_unit,
    Result.pure_eq_ok]

/-- A product of two words stays inside `u128`. -/
theorem word_mul_lt (a b : UInt64) : a.toNat * b.toNat < 2 ^ 128 :=
  calc a.toNat * b.toNat < 2 ^ 64 * 2 ^ 64 := Nat.mul_lt_mul'' a.toNat_lt b.toNat_lt
    _ = 2 ^ 128 := by norm_num

/-- The cumulative payout after `b` redeemed claims. -/
def cumulative (b pool supply : Nat) : Nat := b * pool / supply

/-- More burned, more paid in all. -/
theorem cumulative_mono {a b : Nat} (h : a ≤ b) (pool supply : Nat) :
    cumulative a pool supply ≤ cumulative b pool supply :=
  Nat.div_le_div_right (Nat.mul_le_mul_right pool h)

/-- At most the whole pool is paid while at most the supply is redeemed. -/
theorem cumulative_le {b supply : Nat} (h : b ≤ supply) (pool : Nat) :
    cumulative b pool supply ≤ pool := by
  apply Nat.div_le_of_le_mul
  exact Nat.mul_le_mul_right pool h

/-- **The payout**: with a positive supply the call succeeds exactly while the supply is not
exceeded, and pays the difference of two cumulative floors. No intermediate step can overflow,
underflow or fall outside the word. -/
theorem redemptionPayout_eq_ok {before amount pool supply payout : UInt64} (hs : supply ≠ 0) :
    redemptionPayout before amount pool supply = .ok payout ↔
      before.toNat + amount.toNat ≤ supply.toNat ∧
      payout.toNat = cumulative (before.toNat + amount.toNat) pool.toNat supply.toNat -
        cumulative before.toNat pool.toNat supply.toNat := by
  simp only [redemptionPayout, if_neg hs, Result.bind_eq_ok, Result.require_eq_ok,
    Result.exists_unit, Result.pure_eq_ok, Result.okOr_eq_ok, mulU128_eq_ok, subU128_eq_ok,
    Checked.addU64_eq_some]
  constructor
  · rintro ⟨after, hafter, hle, _, ⟨-, rfl⟩, _, ⟨-, rfl⟩, _, ⟨-, rfl⟩, hlt, rfl⟩
    rw [UInt64.le_iff_toNat_le, hafter] at hle
    rw [hafter] at hlt ⊢
    exact ⟨hle, UInt64.toNat_ofNat_of_lt hlt⟩
  · rintro ⟨hle, hpay⟩
    have hsup := supply.toNat_lt
    have hafter : (before + amount).toNat = before.toNat + amount.toNat :=
      Checked.toNat_add_of_lt (by omega)
    refine ⟨before + amount, hafter, ?_, _, ⟨word_mul_lt _ _, rfl⟩, _, ⟨word_mul_lt _ _, rfl⟩, _,
      ⟨?_, rfl⟩, ?_, ?_⟩
    · rw [UInt64.le_iff_toNat_le, hafter]
      exact hle
    · rw [hafter]
      exact cumulative_mono (Nat.le_add_right _ _) _ _
    · rw [hafter]
      exact lt_of_le_of_lt (Nat.sub_le _ _)
        (lt_of_le_of_lt (cumulative_le hle pool.toNat) pool.toNat_lt)
    · rw [hafter]
      simp only [cumulative] at hpay
      rw [← hpay]
      exact UInt64.ofNat_toNat

/-- With no supply nothing is ever redeemed. -/
theorem redemptionPayout_zero_supply {before amount pool payout : UInt64} :
    redemptionPayout before amount pool 0 = .ok payout ↔ amount = 0 ∧ payout = 0 := by
  simp only [redemptionPayout, if_true, Result.bind_eq_ok, Result.require_eq_ok,
    Result.exists_unit, Result.pure_eq_ok, eq_comm (a := (0 : UInt64))]

/-- How a payout fails: the claims would exceed the supply, or their count would leave the
word. The panics and the final conversion never fail. -/
theorem redemptionPayout_eq_error {before amount pool supply : UInt64} {e : ProgramError}
    (h : redemptionPayout before amount pool supply = .error e) :
    supply.toNat < before.toNat + amount.toNat ∧
      (e = .custom .redemptionExceedsSupply ∨ e = .custom .arithmeticOverflow) := by
  by_cases hs : supply = 0
  · subst hs
    have hamount : amount ≠ 0 := by
      intro ha
      rw [redemptionPayout_zero_supply.mpr ⟨ha, rfl⟩] at h
      cases h
    simp only [redemptionPayout, if_true, Result.bind_eq_error, Result.require_eq_error,
      Result.pure_ne_error, and_false, exists_false, or_false] at h
    refine ⟨?_, .inl h.2.symm⟩
    have : amount.toNat ≠ 0 := fun h0 => hamount (UInt64.toNat_inj.mp h0)
    show 0 < _
    omega
  · by_cases hle : before.toNat + amount.toNat ≤ supply.toNat
    · -- inside the supply the call succeeds, so it did not stop
      rw [(@redemptionPayout_eq_ok before amount pool supply (UInt64.ofNat _) hs).mpr
        ⟨hle, UInt64.toNat_ofNat_of_lt (lt_of_le_of_lt (Nat.sub_le _ _)
          (lt_of_le_of_lt (cumulative_le hle pool.toNat) pool.toNat_lt))⟩] at h
      cases h
    · refine ⟨by omega, ?_⟩
      simp only [redemptionPayout, if_neg hs, Result.bind_eq_error, Result.require_eq_error,
        Result.okOr_eq_error, Result.okOr_eq_ok, Result.require_eq_ok, Checked.addU64_eq_some] at h
      rcases h with ⟨-, rfl⟩ | ⟨after, hafter, ⟨-, rfl⟩ | ⟨_, hin, -⟩⟩
      · exact .inr rfl
      · exact .inl rfl
      · rw [UInt64.le_iff_toNat_le, hafter] at hin
        exact absurd hin hle

/-- Inside the supply a payout always exists. -/
theorem exists_redemptionPayout {before amount pool supply : UInt64}
    (hle : before.toNat + amount.toNat ≤ supply.toNat) :
    ∃ payout, redemptionPayout before amount pool supply = .ok payout := by
  refine Result.exists_ok_of_no_error fun e he => ?_
  have hexceeds := (redemptionPayout_eq_error he).1
  omega

end DividendX
