import DividendX.Lib.Decimal
import DividendX.Sdk.Amounts

/-!
# Amounts of the demo as texts

`formatRounded` and `formatUnits` of `index.ts` of the accounting SDK. A raw amount formatted with
all its places is parsed back by `toRawAmount`, whatever zeros were trimmed.
-/

namespace DividendX

namespace Demo

open AnnualReference (textLength decimalParts)
open Decimal (ofInt digits padStart trimZeros write value fraction)

/-- `formatRounded`. -/
def formatRounded (numerator denominator places : Int) (trim : Bool) : Thrown String := do
  demand (¬ (places < 0 ∨ 36 < places)) .invalidAmount
    "Formatting precision must be an integer from 0 to 36"
  let unit ← pow10 places
  let rounded ← quotient (numerator * unit * 2 + denominator) (denominator * 2)
  let whole ← quotient rounded unit
  let padded := padStart places.toNat (ofInt (rounded.tmod unit))
  let fraction := if trim then trimZeros padded else padded
  return String.ofList (if places = 0 then ofInt whole else write (ofInt whole) fraction)

/-- `formatUnits`. -/
def formatUnits (raw decimals : Int) (places : Option Int := none) : Thrown String := do
  assertRaw raw
  demand (¬ (decimals < 0 ∨ 18 < decimals)) .invalidAmount
    "Asset decimals must be an integer from 0 to 18"
  let unit ← pow10 decimals
  formatRounded raw unit (places.getD decimals) places.isNone

/-! ## What is written -/

/-- The text of an amount, every place kept and zeros at the end trimmed. -/
def unitsText (places raw : Nat) : List Char :=
  write (digits (raw / 10 ^ places)) (fraction places raw)

theorem pow10_natCast {places : Nat} (h : places ≤ 36) :
    pow10 places = .ok ((10 ^ places : Nat) : Int) := by
  simp only [pow10, demand]
  rw [Result.require, if_pos (by omega)]
  simp [bind, Except.bind, pure, Except.pure]

/-- Half a unit more is rounded away. -/
theorem rounded_units (raw unit : Nat) (h : 0 < unit) :
    ((raw : Int) * unit * 2 + unit).tdiv (unit * 2) = raw := by
  rw [Int.tdiv_eq_ediv_of_nonneg (by positivity)]
  have hsplit : (raw : Int) * unit * 2 + unit = unit + raw * (unit * 2) := by ring
  rw [hsplit, Int.add_mul_ediv_right _ _ (by positivity),
    Int.ediv_eq_zero_of_lt (by positivity) (by omega), Int.zero_add]

/-- Nothing is rounded at full places. -/
theorem formatRounded_units (raw : Nat) {places : Nat} (h : places ≤ 36) :
    formatRounded raw (10 ^ places : Nat) places true = .ok
      (String.ofList (unitsText places raw)) := by
  have hpos : 0 < 10 ^ places := by positivity
  simp only [formatRounded, Result.bind_eq_ok, Result.exists_unit, demand_eq_ok, Result.pure_eq_ok,
    pow10_natCast h, quotient_eq_ok, Except.ok.injEq]
  refine ⟨by omega, _, rfl, _, ⟨by omega, rounded_units raw _ hpos⟩, _, ⟨by omega, rfl⟩, ?_⟩
  have hwhole : (raw : Int).tdiv (10 ^ places : Nat) = (raw / 10 ^ places : Nat) := rfl
  have hrest : (raw : Int).tmod (10 ^ places : Nat) = (raw % 10 ^ places : Nat) := rfl
  rw [hwhole, hrest, Decimal.ofInt_natCast, Decimal.ofInt_natCast,
    Int.toNat_natCast, if_pos trivial]
  congr 1
  split
  · -- without places no fraction is left to write
    rename_i hzero
    obtain rfl : places = 0 := by omega
    have hfraction : fraction 0 raw = [] :=
      List.length_eq_zero_iff.mp (Nat.le_zero.mp (Decimal.length_fraction_le 0 raw))
    rw [unitsText, hfraction, write, if_pos rfl]
  · rfl

/-- An amount is its whole part and its fraction, without zeros at the end. -/
theorem formatUnits_eq {raw decimals : Nat} (hraw : (raw : Int) ≤ U64_MAX)
    (hdecimals : decimals ≤ 18) :
    formatUnits raw decimals = .ok (String.ofList (unitsText decimals raw)) := by
  simp only [formatUnits, Result.bind_eq_ok, Result.exists_unit, assertRaw_eq_ok, demand_eq_ok,
    pow10_natCast (hdecimals.trans (by decide : 18 ≤ 36)), Except.ok.injEq]
  exact ⟨⟨Int.natCast_nonneg _, hraw⟩, by omega, _, rfl,
    formatRounded_units raw (hdecimals.trans (by decide))⟩

/-! ## What is read -/

/-- What was written splits where it was put together. -/
theorem decimalParts_write {whole fraction : List Char} (hne : whole ≠ [])
    (hwhole : ∀ c ∈ whole, c.isDigit = true) (hfraction : ∀ c ∈ fraction, c.isDigit = true) :
    decimalParts (write whole fraction) = some (whole, fraction) := by
  obtain ⟨c, rest, rfl⟩ := List.exists_cons_of_ne_nil hne
  cases fraction with
  | nil =>
    obtain ⟨htake, hdrop⟩ := Decimal.takeWhile_digits [] hwhole (by simp)
    rw [List.append_nil] at htake hdrop
    rw [write, if_pos rfl, decimalParts, htake, hdrop]
  | cons d fraction =>
    obtain ⟨htake, hdrop⟩ := Decimal.takeWhile_digits ('.' :: d :: fraction) hwhole (by
      rintro _ ⟨⟩
      rfl)
    rw [write, if_neg (List.cons_ne_nil _ _), decimalParts, htake, hdrop]
    exact if_pos ⟨List.cons_ne_nil _ _, List.all_eq_true.mpr hfraction⟩

theorem textLength_plain {text : List Char} (h : ∀ c ∈ text, c.toNat < 0x10000) :
    textLength (String.ofList text) = text.length := by
  rw [textLength, String.toList_ofList]
  induction text with
  | nil => rfl
  | cons c text ih =>
    obtain ⟨hc, htext⟩ := List.forall_mem_cons.mp h
    rw [List.map_cons, List.sum_cons, ih htext, if_pos hc, List.length_cons, Nat.add_comm]

theorem toNat_lt_of_isDigit {c : Char} (h : c.isDigit = true) : c.toNat < 0x10000 := by
  simp only [Char.isDigit, Bool.and_eq_true, decide_eq_true_eq] at h
  have hle : c.toNat ≤ 57 := h.2
  omega

theorem plain_write {whole fraction : List Char} (hwhole : ∀ c ∈ whole, c.isDigit = true)
    (hfraction : ∀ c ∈ fraction, c.isDigit = true) : ∀ c ∈ write whole fraction,
    c.toNat < 0x10000 := by
  intro c hc
  rw [write] at hc
  split at hc
  · exact toNat_lt_of_isDigit (hwhole c hc)
  · rcases List.mem_append.mp hc with hc | hc
    · exact toNat_lt_of_isDigit (hwhole c hc)
    · rcases List.mem_cons.mp hc with rfl | hc
      · decide
      · exact toNat_lt_of_isDigit (hfraction c hc)

/-- The first point of what is written is the one before its fraction. -/
theorem fractionLength_write {whole fraction : List Char} (hwhole : ∀ c ∈ whole, c.isDigit = true)
    (hfraction : ∀ c ∈ fraction, c.isDigit = true) :
    fractionLength (String.ofList (write whole fraction)) = fraction.length := by
  have hpass : ∀ c ∈ whole, (c != '.') = true := by
    intro c hc
    refine bne_iff_ne.mpr ?_
    rintro rfl
    exact absurd (hwhole _ hc) (by decide)
  have htail : ((write whole fraction).dropWhile (· != '.')).tail = fraction := by
    rw [write]
    split
    · rename_i hnil
      rw [List.dropWhile_eq_nil_iff.mpr hpass, hnil]
      rfl
    · rw [List.dropWhile_append_of_pos hpass]
      rfl
  rw [fractionLength, String.toList_ofList, htail]
  exact textLength_plain fun c hc => toNat_lt_of_isDigit (hfraction c hc)

/-- What was written is read as the same number. -/
theorem parseDecimal_write {whole fraction : List Char} (hne : whole ≠ [])
    (hwhole : ∀ c ∈ whole, c.isDigit = true) (hfraction : ∀ c ∈ fraction, c.isDigit = true)
    (hlength : whole.length ≤ 20) (hplaces : fraction.length ≤ 18) :
    parseDecimal (String.ofList (write whole fraction))
      = .ok ⟨Decimal.ofDigits (whole ++ fraction), (10 ^ fraction.length : Nat)⟩ := by
  have htext : textLength (String.ofList (write whole fraction)) = (write whole fraction).length :=
    textLength_plain (plain_write hwhole hfraction)
  have hwritten : 0 < (write whole fraction).length ∧ (write whole fraction).length ≤ 39 := by
    have hpos := List.length_pos_iff.mpr hne
    rw [write]
    split
    · omega
    · rw [List.length_append, List.length_cons]
      omega
  simp only [parseDecimal, Result.bind_eq_ok, Result.exists_unit, demand_eq_ok, Result.okOr_eq_ok,
    String.toList_ofList, decimalParts_write hne hwhole hfraction, htext]
  refine ⟨⟨by omega, hwritten.2.trans (by decide)⟩, _, rfl, by simpa using hplaces, _,
    pow10_natCast (hplaces.trans (by decide)), rfl⟩

theorem factor_one : factor "1" = .ok ⟨1, 1⟩ := by decide +kernel

/-- **A formatted amount is parsed back.** -/
theorem toRawAmount_formatUnits {raw decimals : Nat} (hraw : (raw : Int) ≤ U64_MAX)
    (hdecimals : decimals ≤ 18) :
    (formatUnits raw decimals >>= fun display => toRawAmount display decimals "1")
      = .ok (raw : Int) := by
  have hwhole : ∀ c ∈ digits (raw / 10 ^ decimals), c.isDigit = true :=
    fun _ => Decimal.isDigit_of_mem_digits
  have hfraction : ∀ c ∈ fraction decimals raw, c.isDigit = true :=
    fun _ => Decimal.isDigit_of_mem_fraction
  have hplaces := Decimal.length_fraction_le decimals raw
  have hlength : (digits (raw / 10 ^ decimals)).length ≤ 20 := by
    refine Decimal.length_digits_le (by decide) ((Nat.div_le_self _ _).trans_lt ?_)
    simp only [U64_MAX] at hraw
    omega
  have hparse := parseDecimal_write (Decimal.digits_ne_nil _) hwhole hfraction hlength
    (hplaces.trans hdecimals)
  have hraised : ((Decimal.ofDigits (digits (raw / 10 ^ decimals) ++ fraction decimals raw) : Int)
      * (10 ^ decimals : Nat) * 1).tdiv ((10 ^ (fraction decimals raw).length : Nat) * 1)
        = raw := by
    rw [mul_one, mul_one, ← Nat.cast_mul, Decimal.ofDigits_fraction, Nat.cast_mul]
    exact Int.mul_tdiv_cancel _ (by positivity)
  refine Result.bind_eq_ok.mpr ⟨_, formatUnits_eq hraw hdecimals, ?_⟩
  rw [unitsText]
  simp only [toRawAmount, Result.bind_eq_ok, Result.exists_unit, demand_eq_ok,
    assertRaw_eq_ok, Result.pure_eq_ok, quotient_eq_ok, fractionLength_write hwhole hfraction]
  exact ⟨by omega, by omega, _, hparse, _, factor_one, _,
    pow10_natCast (hdecimals.trans (by decide)), _, ⟨by positivity, hraised⟩,
    ⟨Int.natCast_nonneg _, hraw⟩, rfl⟩

end Demo

end DividendX
