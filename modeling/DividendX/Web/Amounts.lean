import DividendX.Lib.Decimal
import DividendX.Lib.Fraction
import DividendX.Lib.Result
import DividendX.Sdk.Formatting

/-!
# Amounts of the wallet as texts

`wallet/amounts.ts`, and the copies of its formatters in `demos/amounts.ts`. A claim is shown in its
own decimals; a stock is shown after its binary64 multiplier, so its text is cut from the expansion
of a binary rational, and parsing divides by the same rational. Both round down, so a text never
says more than the raw amount it was made from.
-/

namespace DividendX

namespace Web

open Decimal (ofInt ofDigits digits padStart padEnd trimZeros write parts value)

/-- What a call may throw: an `Error`, or an error of the language. -/
inductive Failure
  | error (message : String)
  | rangeError
  deriving DecidableEq

/-- Computations that may throw. -/
abbrev Thrown (α : Type) := Except Failure α

/-- `if (!condition) throw new Error(message)`. -/
def demand (condition : Prop) [Decidable condition] (message : String) : Thrown Unit :=
  Result.require condition (.error message)

@[simp] theorem demand_eq_ok {p : Prop} [Decidable p] {m : String}
    {u : Unit} : demand p m = .ok u ↔ p :=
  Result.require_eq_ok

def MAX_U64 : Int := 2 ^ 64 - 1

/-- `10n ** BigInt(exponent)`. -/
def power10 (exponent : Int) : Thrown Int := do
  Result.require (¬ exponent < 0) .rangeError
  return 10 ^ exponent.toNat

/-- `text.slice(0, end)`: an end below zero counts from the other side. -/
def sliceTo (text : List Char) (stop : Int) : List Char :=
  text.take (if 0 ≤ stop then stop.toNat else (text.length + stop).toNat)

/-- `positiveFiniteBinary64`, with the message of its copy. -/
def finiteBinary64 (message : String) (bits : Int) : Thrown Fraction := do
  let pattern := bits.toNat
  demand (¬ (bits < 0 ∨ MAX_U64 < bits ∨ pattern >>> 63 ≠ 0)) message
  let rawExponent := (pattern >>> 52) &&& 0x7ff
  let fraction := pattern &&& ((1 <<< 52) - 1)
  demand (¬ (rawExponent = 0x7ff ∨ (rawExponent = 0 ∧ fraction = 0))) message
  let significand : Nat := if rawExponent = 0 then fraction else (1 <<< 52) ||| fraction
  let exponent : Int := if rawExponent = 0 then -1074 else (rawExponent : Int) - 1023 - 52
  return if 0 ≤ exponent then ⟨(significand <<< exponent.toNat : Nat), 1⟩
    else ⟨significand, (1 <<< (-exponent).toNat : Nat)⟩

/-- `formatClaim` of both copies. -/
def claimText (raw decimals places : Int) : Thrown String := do
  let divisor ← power10 decimals
  let whole := raw.tdiv divisor
  let fraction :=
    trimZeros (sliceTo (padStart decimals.toNat (ofInt (raw.tmod divisor))) (min decimals places))
  return String.ofList (write (ofInt whole) fraction)

/-- The loop of `formatStock`, for a number of turns. -/
def longDivision (denominator : Int) : Nat → Int → List Char
  | 0, _ => []
  | turns + 1, remainder =>
    if remainder = 0 then []
    else ofInt ((remainder * 10).tdiv denominator)
      ++ longDivision denominator turns ((remainder * 10).tmod denominator)

/-- `formatStock` of both copies, each with its own reading of a multiplier. -/
def stockText (binary64 : Int → Thrown Fraction) (raw decimals multiplierBits places : Int) :
    Thrown String :=
  if raw = 0 then .ok "0"
  else do
    let multiplier ← binary64 multiplierBits
    let unit ← power10 decimals
    let numerator := raw * multiplier.numerator
    let denominator := multiplier.denominator * unit
    let whole := numerator.tdiv denominator
    let fraction := trimZeros (longDivision denominator places.toNat (numerator.tmod denominator))
    return String.ofList
      (if fraction = [] ∧ whole = 0 ∧ 0 < numerator then
        '<' :: '0' :: '.' :: (List.replicate (places - 1).toNat '0' ++ ['1'])
      else write (ofInt whole) fraction)

namespace Wallet

/-- `positiveFiniteBinary64`. -/
def positiveFiniteBinary64 (bits : Int) : Thrown Fraction :=
  finiteBinary64 "Stock multiplier is not a positive finite f64." bits

/-- `parseRawAmount`. -/
def parseRawAmount (value : String) (decimals : Int) : Thrown Int := do
  let (whole, fraction) ← Result.okOr (parts value.toList)
    (.error "Enter a plain positive decimal amount.")
  demand (¬ decimals < fraction.length)
    ("This token supports at most " ++ toString decimals ++ " decimal places.")
  let unit ← power10 decimals
  let raw := ofDigits whole * unit + ofDigits (padEnd decimals.toNat fraction)
  demand (¬ raw ≤ 0) "Amount must be greater than zero."
  demand (¬ MAX_U64 < raw) "Amount exceeds the onchain u64 limit."
  return raw

/-- `formatClaim`. -/
def formatClaim (raw decimals : Int) (places : Int := decimals) : Thrown String :=
  claimText raw decimals places

/-- `formatStock`. -/
def formatStock (raw decimals multiplierBits : Int) (places : Int := 9) : Thrown String :=
  stockText positiveFiniteBinary64 raw decimals multiplierBits places

/-- `parseStockAmount`. -/
def parseStockAmount (value : String) (decimals multiplierBits : Int) : Thrown Int := do
  let (whole, fraction) ← Result.okOr (parts value.toList)
    (.error "Enter a plain positive decimal amount.")
  demand (¬ 18 < fraction.length) "Stock input supports at most 18 decimal places."
  let displayNumerator : Int := ofDigits (whole ++ fraction)
  let displayDenominator : Int := (10 ^ fraction.length : Nat)
  let multiplier ← positiveFiniteBinary64 multiplierBits
  let unit ← power10 decimals
  let raw :=
    (displayNumerator * unit * multiplier.denominator).tdiv
      (displayDenominator * multiplier.numerator)
  demand (¬ raw ≤ 0) "Amount is below one raw stock-token unit."
  demand (¬ MAX_U64 < raw) "Amount exceeds the onchain u64 limit."
  return raw

end Wallet

namespace Demos

/-- `positiveFiniteBinary64`. -/
def positiveFiniteBinary64 (bits : Int) : Thrown Fraction :=
  finiteBinary64 "Invalid stock multiplier." bits

/-- `formatClaim`. -/
def formatClaim (raw decimals : Int) (places : Int := decimals) : Thrown String :=
  claimText raw decimals places

/-- `formatStock`. -/
def formatStock (raw decimals multiplierBits : Int) (places : Int := 9) : Thrown String :=
  stockText positiveFiniteBinary64 raw decimals multiplierBits places

end Demos

/-! ## The two copies -/

/-- A failure with one message replaced. -/
def retold (message message' : String) (failure : Failure) : Failure :=
  if failure = .error message then .error message' else failure

/-- The copies check the same, under their own messages. -/
theorem demand_mapError (p : Prop) [Decidable p] (message message' : String) :
    demand p message' = (demand p message).mapError (retold message message') := by
  simp only [demand, Result.require]
  split
  · rfl
  · simp [Except.mapError, retold]

/-- Retelling goes through a sequence. -/
theorem bind_mapError {α β : Type} (x : Thrown α) (f : α → Thrown β) (tell : Failure → Failure) :
    (x >>= f).mapError tell = x.mapError tell >>= fun a => (f a).mapError tell := by
  cases x <;> rfl

/-- So they take the same multipliers. -/
theorem finiteBinary64_mapError (message message' : String) (bits : Int) :
    finiteBinary64 message' bits = (finiteBinary64 message bits).mapError
      (retold message message') := by
  simp only [finiteBinary64, bind_mapError, ← demand_mapError]
  rfl

/-- The formatter is told its failures by the reading of the multiplier, or by the language. -/
theorem stockText_mapError {binary64 binary64' : Int → Thrown Fraction} {tell : Failure → Failure}
    (h : ∀ bits, binary64' bits = (binary64 bits).mapError tell)
    (hrange : tell .rangeError = .rangeError)
    (raw decimals bits places : Int) :
    stockText binary64' raw decimals bits places
      = (stockText binary64 raw decimals bits places).mapError tell := by
  have hpower : ∀ exponent, power10 exponent = (power10 exponent).mapError tell := by
    intro exponent
    simp only [power10, Result.require]
    split
    · rfl
    · simp [bind, Except.bind, Except.mapError, hrange]
  rw [stockText, stockText]
  split
  · rfl
  · rw [bind_mapError, h]
    simp only [bind_mapError, ← hpower]
    rfl

/-! ## Multipliers -/

theorem finiteBinary64_pos {message : String} {bits : Int} {m : Fraction}
    (h : finiteBinary64 message bits = .ok m) : 0 < m.numerator ∧ 0 < m.denominator := by
  simp only [finiteBinary64, Result.bind_eq_ok, Result.exists_unit,
    demand_eq_ok, Result.pure_eq_ok] at h
  obtain ⟨-, hfinite, rfl⟩ := h
  generalize (bits.toNat >>> 52) &&& 0x7ff = rawExponent at hfinite ⊢
  generalize bits.toNat &&& ((1 <<< 52) - 1) = fraction at hfinite ⊢
  have hsignificand : 0 < (if rawExponent = 0 then fraction else (1 <<< 52) ||| fraction) := by
    split
    · omega
    · exact lt_of_lt_of_le (by decide) Nat.left_le_or
  generalize (if rawExponent = 0 then fraction else (1 <<< 52) ||| fraction)
    = significand at hsignificand ⊢
  generalize (if rawExponent = 0 then (-1074 : Int) else (rawExponent : Int) - 1023 - 52) = exponent
  split
  · exact ⟨by rw [Nat.shiftLeft_eq]; positivity, Int.one_pos⟩
  · exact ⟨Int.natCast_pos.mpr hsignificand, by rw [Nat.shiftLeft_eq]; positivity⟩

/-- Every pattern of a positive finite number is read. -/
theorem finiteBinary64_total (message : String) {bits : Int} (hpos : 0 < bits)
    (hlt : bits < 0x7ff0000000000000) :
    ∃ m, finiteBinary64 message bits = .ok m := by
  obtain ⟨pattern, rfl⟩ := Int.eq_ofNat_of_zero_le hpos.le
  have hexponent : (pattern >>> 52) &&& 0x7ff = pattern / 2 ^ 52 := by
    rw [Nat.shiftRight_eq_div_pow, (Nat.and_two_pow_sub_one_eq_mod _ 11 : _ &&& 0x7ff = _),
      Nat.mod_eq_of_lt]
    omega
  have hfraction : pattern &&& ((1 <<< 52) - 1) = pattern % 2 ^ 52 :=
    Nat.and_two_pow_sub_one_eq_mod _ 52
  have hsign : pattern >>> 63 = 0 := by
    rw [Nat.shiftRight_eq_div_pow]
    omega
  simp only [finiteBinary64, Result.bind_eq_ok, Result.exists_unit, demand_eq_ok, Result.pure_eq_ok,
    Int.toNat_natCast, hexponent, hfraction, hsign]
  exact ⟨_, by simp only [MAX_U64]; omega, by omega, rfl⟩

/-! ## Claims -/

theorem power10_natCast (n : Nat) : power10 n = .ok ((10 ^ n : Nat) : Int) := by
  simp only [power10, Result.bind_eq_ok, Result.exists_unit, Result.require_eq_ok,
    Result.pure_eq_ok, Int.toNat_natCast, Nat.cast_pow, Nat.cast_ofNat]
  exact ⟨by omega, trivial⟩

/-- The places that are kept. -/
def keptPlaces (decimals : Nat) (places : Int) : Nat :=
  if 0 ≤ min (decimals : Int) places then (min (decimals : Int) places).toNat
  else (decimals + min (decimals : Int) places).toNat

/-- No more places are kept than there are. -/
theorem keptPlaces_le (decimals : Nat) (places : Int) : keptPlaces decimals places ≤ decimals := by
  rw [keptPlaces]
  split <;> omega

/-- The digits behind the point that are shown. -/
def shownFraction (raw decimals kept : Nat) : List Char :=
  trimZeros ((padStart decimals (digits (raw % 10 ^ decimals))).take kept)

theorem isDigit_of_mem_shownFraction {raw decimals kept : Nat} {c : Char}
    (h : c ∈ shownFraction raw decimals kept) :
    c.isDigit = true :=
  Decimal.isDigit_of_mem_padStart (fun _ => Decimal.isDigit_of_mem_digits) c
    (List.mem_of_mem_take (Decimal.mem_of_mem_trimZeros h))

theorem length_shownFraction_le (raw decimals kept : Nat) :
    (shownFraction raw decimals kept).length ≤ kept :=
  (Decimal.length_trimZeros_le _).trans (List.length_take_le _ _)

/-- The places that are kept are the first ones. -/
theorem sliceTo_padStart (raw decimals : Nat) (places : Int) :
    sliceTo (padStart decimals (digits (raw % 10 ^ decimals))) (min decimals places)
      = (padStart decimals (digits (raw % 10 ^ decimals))).take (keptPlaces decimals places) := by
  rw [sliceTo, keptPlaces]
  split
  · rfl
  · rename_i hneg
    rcases Nat.eq_zero_or_pos decimals with rfl | hpos
    · -- without decimals the padded text is the digit zero, which no end keeps
      have hlength : (padStart 0 (digits (raw % 10 ^ 0))).length = 1 := by
        rw [pow_zero, Nat.mod_one]
        rfl
      rw [hlength]
      congr 1
      omega
    · have hdigits := Decimal.length_digits_le hpos (Nat.mod_lt raw (by positivity))
      rw [Decimal.length_padStart hdigits]

/-- The text of an amount, cut after the places that are kept. -/
theorem claimText_eq (raw decimals : Nat) (places : Int) :
    claimText raw decimals places
      = .ok (String.ofList (write (digits (raw / 10 ^ decimals))
        (shownFraction raw decimals (keptPlaces decimals places)))) := by
  have hwhole : (raw : Int).tdiv (10 ^ decimals : Nat) = (raw / 10 ^ decimals : Nat) := rfl
  have hrest : (raw : Int).tmod (10 ^ decimals : Nat) = (raw % 10 ^ decimals : Nat) := rfl
  simp only [claimText, Result.bind_eq_ok, power10_natCast, Except.ok.injEq, Result.pure_eq_ok]
  refine ⟨_, rfl, ?_⟩
  rw [hwhole, hrest, Decimal.ofInt_natCast, Decimal.ofInt_natCast,
    Int.toNat_natCast, sliceTo_padStart]
  rfl

/-- The shown digits, filled up again, are the kept part of the fraction. -/
theorem ofDigits_padEnd_shownFraction (raw decimals : Nat) {kept : Nat} (h : kept ≤ decimals) :
    ofDigits (padEnd decimals (shownFraction raw decimals kept))
      = raw % 10 ^ decimals / 10 ^ (decimals - kept) * 10 ^ (decimals - kept) := by
  rcases Nat.eq_zero_or_pos decimals with rfl | hpos
  · obtain rfl := Nat.le_zero.mp h
    rw [shownFraction, List.take_zero, pow_zero, Nat.mod_one]
    rfl
  · have hdigits := Decimal.length_digits_le hpos (Nat.mod_lt raw (by positivity))
    have hpadded := Decimal.length_padStart hdigits
    have htaken : ((padStart decimals (digits (raw % 10 ^ decimals))).take kept).length = kept := by
      rw [List.length_take, hpadded, Nat.min_eq_left h]
    rw [shownFraction, Decimal.ofDigits_padEnd_trimZeros (htaken.le.trans h), htaken,
      Decimal.ofDigits_take
        (Decimal.isDigit_of_mem_padStart fun _ => Decimal.isDigit_of_mem_digits), hpadded,
      Decimal.ofDigits_padStart, Decimal.ofDigits_digits]

namespace Wallet

/-- What is left of an amount when places are cut. -/
def cut (raw decimals kept : Nat) : Nat :=
  raw / 10 ^ decimals * 10 ^ decimals + raw % 10 ^ decimals / 10 ^ (decimals - kept)
    * 10 ^ (decimals - kept)

theorem cut_le (raw decimals kept : Nat) : cut raw decimals kept ≤ raw :=
  calc cut raw decimals kept ≤ raw / 10 ^ decimals * 10 ^ decimals + raw % 10 ^ decimals :=
        Nat.add_le_add_left (Nat.div_mul_le_self _ _) _
    _ = raw := Nat.div_add_mod' raw (10 ^ decimals)

/-- Nothing is cut at full places. -/
theorem cut_all (raw decimals : Nat) : cut raw decimals decimals = raw := by
  rw [cut, Nat.sub_self, pow_zero, Nat.div_one, Nat.mul_one]
  exact Nat.div_add_mod' raw (10 ^ decimals)

/-- **A shown claim is parsed** as what its places keep of it. -/
theorem parseRawAmount_formatClaim {raw decimals : Nat} {places parsed : Int} :
    (formatClaim raw decimals places >>= fun text => parseRawAmount text decimals) = .ok parsed
      ↔ (0 < cut raw decimals (keptPlaces decimals places)
          ∧ (cut raw decimals (keptPlaces decimals places) : Int) ≤ MAX_U64)
        ∧ (cut raw decimals (keptPlaces decimals places) : Int) = parsed := by
  have hkept := keptPlaces_le decimals places
  generalize hk : keptPlaces decimals places = kept at hkept
  have hparts : parts (write (digits (raw / 10 ^ decimals)) (shownFraction raw decimals kept))
      = some (digits (raw / 10 ^ decimals), shownFraction raw decimals kept) :=
    Decimal.parts_write (Decimal.digits_ne_nil _) (fun _ => Decimal.isDigit_of_mem_digits)
      fun _ => isDigit_of_mem_shownFraction
  have hlength := (length_shownFraction_le raw decimals kept).trans hkept
  have hsum : (ofDigits (digits (raw / 10 ^ decimals)) : Int) * (10 ^ decimals : Nat)
      + ofDigits (padEnd decimals (shownFraction raw decimals kept)) = cut raw decimals kept := by
    rw [ofDigits_padEnd_shownFraction raw decimals hkept, Decimal.ofDigits_digits, cut]
    push_cast
    rfl
  rw [formatClaim, claimText_eq, hk]
  change parseRawAmount _ _ = _ ↔ _
  simp only [parseRawAmount, Result.bind_eq_ok, Result.exists_unit,
    Result.okOr_eq_ok, String.toList_ofList, hparts,
    demand_eq_ok, power10_natCast, Except.ok.injEq, Option.some.injEq, Result.pure_eq_ok]
  constructor
  · rintro ⟨_, rfl, -, _, rfl, hpos, hmax, rfl⟩
    rw [Int.toNat_natCast, hsum] at *
    exact ⟨⟨by omega, by omega⟩, rfl⟩
  · rintro ⟨⟨hpos, hmax⟩, rfl⟩
    refine ⟨_, rfl, not_lt.mpr (by exact_mod_cast hlength), _, rfl, ?_⟩
    rw [Int.toNat_natCast, hsum]
    exact ⟨by omega, by omega, rfl⟩

end Wallet

/-! ## Stocks -/

/-- One turn of the loop of two numbers. -/
theorem longDivision_succ (denominator turns remainder : Nat) :
    longDivision denominator (turns + 1) remainder
      = if remainder = 0 then []
        else digits (remainder * 10 / denominator)
          ++ longDivision denominator turns (remainder * 10 % denominator : Nat) := by
  rw [longDivision]
  have hzero : (remainder : Int) = 0 ↔ remainder = 0 := Int.natCast_eq_zero
  have hdigit : ((remainder : Int) * 10).tdiv denominator
      = (remainder * 10 / denominator : Nat) := rfl
  have hrest : ((remainder : Int) * 10).tmod denominator
      = (remainder * 10 % denominator : Nat) := rfl
  rw [hdigit, hrest, Decimal.ofInt_natCast]
  simp only [hzero]

/-- **The loop** cuts the expansion of the remainder's part. -/
theorem longDivision_le {denominator : Nat} (turns : Nat) {remainder : Nat}
    (h : remainder < denominator) :
    (∀ c ∈ longDivision denominator turns remainder, c.isDigit = true)
      ∧ value [] (longDivision denominator turns remainder) ≤ (remainder : ℚ) / denominator := by
  have hnil (rest : Nat) : value [] [] ≤ (rest : ℚ) / denominator := by
    rw [value, List.append_nil, Decimal.ofDigits_nil, Nat.cast_zero, zero_div]
    positivity
  induction turns generalizing remainder with
  | zero => exact ⟨List.forall_mem_nil _, hnil _⟩
  | succ turns ih =>
    rw [longDivision_succ]
    split
    · exact ⟨List.forall_mem_nil _, hnil _⟩
    · have hpos : 0 < denominator := by omega
      have hdigit : remainder * 10 / denominator < 10 := Nat.div_lt_of_lt_mul (by omega)
      have hrest := Nat.mod_lt (remainder * 10) hpos
      obtain ⟨hdigits, hvalue⟩ := ih hrest
      refine ⟨fun c hc => ?_, ?_⟩
      · rcases List.mem_append.mp hc with hc | hc
        · exact Decimal.isDigit_of_mem_digits hc
        · exact hdigits c hc
      · have hsplit : (denominator : ℚ) * (remainder * 10 / denominator : Nat)
            + (remainder * 10 % denominator : Nat)
            = remainder * 10 := by exact_mod_cast Nat.div_add_mod (remainder * 10) denominator
        have hposQ : (0 : ℚ) < denominator := by exact_mod_cast hpos
        rw [Decimal.value_digit_append hdigit, div_le_div_iff₀ (by norm_num) hposQ]
        rw [le_div_iff₀ hposQ] at hvalue
        linarith

/-- A text that is no number, or says no more than a bound. -/
def Shown (bound : ℚ) (text : String) : Prop :=
  text.toList.head? = some '<' ∨ ∃ whole fraction : List Char, whole ≠ []
    ∧ (∀ c ∈ whole, c.isDigit = true) ∧ (∀ c ∈ fraction, c.isDigit = true)
    ∧ text = String.ofList (write whole fraction) ∧ value whole fraction ≤ bound

/-- A number of stock tokens, cut after some places, says no more than the number. -/
theorem shown_quotient (numerator : Nat) {denominator : Nat} (h : 0 < denominator) (places : Nat) :
    Shown ((numerator : ℚ) / denominator) (String.ofList (write (digits (numerator / denominator))
      (trimZeros (longDivision denominator places (numerator % denominator : Nat))))) := by
  obtain ⟨hdigits, hvalue⟩ := longDivision_le places (Nat.mod_lt numerator h)
  refine .inr ⟨_, _, Decimal.digits_ne_nil _, fun _ => Decimal.isDigit_of_mem_digits,
    fun c hc => hdigits c (Decimal.mem_of_mem_trimZeros hc), rfl, ?_⟩
  have hpos : (0 : ℚ) < denominator := by exact_mod_cast h
  have hsplit : (denominator : ℚ) * (numerator / denominator : Nat)
      + (numerator % denominator : Nat) = numerator := by
    exact_mod_cast Nat.div_add_mod numerator denominator
  rw [Decimal.value_trimZeros, Decimal.value_eq, Decimal.ofDigits_digits, le_div_iff₀ hpos, add_mul]
  rw [le_div_iff₀ hpos] at hvalue
  linarith

/-- **What is shown of a stock.** -/
theorem stockText_shown {binary64 : Int → Thrown Fraction} {bits : Int}
    {m : Fraction} (hm : binary64 bits = .ok m)
    (hnumerator : 0 < m.numerator) (hdenominator : 0 < m.denominator)
    (raw decimals : Nat) (places : Int) :
    ∃ text, stockText binary64 raw decimals bits places = .ok text
      ∧ Shown (raw * m.numerator / (m.denominator * 10 ^ decimals)) text := by
  obtain ⟨numerator, denominator⟩ := m
  obtain ⟨a, rfl⟩ := Int.eq_ofNat_of_zero_le hnumerator.le
  obtain ⟨b, rfl⟩ := Int.eq_ofNat_of_zero_le hdenominator.le
  rw [stockText]
  split
  · refine ⟨"0", rfl,
      .inr ⟨['0'], [], by decide, List.forall_mem_singleton.mpr (by decide), List.forall_mem_nil _,
      rfl, ?_⟩⟩
    have hzero : value ['0'] [] = 0 := by norm_num [value, ofDigits, Nat.ofDigitChars]
    rw [hzero]
    positivity
  · have hpos : 0 < b * 10 ^ decimals :=
      Nat.mul_pos (Int.natCast_pos.mp hdenominator) (by positivity)
    have hn : (raw : Int) * (a : Int) = (raw * a : Nat) := (Nat.cast_mul raw a).symm
    have hd : (b : Int) * (10 ^ decimals : Nat) = (b * 10 ^ decimals : Nat) :=
      (Nat.cast_mul b _).symm
    have hwhole : ((raw * a : Nat) : Int).tdiv (b * 10 ^ decimals : Nat)
        = (raw * a / (b * 10 ^ decimals) : Nat) := rfl
    have hrest : ((raw * a : Nat) : Int).tmod (b * 10 ^ decimals : Nat)
        = (raw * a % (b * 10 ^ decimals) : Nat) := rfl
    simp only [hm, power10_natCast, bind, Except.bind, pure, Except.pure]
    rw [hn, hd, hwhole, hrest, Decimal.ofInt_natCast]
    refine ⟨_, rfl, ?_⟩
    split
    · exact .inl (by rw [String.toList_ofList, List.head?_cons])
    · have hshown := shown_quotient (raw * a) hpos places.toNat
      rw [Nat.cast_mul, Nat.cast_mul, Nat.cast_pow] at hshown
      exact hshown

namespace Wallet

/-- **Parsing what is shown** gives no more than it was shown for. -/
theorem parseStockAmount_le {raw decimals : Nat} {bits parsed : Int} {m : Fraction} {text : String}
    (hm : positiveFiniteBinary64 bits = .ok m)
    (hshown : Shown (raw * m.numerator / (m.denominator * 10 ^ decimals)) text)
    (h : parseStockAmount text decimals bits = .ok parsed) : parsed ≤ raw := by
  obtain ⟨hnumerator, hdenominator⟩ := finiteBinary64_pos hm
  simp only [parseStockAmount, Result.bind_eq_ok, Result.exists_unit,
    Result.okOr_eq_ok, demand_eq_ok, hm, power10_natCast, Except.ok.injEq, Result.pure_eq_ok] at h
  obtain ⟨⟨whole, fraction⟩, hparts, -, _, rfl, _, rfl, -, -, rfl⟩ := h
  rcases hshown with hless | ⟨whole', fraction', hne, hwhole, hfraction, rfl, hvalue⟩
  · -- a text that begins so has no digits at its start
    obtain ⟨rest, hrest⟩ : ∃ rest, text.toList = '<' :: rest := List.head?_eq_some_iff.mp hless
    rw [hrest] at hparts
    exact absurd hparts (by simp [parts])
  · rw [String.toList_ofList, Decimal.parts_write hne hwhole hfraction] at hparts
    obtain ⟨rfl, rfl⟩ := Prod.mk.inj (Option.some.inj hparts)
    have hpos : (0 : ℚ) < m.denominator * 10 ^ decimals :=
      mul_pos (by exact_mod_cast hdenominator) (by positivity)
    rw [value, div_le_div_iff₀ (by positivity) hpos] at hvalue
    have hproduct : (ofDigits (whole' ++ fraction') : Int) * (10 ^ decimals : Nat) * m.denominator
        ≤ raw * ((10 ^ fraction'.length : Nat) * m.numerator) := by
      have hcast :
          ((ofDigits (whole' ++ fraction') : Int) * (10 ^ decimals : Nat) * m.denominator : ℚ)
          ≤ (raw : ℚ) * ((10 ^ fraction'.length : Nat) * m.numerator) := by
        push_cast
        linarith
      exact_mod_cast hcast
    rw [Int.tdiv_eq_ediv_of_nonneg (by positivity)]
    exact Int.ediv_le_of_le_mul (by positivity) hproduct

end Wallet

/-- **No text inflates an amount.** A formatted raw amount is parsed back; so is a claim shown in
all its places, and a claim shown in fewer is parsed, if at all, as no more; a stock shown after any
positive finite multiplier is parsed, if at all, as no more; and the copies of the formatters are
the wallet's, but for the message of a multiplier they refuse. -/
theorem amount_texts_never_inflate :
    (∀ raw decimals : Nat, raw < 2 ^ 64 → decimals ≤ 18 →
        (Demo.formatUnits raw decimals >>= fun display => Demo.toRawAmount display decimals "1")
          = .ok (raw : Int))
      ∧ (∀ raw decimals : Nat, 0 < raw → raw < 2 ^ 64 → decimals ≤ 18 →
        (Wallet.formatClaim raw decimals >>= fun text => Wallet.parseRawAmount text decimals)
          = .ok (raw : Int)
          ∧ ∀ places parsed, (Wallet.formatClaim raw decimals places >>= fun text =>
              Wallet.parseRawAmount text decimals) = .ok parsed → parsed ≤ raw)
      ∧ (∀ (raw decimals : Nat) (bits places : Int), raw < 2 ^ 64 → decimals ≤ 18 → 0 < bits →
        bits < 0x7ff0000000000000 → ∃ text, Wallet.formatStock raw decimals bits places = .ok text
          ∧ ∀ parsed, Wallet.parseStockAmount text decimals bits = .ok parsed → parsed ≤ raw)
      ∧ (∀ raw decimals places,
        Demos.formatClaim raw decimals places = Wallet.formatClaim raw decimals places)
      ∧ ∀ raw decimals bits places, Demos.formatStock raw decimals bits places
          = (Wallet.formatStock raw decimals bits places).mapError
            (retold "Stock multiplier is not a positive finite f64."
              "Invalid stock multiplier.") := by
  refine ⟨?_, ?_, ?_, fun _ _ _ => rfl, ?_⟩
  · intro raw decimals hraw hdecimals
    refine Demo.toRawAmount_formatUnits ?_ hdecimals
    simp only [Demo.U64_MAX]
    omega
  · intro raw decimals hpos hraw hdecimals
    constructor
    · have hkept : Web.keptPlaces decimals decimals = decimals := by
        rw [keptPlaces]
        split <;> omega
      rw [Wallet.parseRawAmount_formatClaim, hkept, Wallet.cut_all]
      refine ⟨⟨hpos, ?_⟩, rfl⟩
      simp only [MAX_U64]
      omega
    · intro places parsed h
      obtain ⟨-, rfl⟩ := Wallet.parseRawAmount_formatClaim.mp h
      exact_mod_cast Wallet.cut_le raw decimals _
  · intro raw decimals bits places hraw hdecimals hpos hlt
    obtain ⟨m, hm⟩ := finiteBinary64_total "Stock multiplier is not a positive finite f64." hpos hlt
    obtain ⟨hnumerator, hdenominator⟩ := finiteBinary64_pos hm
    obtain ⟨text, htext, hshown⟩ := stockText_shown hm hnumerator hdenominator raw decimals places
    exact ⟨text, htext, fun parsed => Wallet.parseStockAmount_le hm hshown⟩
  · exact stockText_mapError (finiteBinary64_mapError _ _) rfl

theorem amount_texts_never_inflate_sample :
    (Wallet.formatClaim 1_234_500 6 >>= fun text => Wallet.parseRawAmount text 6) = .ok 1_234_500
      ∧ ∃ text, Wallet.formatStock 3 8 0x3ff5555555555555 12 = .ok text
        ∧ ∀ parsed, Wallet.parseStockAmount text 8 0x3ff5555555555555 = .ok parsed → parsed ≤ 3 :=
  ⟨(amount_texts_never_inflate.2.1 1_234_500 6 (by decide) (by decide) (by decide)).1,
    amount_texts_never_inflate.2.2.1 3 8 0x3ff5555555555555 12 (by decide)
      (by decide) (by decide) (by decide)⟩

/-- An amount below every shown place is told as a bound, which is no input. -/
example : (Wallet.formatStock 1 18 0x3ff0000000000000 = .ok "<0.000000001")
    ∧ Wallet.formatStock 150 2 0x3ff8000000000000 = .ok "2.25" := by decide +kernel

/-- A multiplier of zero is refused with two messages, and of a claim without its places nothing may
be left. -/
theorem copies_refuse_apart :
    Demos.formatStock 1 0 0 ≠ Wallet.formatStock 1 0 0
      ∧ (Wallet.formatClaim 1 2 0 >>= fun text => Wallet.parseRawAmount text 2)
        = .error (.error "Amount must be greater than zero.") := by
  decide +kernel

end Web

end DividendX
