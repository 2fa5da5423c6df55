import Mathlib.Algebra.Order.Field.Rat
import Mathlib.Data.List.DropRight
import Mathlib.Tactic.FieldSimp
import Mathlib.Tactic.Linarith
import Mathlib.Tactic.Positivity
import Mathlib.Tactic.Ring

/-!
# Plain decimal texts

A plain decimal is a group of digits, and a point with a second group when there is a fraction
(`write`). Its value is a rational (`value`), which zeros at the end of the fraction do not change
(`value_trimZeros`), and reading what is written gives the two groups back (`parts_write`).
-/

namespace Decimal

/-- The number of some digits. -/
def ofDigits (digits : List Char) : Nat := Nat.ofDigitChars 10 digits 0

/-- The digits of a number. -/
def digits (n : Nat) : List Char := Nat.toDigits 10 n

/-- The text of an integer. -/
def ofInt (n : Int) : List Char := (toString n).toList

/-- Zeros in front, up to a length. -/
def padStart (length : Nat) (text : List Char) : List Char :=
  List.replicate (length - text.length) '0' ++ text

/-- Zeros behind, up to a length. -/
def padEnd (length : Nat) (text : List Char) : List Char :=
  text ++ List.replicate (length - text.length) '0'

/-- No zeros at the end. -/
def trimZeros (text : List Char) : List Char := text.rdropWhile (· = '0')

/-- The text of two groups of digits. -/
def write (whole fraction : List Char) : List Char :=
  if fraction = [] then whole else whole ++ '.' :: fraction

/-- The two groups of a text, a point at the end allowed. -/
def parts (text : List Char) : Option (List Char × List Char) :=
  let whole := text.takeWhile Char.isDigit
  match whole, text.dropWhile Char.isDigit with
  | [], _ => none
  | _ :: _, [] => some (whole, [])
  | _ :: _, '.' :: fraction => if fraction.all Char.isDigit then some (whole, fraction) else none
  | _ :: _, _ :: _ => none

/-- The value of two groups of digits. -/
def value (whole fraction : List Char) : ℚ :=
  (ofDigits (whole ++ fraction) : ℚ) / 10 ^ fraction.length

/-! ## Digits -/

/-- The digits on the left are worth a power of ten more. -/
theorem ofDigits_append (left right : List Char) :
    ofDigits (left ++ right) = ofDigits left * 10 ^ right.length + ofDigits right := by
  rw [ofDigits, Nat.ofDigitChars_append, Nat.ofDigitChars_eq_ofDigitChars_zero, Nat.mul_comm]
  rfl

@[simp] theorem ofDigits_nil : ofDigits [] = 0 := rfl

@[simp] theorem ofDigits_zeros (n : Nat) : ofDigits (List.replicate n '0') = 0 := by
  rw [ofDigits, Nat.ofDigitChars_replicate_zero, Nat.mul_zero]

@[simp] theorem ofDigits_digits (n : Nat) : ofDigits (digits n) = n := Nat.ofDigitChars_ten_toDigits

@[simp] theorem ofInt_natCast (n : Nat) : ofInt n = digits n := Nat.toList_repr

theorem isDigit_of_mem_digits {n : Nat} {c : Char} (h : c ∈ digits n) : c.isDigit = true :=
  Nat.isDigit_of_mem_toDigits (by decide) (by decide) h

theorem digits_ne_nil (n : Nat) : digits n ≠ [] := Nat.toDigits_ne_nil

/-- A number below a power of ten has few digits. -/
theorem length_digits_le {n k : Nat} (hk : 0 < k) (h : n < 10 ^ k) : (digits n).length ≤ k :=
  (Nat.length_toDigits_le_iff (by decide) hk).mpr h

/-- Few digits make a small number. -/
theorem ofDigits_lt {text : List Char} (h : ∀ c ∈ text, c.isDigit = true) :
    ofDigits text < 10 ^ text.length := by
  induction text with
  | nil => exact Nat.one_pos
  | cons c text ih =>
    obtain ⟨hc, htext⟩ := List.forall_mem_cons.mp h
    have hrest := ih htext
    have hdigit : ofDigits [c] < 10 := by
      simp only [Char.isDigit, Bool.and_eq_true, decide_eq_true_eq] at hc
      have hle : c.toNat ≤ 57 := hc.2
      change 10 * 0 + (c.toNat - 48) < 10
      omega
    rw [← List.singleton_append, ofDigits_append, List.singleton_append, List.length_cons, pow_succ]
    nlinarith

/-- The first digits of some are these divided by a power of ten. -/
theorem ofDigits_take {text : List Char} (h : ∀ c ∈ text, c.isDigit = true) (k : Nat) :
    ofDigits (text.take k) = ofDigits text / 10 ^ (text.length - k) := by
  have hsplit := ofDigits_append (text.take k) (text.drop k)
  have hlt : ofDigits (text.drop k) < 10 ^ (text.drop k).length :=
    ofDigits_lt fun c hc => h c (List.mem_of_mem_drop hc)
  rw [List.take_append_drop, List.length_drop] at hsplit
  rw [List.length_drop] at hlt
  rw [hsplit, Nat.mul_comm, Nat.mul_add_div (by positivity), Nat.div_eq_of_lt hlt, Nat.add_zero]

@[simp] theorem ofDigits_padStart (length : Nat) (text : List Char) :
    ofDigits (padStart length text) = ofDigits text := by
  rw [padStart, ofDigits_append, ofDigits_zeros, Nat.zero_mul, Nat.zero_add]

/-- Zeros at the end multiply. -/
theorem ofDigits_padEnd (length : Nat) (text : List Char) :
    ofDigits (padEnd length text) = ofDigits text * 10 ^ (length - text.length) := by
  rw [padEnd, ofDigits_append, ofDigits_zeros, List.length_replicate, Nat.add_zero]

/-- A text is padded to the length asked for. -/
theorem length_padStart {length : Nat} {text : List Char} (h : text.length ≤ length) :
    (padStart length text).length = length := by
  rw [padStart, List.length_append, List.length_replicate]
  omega

theorem isDigit_of_mem_padStart {length : Nat} {text : List Char}
    (h : ∀ c ∈ text, c.isDigit = true) :
    ∀ c ∈ padStart length text, c.isDigit = true := by
  intro c hc
  rcases List.mem_append.mp hc with hzero | htext
  · rw [List.eq_of_mem_replicate hzero]
    rfl
  · exact h c htext

/-! ## Zeros at the end -/

/-- What is trimmed are zeros. -/
theorem trimZeros_append (text : List Char) :
    ∃ n, text = trimZeros text ++ List.replicate n '0' := by
  refine ⟨(text.rtakeWhile (· = '0')).length, ?_⟩
  have hzeros : text.rtakeWhile (· = '0') = List.replicate
      (text.rtakeWhile (· = '0')).length '0' := by
    refine List.eq_replicate_of_mem fun c hc => ?_
    simpa using List.mem_rtakeWhile_imp hc
  rw [← hzeros]
  exact List.rdropWhile_append_rtakeWhile.symm

/-- Trimming adds no character. -/
theorem mem_of_mem_trimZeros {text : List Char} {c : Char} (h : c ∈ trimZeros text) : c ∈ text :=
  (List.rdropWhile_prefix _ text).subset h

theorem length_trimZeros_le (text : List Char) : (trimZeros text).length ≤ text.length :=
  (List.rdropWhile_prefix _ text).length_le

/-- **Trimming keeps the value.** -/
theorem value_trimZeros (whole fraction : List Char) :
    value whole (trimZeros fraction) = value whole fraction := by
  obtain ⟨n, hfraction⟩ := trimZeros_append fraction
  generalize trimZeros fraction = trimmed at hfraction
  subst hfraction
  rw [value, value, ← List.append_assoc, ofDigits_append (whole ++ trimmed),
    ofDigits_zeros, List.length_append,
    List.length_replicate, Nat.add_zero, pow_add, Nat.cast_mul, Nat.cast_pow, Nat.cast_ofNat]
  rw [mul_div_mul_right _ _ (by positivity)]

/-- Filling up again what was trimmed. -/
theorem ofDigits_padEnd_trimZeros {length : Nat} {text : List Char} (h : text.length ≤ length) :
    ofDigits (padEnd length (trimZeros text)) = ofDigits text * 10 ^ (length - text.length) := by
  obtain ⟨n, htext⟩ := trimZeros_append text
  generalize trimZeros text = trimmed at htext
  subst htext
  rw [List.length_append, List.length_replicate] at h
  rw [ofDigits_padEnd, ofDigits_append, ofDigits_zeros, List.length_append,
    List.length_replicate, Nat.add_zero,
    Nat.mul_assoc, ← pow_add]
  congr 2
  omega

/-! ## Values -/

/-- A decimal is its whole part and its fraction. -/
theorem value_eq (whole fraction : List Char) :
    value whole fraction = ofDigits whole + value [] fraction := by
  rw [value, value, ofDigits_append, List.nil_append]
  push_cast
  field_simp

/-- A digit more in front of a fraction. -/
theorem value_digit_append {digit : Nat} (h : digit < 10) (fraction : List Char) :
    value [] (digits digit ++ fraction) = (digit + value [] fraction) / 10 := by
  have hlength : (digits digit).length = 1 := by
    rw [digits, Nat.toDigits_of_lt_base h]
    rfl
  rw [value, value, List.nil_append, List.nil_append, ofDigits_append,
    ofDigits_digits, List.length_append, hlength, pow_add]
  push_cast
  field_simp

/-- The digits behind the point of a number of units of `10 ^ -places`. -/
def fraction (places n : Nat) : List Char := trimZeros (padStart places (digits (n % 10 ^ places)))

/-- A fraction is written in digits. -/
theorem isDigit_of_mem_fraction {places n : Nat} {c : Char}
    (h : c ∈ fraction places n) : c.isDigit = true :=
  isDigit_of_mem_padStart (fun _ => isDigit_of_mem_digits) c (mem_of_mem_trimZeros h)

/-- It has no more places than asked for. -/
theorem length_fraction_le (places n : Nat) : (fraction places n).length ≤ places := by
  rcases Nat.eq_zero_or_pos places with rfl | hplaces
  · -- without places there is the digit zero, and it is trimmed
    rw [fraction, pow_zero, Nat.mod_one]
    decide
  · refine (length_trimZeros_le _).trans (length_padStart ?_).le
    exact length_digits_le hplaces (Nat.mod_lt _ (by positivity))

/-- **A number of units**, written with its point. -/
theorem value_fraction (places n : Nat) :
    value (digits (n / 10 ^ places)) (fraction places n) = (n : ℚ) / 10 ^ places := by
  have hsplit : ((n / 10 ^ places : Nat) : ℚ) * 10 ^ places + (n % 10 ^ places : Nat) = n := by
    exact_mod_cast Nat.div_add_mod' n (10 ^ places)
  have hfraction : value [] (fraction places n) = ((n % 10 ^ places : Nat) : ℚ) / 10 ^ places := by
    rw [fraction, value_trimZeros]
    rcases Nat.eq_zero_or_pos places with rfl | hplaces
    · rw [pow_zero, Nat.mod_one]
      norm_num [value, padStart, digits, ofDigits, Nat.ofDigitChars]
    · have hlength := length_digits_le hplaces (Nat.mod_lt n (by positivity))
      rw [value, List.nil_append, ofDigits_padStart, ofDigits_digits, length_padStart hlength]
  rw [value_eq, hfraction, ofDigits_digits, ← hsplit]
  field_simp

/-- The two groups together are the number of units, but for the trimmed places. -/
theorem ofDigits_fraction (places n : Nat) :
    ofDigits (digits (n / 10 ^ places) ++ fraction places n) * 10 ^ places
      = n * 10 ^ (fraction places n).length := by
  have hvalue := value_fraction places n
  rw [value, div_eq_div_iff (by positivity) (by positivity)] at hvalue
  exact_mod_cast hvalue

/-! ## Reading what is written -/

/-- The digits in front are read up to the first character that is none. -/
theorem takeWhile_digits (rest : List Char) {whole : List Char} (h : ∀ c ∈ whole, c.isDigit = true)
    (hrest : ∀ c, rest.head? = some c → c.isDigit = false) :
    (whole ++ rest).takeWhile Char.isDigit = whole
      ∧ (whole ++ rest).dropWhile Char.isDigit = rest := by
  have hstop : rest.takeWhile Char.isDigit = [] ∧ rest.dropWhile Char.isDigit = rest := by
    cases rest with
    | nil => exact ⟨rfl, rfl⟩
    | cons c rest => simp [hrest c rfl]
  rw [List.takeWhile_append_of_pos h, List.dropWhile_append_of_pos h,
    hstop.1, hstop.2, List.append_nil]
  exact ⟨rfl, rfl⟩

/-- **Reading what is written.** -/
theorem parts_write {whole fraction : List Char} (hne : whole ≠ [])
    (hwhole : ∀ c ∈ whole, c.isDigit = true)
    (hfraction : ∀ c ∈ fraction, c.isDigit = true) :
    parts (write whole fraction) = some (whole, fraction) := by
  obtain ⟨c, rest, rfl⟩ := List.exists_cons_of_ne_nil hne
  cases fraction with
  | nil =>
    obtain ⟨htake, hdrop⟩ := takeWhile_digits [] hwhole (by simp)
    rw [List.append_nil] at htake hdrop
    rw [write, if_pos rfl, parts, htake, hdrop]
  | cons d fraction =>
    obtain ⟨htake, hdrop⟩ := takeWhile_digits ('.' :: d :: fraction) hwhole (by
      rintro _ ⟨⟩
      rfl)
    rw [write, if_neg (List.cons_ne_nil _ _), parts, htake, hdrop]
    exact if_pos (List.all_eq_true.mpr hfraction)

end Decimal
