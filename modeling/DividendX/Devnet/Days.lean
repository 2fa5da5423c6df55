import DividendX.Devnet.Contract

/-!
# Days as text

The first ten characters of `toISOString` are used as keys of days and compared as texts. In the
years 0000 to 9999 that is the order of days (`utcDay_lt`): later days have later dates, and texts
of a fixed number of digits are ordered as the numbers are. Other years are written with a sign and
six digits, and there the ten characters neither name a day nor keep the order.
-/

namespace DividendX

namespace Devnet

namespace Instant

/-! ## Dates -/

/-- The year of a 400-year era that a day of it is in. -/
def yearOfEra (doe : Nat) : Nat := (doe - doe / 1_460 + doe / 36_524 - doe / 146_096) / 365

/-- The first day of a year of an era. -/
def yearStart (yoe : Nat) : Nat := 365 * yoe + yoe / 4 - yoe / 100

/-- The last day of a year of an era; the last year has a day more. -/
def yearEnd (yoe : Nat) : Nat := if yoe = 399 then 146_096 else yearStart (yoe + 1) - 1

/-- Later days are in later years. -/
theorem yearOfEra_mono {d d' : Nat} (h : d ≤ d') (h' : d' ≤ 146_096) :
    yearOfEra d ≤ yearOfEra d' := by
  rw [yearOfEra]
  apply Nat.div_le_div_right
  omega

/-- The first and the last day of each year of an era. -/
theorem yearOfEra_ends :
    ∀ y < 400, yearOfEra (yearStart y) = y ∧ yearOfEra (yearEnd y) = y ∧ yearStart y ≤ yearEnd y
      ∧ yearEnd y ≤ 146_096 := by
  decide +kernel

theorem yearOfEra_lt {d : Nat} (h : d ≤ 146_096) : yearOfEra d < 400 := by
  rw [yearOfEra]
  omega

/-- A day lies in its year. -/
theorem yearOfEra_spec {d : Nat} (h : d ≤ 146_096) :
    yearStart (yearOfEra d) ≤ d ∧ d ≤ yearEnd (yearOfEra d) := by
  have hlt := yearOfEra_lt h
  generalize hy : yearOfEra d = y at hlt ⊢
  constructor
  · by_contra hbefore
    have hy0 : y ≠ 0 := by
      rintro rfl
      exact hbefore (Nat.zero_le d)
    obtain ⟨-, hend, -, hle⟩ := yearOfEra_ends (y - 1) (by omega)
    have hd : d ≤ yearEnd (y - 1) := by
      rw [yearEnd]
      rw [if_neg (by omega), Nat.sub_add_cancel (by omega)]
      omega
    have hmono := yearOfEra_mono hd hle
    omega
  · by_contra hafter
    have hy399 : y ≠ 399 := by
      rintro rfl
      exact hafter h
    obtain ⟨hstart, -, hle, hle'⟩ := yearOfEra_ends (y + 1) (by omega)
    have hd : yearStart (y + 1) ≤ d := by
      rw [yearEnd] at hafter
      rw [if_neg hy399] at hafter
      omega
    have hmono := yearOfEra_mono hd h
    omega

/-- The month of a day of a year that starts in March. -/
def monthOfYear (doy : Nat) : Nat := (5 * doy + 2) / 153

/-- The first day of a month of such a year. -/
def monthStart (mp : Nat) : Nat := (153 * mp + 2) / 5

/-- The date of a day of such a year. -/
def dateOf (year : Int) (doy : Nat) : Int × Nat × Nat :=
  let mp := monthOfYear doy
  let month := if mp < 10 then mp + 3 else mp - 9
  (year + (if month ≤ 2 then 1 else 0), month, doy - monthStart mp + 1)

/-- The day of its era of a day counted from the epoch. -/
def dayOfEra (days : Int) : Nat := ((days + 719_468) % 146_097).toNat

/-- The year that starts in March, of a day counted from the epoch. -/
def marchYear (days : Int) : Int := yearOfEra (dayOfEra days) + (days + 719_468) / 146_097 * 400

/-- The day of that year. -/
def dayOfYear (days : Int) : Nat := dayOfEra days - yearStart (yearOfEra (dayOfEra days))

theorem civil_eq (days : Int) : civil days = dateOf (marchYear days) (dayOfYear days) := rfl

theorem yearEnd_le : ∀ y < 400, yearEnd y ≤ yearStart y + 365 := by
  decide +kernel

theorem dayOfEra_le (days : Int) : dayOfEra days ≤ 146_096 := by
  rw [dayOfEra]
  omega

theorem dayOfYear_le (days : Int) : dayOfYear days ≤ 365 := by
  have hend := (yearOfEra_spec (dayOfEra_le days)).2
  have hle := yearEnd_le _ (yearOfEra_lt (dayOfEra_le days))
  rw [dayOfYear]
  omega

/-- Later days are in later years, or later in the same year. -/
theorem marchYear_lt {a b : Int} (h : a < b) :
    marchYear a < marchYear b ∨ (marchYear a = marchYear b ∧ dayOfYear a < dayOfYear b) := by
  have hA := yearOfEra_lt (dayOfEra_le a)
  have hB := yearOfEra_lt (dayOfEra_le b)
  rcases Int.lt_or_le ((a + 719_468) / 146_097) ((b + 719_468) / 146_097) with hera | hera
  · left
    simp only [marchYear]
    omega
  · -- in the same era the days of the era are ordered as the days are
    have hsame : (a + 719_468) / 146_097 = (b + 719_468) / 146_097 := by omega
    have hdoe : dayOfEra a < dayOfEra b := by
      simp only [dayOfEra]
      omega
    have hmono := yearOfEra_mono (Nat.le_of_lt hdoe) (dayOfEra_le b)
    rcases Nat.lt_or_eq_of_le hmono with hyear | hyear
    · left
      simp only [marchYear]
      omega
    · right
      have hstart := (yearOfEra_spec (dayOfEra_le a)).1
      simp only [marchYear, dayOfYear]
      rw [hyear] at hstart ⊢
      omega

/-- Years and months counted together. -/
theorem dateOf_month (year : Int) {doy : Nat} (h : doy ≤ 365) :
    12 * (dateOf year doy).1 + (dateOf year doy).2.1 = 12 * year + monthOfYear doy + 3
      ∧ 1 ≤ (dateOf year doy).2.1 ∧ (dateOf year doy).2.1 ≤ 12 := by
  have hmp : monthOfYear doy ≤ 11 := by
    rw [monthOfYear]
    omega
  by_cases hlate : monthOfYear doy < 10
  · simp only [dateOf, if_pos hlate]
    omega
  · simp only [dateOf, if_neg hlate, if_pos (show monthOfYear doy - 9 ≤ 2 by omega)]
    omega

/-- Later days have later dates: by year, then month, then day of the month. -/
theorem civil_lt {a b : Int} (h : a < b) :
    (civil a).1 < (civil b).1 ∨ (civil a).1 = (civil b).1 ∧
      ((civil a).2.1 < (civil b).2.1 ∨ (civil a).2.1 = (civil b).2.1
        ∧ (civil a).2.2 < (civil b).2.2) := by
  have hA := dateOf_month (marchYear a) (dayOfYear_le a)
  have hB := dateOf_month (marchYear b) (dayOfYear_le b)
  have hboundA := dayOfYear_le a
  have hboundB := dayOfYear_le b
  have hday : ∀ year doy, (dateOf year doy).2.2 = doy - monthStart (monthOfYear doy) + 1 :=
    fun _ _ => rfl
  rw [civil_eq, civil_eq, hday, hday]
  simp only [monthStart]
  rcases marchYear_lt h with hyear | ⟨hyear, hdoy⟩
  · have hmp : monthOfYear (dayOfYear a) ≤ 11 := by
      rw [monthOfYear]
      omega
    omega
  · simp only [monthOfYear] at *
    omega

/-- Months and days have two digits. -/
theorem civil_bounds (a : Int) : (civil a).2.1 ≤ 12 ∧ (civil a).2.2 ≤ 31 := by
  have hbound := dayOfYear_le a
  have hmonth := (dateOf_month (marchYear a) hbound).2.2
  rw [civil_eq]
  refine ⟨hmonth, ?_⟩
  change dayOfYear a - monthStart (monthOfYear (dayOfYear a)) + 1 ≤ 31
  rw [monthStart, monthOfYear]
  omega

/-! ## Texts of a fixed number of digits -/

/-- Texts of one length are ordered by their beginnings. -/
theorem append_lt_append {p q s t : List Char} (hlen : p.length = q.length) (h : p < q) :
    p ++ s < q ++ t := by
  induction p generalizing q with
  | nil =>
    cases q with
    | nil => exact absurd h (List.lt_irrefl _)
    | cons c q => simp at hlen
  | cons c p ih =>
    cases q with
    | nil => simp at hlen
    | cons d q =>
      rw [List.cons_append, List.cons_append, List.cons_lt_cons_iff]
      rcases List.cons_lt_cons_iff.mp h with hlt | ⟨rfl, hlt⟩
      · exact .inl hlt
      · exact .inr ⟨rfl, ih (by simpa using hlen) hlt⟩

/-- A number is padded to its width. -/
theorem length_digits (width n : Nat) : (digits width n).length = width := by
  induction width generalizing n with
  | zero => rfl
  | succ width ih => simp [digits, ih]

theorem digit_lt : ∀ j < 10, ∀ i < j, Char.ofNat (48 + i) < Char.ofNat (48 + j) := by
  decide

theorem minus_lt_digit : ∀ i < 10, '-' < Char.ofNat (48 + i) := by
  decide

/-- Digits are ordered as numbers are. -/
theorem digits_lt {width a b : Nat} (h : a < b) (hb : b < 10 ^ width) :
    digits width a < digits width b := by
  induction width generalizing a b with
  | zero => omega
  | succ width ih =>
    rw [Nat.pow_succ] at hb
    rw [digits]
    rcases Nat.lt_or_ge (a / 10) (b / 10) with hlt | hge
    · exact append_lt_append (by simp [length_digits]) (ih hlt (by omega))
    · have heq : a / 10 = b / 10 := by omega
      rw [heq]
      refine List.append_left_lt (List.cons_lt_cons_iff.mpr (.inl ?_))
      exact digit_lt _ (by omega) _ (by omega)

/-! ## Keys of days -/

/-- The day an instant is in, counted from the epoch. -/
def dayNumber (t : Instant) : Int := t.ms / 86_400_000

/-- The year an instant is in. -/
def year (t : Instant) : Int := (civil t.dayNumber).1

/-- The years that are written with four digits. -/
def FourDigit (t : Instant) : Prop := 0 ≤ t.year ∧ t.year ≤ 9_999

instance (t : Instant) : Decidable t.FourDigit := inferInstanceAs (Decidable (_ ∧ _))

/-- The text of a date of such a year. -/
def dateText (date : Int × Nat × Nat) : List Char :=
  digits 4 date.1.toNat ++ '-' :: (digits 2 date.2.1 ++ '-' :: digits 2 date.2.2)

/-- The day of a four-digit year, as a text of ten characters. -/
theorem utcDay_eq {t : Instant} (h : t.FourDigit) :
    utcDay t = String.ofList (dateText (civil t.dayNumber)) := by
  have hyear : yearText (civil (t.ms / 86_400_000)).1 = digits 4
      (civil (t.ms / 86_400_000)).1.toNat :=
    if_pos h
  have hlen : (dateText (civil t.dayNumber)).length = 10 := by
    simp [dateText, length_digits]
  have hiso : t.isoChars = dateText (civil t.dayNumber) ++ t.isoChars.drop 10 := by
    simp [isoChars, hyear, dateText, dayNumber, digits]
  rw [utcDay, hiso, List.take_left' hlen]

/-- **Keys are ordered as days are.** -/
theorem utcDay_lt {a b : Instant} (ha : a.FourDigit) (hb : b.FourDigit)
    (h : a.dayNumber < b.dayNumber) : utcDay a < utcDay b := by
  rw [utcDay_eq ha, utcDay_eq hb]
  change (String.ofList _).toList < (String.ofList _).toList
  simp only [String.toList_ofList]
  have hya : 0 ≤ (civil a.dayNumber).1 ∧ (civil a.dayNumber).1 ≤ 9_999 := ha
  have hyb : 0 ≤ (civil b.dayNumber).1 ∧ (civil b.dayNumber).1 ≤ 9_999 := hb
  have hbounds := civil_bounds b.dayNumber
  rw [dateText]
  -- the first of year, month and day that differs decides, as it does in the text
  rcases civil_lt h with hlt | ⟨hyear, hlt | ⟨hmonth, hlt⟩⟩
  · refine append_lt_append (by simp [length_digits]) (digits_lt ?_ ?_)
    · omega
    · omega
  · rw [hyear]
    refine List.append_left_lt (List.cons_lt_cons_iff.mpr (.inr ⟨rfl, ?_⟩))
    exact append_lt_append (by simp [length_digits]) (digits_lt hlt (by omega))
  · rw [hyear, hmonth]
    refine List.append_left_lt (List.cons_lt_cons_iff.mpr (.inr ⟨rfl, ?_⟩))
    refine List.append_left_lt (List.cons_lt_cons_iff.mpr (.inr ⟨rfl, ?_⟩))
    exact digits_lt hlt (by omega)

/-- A date starts with a digit. -/
theorem dateText_digit (date : Int × Nat × Nat) :
    ∃ i < 10, ∃ rest, dateText date = Char.ofNat (48 + i) :: rest :=
  ⟨_, Nat.mod_lt (date.1.toNat / 10 / 10 / 10) (by decide), _, by simp only [dateText, digits]; rfl⟩

/-- A time before the year 0000 starts with a minus sign. -/
theorem isoChars_minus {t : Instant} (h : (civil (t.ms / 86_400_000)).1 < 0) :
    ∃ rest, t.isoChars.take 10 = '-' :: rest := by
  have hsign : yearText (civil (t.ms / 86_400_000)).1
      = '-' :: digits 6 (civil (t.ms / 86_400_000)).1.natAbs := by
    rw [yearText]
    rw [if_neg (by omega), if_pos h]
  simp only [isoChars, hsign, List.cons_append, List.take_succ_cons]
  exact ⟨_, rfl⟩

/-- Of two days in these years the keys are the same only if the days are. -/
theorem utcDay_inj {a b : Instant} (ha : a.FourDigit) (hb : b.FourDigit) :
    utcDay a = utcDay b ↔ a.dayNumber = b.dayNumber := by
  constructor
  · intro heq
    rcases Int.lt_trichotomy a.dayNumber b.dayNumber with hlt | hsame | hlt
    · have hkey := utcDay_lt ha hb hlt
      rw [heq] at hkey
      exact absurd hkey (String.lt_irrefl _)
    · exact hsame
    · have hkey := utcDay_lt hb ha hlt
      rw [heq] at hkey
      exact absurd hkey (String.lt_irrefl _)
  · intro hsame
    rw [utcDay_eq ha, utcDay_eq hb, hsame]

/-- Later moments are in later years. -/
theorem year_mono {a b : Instant} (h : a.ms ≤ b.ms) : a.year ≤ b.year := by
  have hday : a.dayNumber ≤ b.dayNumber := Int.ediv_le_ediv (by omega) h
  rcases Int.lt_or_eq_of_le hday with hlt | hsame
  · rcases civil_lt hlt with hyear | ⟨hyear, -⟩
    · exact Int.le_of_lt hyear
    · exact Int.le_of_eq hyear
  · simp only [year]
    rw [hsame]

/-- A day is never before the key of an earlier moment, in whatever year that was. -/
theorem utcDay_not_lt {a b : Instant} (hb : b.FourDigit) (h : a.ms ≤ b.ms) :
    ¬ utcDay b < utcDay a := by
  by_cases ha : a.FourDigit
  · have hday : a.dayNumber ≤ b.dayNumber := Int.ediv_le_ediv (by omega) h
    rcases Int.lt_or_eq_of_le hday with hlt | hsame
    · exact fun hgt => String.lt_irrefl _ (String.lt_trans hgt (utcDay_lt ha hb hlt))
    · rw [(utcDay_inj ha hb).mpr hsame]
      exact String.lt_irrefl _
  · -- the year before 0000 is written with a minus sign, which is before every digit
    have hyear : (civil (a.ms / 86_400_000)).1 < 0 := by
      have hle : a.year ≤ b.year := year_mono h
      have hb' : b.year ≤ 9_999 := hb.2
      by_contra hnot
      exact ha ⟨by rw [year, dayNumber]; omega, by omega⟩
    obtain ⟨rest, hrest⟩ := isoChars_minus hyear
    obtain ⟨i, hi, rest', hrest'⟩ := dateText_digit (civil b.dayNumber)
    apply String.lt_asymm
    rw [utcDay_eq hb, hrest', utcDay, hrest]
    change (String.ofList _).toList < (String.ofList _).toList
    rw [String.toList_ofList, String.toList_ofList]
    exact List.cons_lt_cons_iff.mpr (.inl (minus_lt_digit i hi))

/-! ## Minutes -/

/-- The minute an instant is in, counted from the epoch. -/
def minuteNumber (t : Instant) : Int := t.ms / 60_000

theorem length_yearText (year : Int) : 4 ≤ (yearText year).length := by
  rw [yearText]
  split <;> simp [length_digits]

/-- The characters of a time up to its minutes. -/
def minuteText (date : Int × Nat × Nat) (hours minutes : Nat) : List Char :=
  yearText date.1 ++ '-' :: digits 2 date.2.1 ++ '-' :: digits 2 date.2.2
    ++ 'T' :: digits 2 hours ++ ':' :: digits 2 minutes

/-- The first sixteen characters say the minute. -/
theorem take_isoChars (t : Instant) : t.isoChars.take 16 =
    (minuteText (civil (t.minuteNumber / 1_440)) (t.minuteNumber % 1_440 / 60).toNat
      (t.minuteNumber % 60).toNat).take 16 := by
  have hday : t.minuteNumber / 1_440 = t.ms / 86_400_000 := by
    rw [minuteNumber]
    omega
  have hhours : (t.minuteNumber % 1_440 / 60).toNat = (t.ms % 86_400_000).toNat / 3_600_000 := by
    rw [minuteNumber]
    omega
  have hminutes : (t.minuteNumber % 60).toNat = (t.ms % 86_400_000).toNat / 60_000 % 60 := by
    rw [minuteNumber]
    omega
  rw [hday, hhours, hminutes]
  have hlen : 16 ≤ (minuteText (civil (t.ms / 86_400_000)) ((t.ms % 86_400_000).toNat / 3_600_000)
      ((t.ms % 86_400_000).toNat / 60_000 % 60)).length := by
    have hyear := length_yearText (civil (t.ms / 86_400_000)).1
    simp only [minuteText, List.length_append, List.length_cons, length_digits]
    omega
  have hiso : t.isoChars = minuteText (civil (t.ms / 86_400_000))
      ((t.ms % 86_400_000).toNat / 3_600_000) ((t.ms % 86_400_000).toNat / 60_000 % 60)
      ++ (':' :: digits 2 ((t.ms % 86_400_000).toNat / 1_000 % 60)
        ++ '.' :: digits 3 ((t.ms % 86_400_000).toNat % 1_000) ++ ['Z']) := by
    simp only [isoChars, minuteText, List.append_assoc, List.cons_append]
  rw [hiso, List.take_append_of_le_length hlen]

end Instant

end Devnet

end DividendX
