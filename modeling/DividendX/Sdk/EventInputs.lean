import DividendX.Devnet.Days
import DividendX.Handlers
import DividendX.Sdk.Quotes
import DividendX.Standard

/-!
# Both sides check an event alike

`validatedEventInput` of the client refuses an event before it is sent; `upsert_event` checks it
again. The client tests a date by normalization: it builds the date with `Date.UTC` and looks
whether the same year, month and day come back. The program has the lengths of the months. The
client compares the multipliers as fractions, the program as bit patterns.

On every event that can be encoded they agree, but for the test against the clock, which only the
program can make (`validatedEventInput_iff`).
-/

namespace DividendX

namespace Devnet.Instant

/-! ## Normalization -/

/-- A leap year of the Gregorian calendar. -/
def inLeapYear (year : Int) : Bool := year % 4 = 0 ∧ (year % 100 ≠ 0 ∨ year % 400 = 0)

/-- The first day of a year, counted from the epoch. -/
def dayFromYear (year : Int) : Int :=
  365 * (year - 1970) + (year - 1969) / 4 - (year - 1901) / 100 + (year - 1601) / 400

/-- The days of a year before a month, counted from zero. -/
def daysBefore (leap : Bool) (month : Nat) : Nat :=
  [0, 31, 59, 90, 120, 151, 181, 212, 243, 273, 304, 334].getD month 0
    + (if leap = true ∧ 2 ≤ month then 1 else 0)

/-- `MakeDay`: months past the end of a year count on into the next, and days into the next
month. -/
def makeDay (year month date : Int) : Int :=
  let ym := year + month / 12
  dayFromYear ym + daysBefore (inLeapYear ym) (month % 12).toNat + date - 1

/-- `new Date(Date.UTC(year, month, date))`: a year below 100 is one of the twentieth century. -/
def utc? (year month date : Int) : Option Instant :=
  ofMs? (86_400_000 * makeDay (if 0 ≤ year ∧ year ≤ 99 then 1900 + year else year) month date)

/-- The last day of a month, counted from one. -/
def lastDay (leap : Bool) (month : Nat) : Nat :=
  if month = 2 then (if leap then 29 else 28)
  else if month = 4 ∨ month = 6 ∨ month = 9 ∨ month = 11 then 30 else 31

/-- The days of a year that starts in March. -/
theorem yearEnd_eq : ∀ y < 400,
    yearEnd y = yearStart y + (if inLeapYear (y + 1) then 365 else 364) := by
  decide +kernel

/-- Leap years come back after 400 years. -/
theorem inLeapYear_add_era (year era : Int) : inLeapYear (year + era * 400) = inLeapYear year := by
  rw [inLeapYear]
  congr 1
  apply propext
  omega

/-- Days of one year of an era are in that year. -/
theorem yearOfEra_of_mem {y d : Nat} (hy : y < 400) (hlo : yearStart y ≤ d) (hhi : d ≤ yearEnd y) :
    yearOfEra d = y := by
  obtain ⟨hstart, hend, -, hle⟩ := yearOfEra_ends y hy
  have h1 := yearOfEra_mono hlo (hhi.trans hle)
  have h2 := yearOfEra_mono hhi hle
  omega

/-- The date of a day given by its era, its year in it and its day in the year. -/
theorem civil_of_parts (era : Int) {y : Nat} (doy : Nat) (hy : y < 400)
    (hdoy : yearStart y + doy ≤ yearEnd y) :
    civil (146_097 * era + yearStart y + doy - 719_468) = dateOf (y + era * 400) doy := by
  have hle := (yearOfEra_ends y hy).2.2.2
  have hdoe : dayOfEra (146_097 * era + yearStart y + doy - 719_468) = yearStart y + doy := by
    rw [dayOfEra]
    omega
  have hera : (146_097 * era + yearStart y + doy - 719_468 + 719_468 : Int) / 146_097 =
      era := by omega
  have hyear := yearOfEra_of_mem hy (Nat.le_add_right _ doy) hdoy
  rw [civil_eq, marchYear, dayOfYear, hdoe, hera, hyear, Nat.add_sub_cancel_left]

/-- **Dates are dates**: the month exists and has the day. -/
theorem civil_valid (n : Int) :
    1 ≤ (civil n).2.1 ∧ (civil n).2.1 ≤ 12 ∧ 1 ≤ (civil n).2.2 ∧
      (civil n).2.2 ≤ lastDay (inLeapYear (civil n).1) (civil n).2.1 := by
  have hdoe := dayOfEra_le n
  have hspec := yearOfEra_spec hdoe
  have hy := yearOfEra_lt hdoe
  have hend := yearEnd_eq _ hy
  have hdoy : dayOfYear n = dayOfEra n - yearStart (yearOfEra (dayOfEra n)) := rfl
  have hle : dayOfYear n ≤ 365 := dayOfYear_le n
  have hmonth := (dateOf_month (marchYear n) hle).2
  rw [civil_eq]
  refine ⟨hmonth.1, hmonth.2, Nat.le_add_left 1 _, ?_⟩
  -- only the last month of such a year depends on the year
  by_cases hlast : monthOfYear (dayOfYear n) = 11
  · have hleap : inLeapYear (marchYear n + 1) = inLeapYear
        ((yearOfEra (dayOfEra n) : Int) + 1) := by
      have hshift : marchYear n + 1 = (yearOfEra (dayOfEra n) : Int)
          + 1 + (n + 719_468) / 146_097 * 400 := by
        rw [marchYear]
        omega
      rw [hshift, inLeapYear_add_era]
    have hdate : dateOf (marchYear n) (dayOfYear n) =
        (marchYear n + 1, 2, dayOfYear n - 337 + 1) := by
      simp [dateOf, hlast, monthStart]
    rw [hdate, hleap]
    simp only [lastDay, if_true]
    split at hend <;> simp_all <;> omega
  · have hall : ∀ doy ≤ 365, monthOfYear doy ≠ 11 → ∀ leap,
        doy - monthStart (monthOfYear doy) + 1 ≤ lastDay leap (dateOf 0 doy).2.1 := by
      decide +kernel
    exact hall _ hle hlast _

/-- The first of March, counted from the epoch. -/
def marchFirst (year : Int) : Int := 146_097 * (year / 400) + yearStart (year % 400).toNat - 719_468

theorem dayFromYear_add_leap (year : Int) :
    dayFromYear year + 59 + (if inLeapYear year then 1 else 0) = marchFirst year := by
  simp only [dayFromYear, inLeapYear, marchFirst, yearStart, decide_eq_true_eq]
  split <;> omega

theorem dayFromYear_succ (year : Int) : dayFromYear (year + 1) = marchFirst year + 306 := by
  simp only [dayFromYear, marchFirst, yearStart]
  omega

/-- The date of a day of a year that starts in March. -/
theorem civil_marchFirst (year : Int) {doy : Nat}
    (h : doy ≤ if inLeapYear (year + 1) then 365 else 364) :
    civil (marchFirst year + doy) = dateOf year doy := by
  have hy : (year % 400).toNat < 400 := by omega
  have hyear : year = (year % 400).toNat + year / 400 * 400 := by omega
  have hleap : inLeapYear (year + 1) = inLeapYear (((year % 400).toNat : Int) + 1) := by
    have hshift : year + 1 = ((year % 400).toNat : Int) + 1 + year / 400 * 400 := by omega
    rw [hshift, inLeapYear_add_era]
  have hend := yearEnd_eq _ hy
  rw [hleap] at h
  have hparts := civil_of_parts (year / 400) doy hy (by omega)
  rw [← hyear] at hparts
  rw [← hparts, marchFirst]
  congr 1
  omega

/-- The months from March on, in the year that starts with them. -/
theorem daysBefore_of_march (leap : Bool) : ∀ m < 13, 3 ≤ m →
    daysBefore leap (m - 1) = 59 + (if leap then 1 else 0) + monthStart (m - 3) := by
  cases leap <;> decide

/-- January and February, in the year that started before. -/
theorem daysBefore_of_january (leap : Bool) : ∀ m < 3, 1 ≤ m →
    306 + daysBefore leap (m - 1) = monthStart (m + 9) := by
  cases leap <;> decide

/-- From March on, by running through the days. -/
theorem dateOf_of_march (leap : Bool) : ∀ m < 13, ∀ d < 32, 3 ≤ m ∧ 1 ≤ d ∧ d ≤ lastDay leap m →
    dateOf 0 (monthStart (m - 3) + (d - 1)) = (0, m, d) := by
  cases leap <;> decide

/-- And before it. -/
theorem dateOf_of_january (leap : Bool) : ∀ m < 3, ∀ d < 32, 1 ≤ m ∧ 1 ≤ d ∧ d ≤ lastDay leap m →
    dateOf 0 (monthStart (m + 9) + (d - 1)) = (1, m, d) := by
  cases leap <;> decide

/-- The year only shifts the date. -/
theorem dateOf_add (year : Int) (doy : Nat) :
    dateOf year doy = (year + (dateOf 0 doy).1, (dateOf 0 doy).2) := by
  simp only [dateOf, Int.zero_add]

theorem lastDay_le (leap : Bool) (month : Nat) : lastDay leap month ≤ 31 := by
  rw [lastDay]
  split_ifs <;> decide

/-- **Normalization keeps a date.** -/
theorem civil_makeDay (year : Int) {month day : Nat} (hmonth : 1 ≤ month ∧ month ≤ 12)
    (hday : 1 ≤ day)
    (hlast : day ≤ lastDay (inLeapYear year) month) :
    civil (makeDay year (month - 1) day) = (year, month, day) := by
  have hmake : makeDay year (month - 1) day
      = dayFromYear year + daysBefore (inLeapYear year) (month - 1) + day - 1 := by
    have hcarry : ((month : Int) - 1) / 12 = 0 := by omega
    have hindex : (((month : Int) - 1) % 12).toNat = month - 1 := by omega
    simp only [makeDay, hcarry, hindex, Int.add_zero]
  have hle := lastDay_le (inLeapYear year) month
  by_cases hmarch : 3 ≤ month
  · have hbefore := daysBefore_of_march (inLeapYear year) month (by omega) hmarch
    have hdate := dateOf_of_march (inLeapYear year) month (by omega) day (by omega)
      ⟨hmarch, hday, hlast⟩
    have hdoy : monthStart (month - 3) + (day - 1) ≤ 364 := by
      rw [monthStart]
      omega
    have hfirst := dayFromYear_add_leap year
    have hsame : makeDay year (month - 1) day = marchFirst year
        + (monthStart (month - 3) + (day - 1) : Nat) := by
      rw [hmake, hbefore, ← hfirst]
      split <;> omega
    rw [hsame, civil_marchFirst year (by split <;> omega), dateOf_add, hdate, Int.add_zero]
  · have hbefore := daysBefore_of_january (inLeapYear year) month (by omega) hmonth.1
    have hdate := dateOf_of_january (inLeapYear year) month (by omega) day (by omega)
      ⟨hmonth.1, hday, hlast⟩
    have hdoy : monthStart (month + 9) + (day - 1) ≤ if inLeapYear year then 365 else 364 := by
      rw [monthStart]
      rw [lastDay] at hlast
      split_ifs at hlast ⊢ <;> omega
    have hfirst := dayFromYear_succ (year - 1)
    rw [Int.sub_add_cancel] at hfirst
    have hsame : makeDay year (month - 1) day
        = marchFirst (year - 1) + (monthStart (month + 9) + (day - 1) : Nat) := by
      rw [hmake, hfirst]
      omega
    rw [hsame, civil_marchFirst (year - 1) (by rwa [Int.sub_add_cancel]), dateOf_add, hdate,
      Int.sub_add_cancel]

/-- At most 335 days come before a month. -/
theorem daysBefore_le (leap : Bool) (month : Nat) : daysBefore leap month ≤ 335 := by
  rcases Nat.lt_or_ge month 12 with hlt | hge
  · have hall : ∀ leap : Bool, ∀ m < 12, daysBefore leap m ≤ 335 := by decide
    exact hall leap month hlt
  · have hout : [0, 31, 59, 90, 120, 151, 181, 212, 243, 273, 304, 334].getD month 0 = 0 := by
      rw [List.getD_eq_getElem?_getD, List.getElem?_eq_none hge, Option.getD_none]
    rw [daysBefore]
    rw [hout]
    split <;> omega

/-- Dates of this century are in the range of valid dates. -/
theorem utc?_eq_some (year month date : Int) (hyear : 2020 ≤ year ∧ year ≤ 2101)
    (hmonth : -1 ≤ month ∧ month ≤ 99) (hdate : 0 ≤ date ∧ date ≤ 99) :
    ∃ t, utc? year month date = some t ∧ t.ms / 86_400_000 = makeDay year month date := by
  have hrange : -8_640_000_000_000_000 ≤ 86_400_000 * makeDay year month date ∧
      86_400_000 * makeDay year month date ≤ 8_640_000_000_000_000 := by
    have hbefore := daysBefore_le (inLeapYear (year + month / 12)) (month % 12).toNat
    simp only [makeDay, dayFromYear]
    omega
  rw [utc?, if_neg (by omega), ofMs?, dif_pos hrange]
  exact ⟨_, rfl, Int.mul_ediv_cancel_left _ (by decide)⟩

end Devnet.Instant

namespace Sdk

open Devnet (Instant)

/-! ## The client's checks -/

/-- `validCivilDate`. Every part of an invalid date is `NaN`, which equals nothing. -/
def validCivilDate (date : Nat) : Bool :=
  if date = 0 then true
  else
    let year := date / 10_000
    let month := date / 100 % 100
    let day := date % 100
    match Instant.utc? year ((month : Int) - 1) day with
    | none => false
    | some parsed =>
      decide (2020 ≤ year ∧ year ≤ 2101) && Instant.civil (parsed.ms / 86_400_000) ==
        ((year : Int), month, day)

/-- `checkedDigest`. -/
def checkedDigest (value : List UInt8) (label : String) : Thrown Unit := do
  invariant (value.length = 32) .invalidDigest (label ++ " must contain exactly 32 bytes")
  invariant (∃ byte ∈ value, byte ≠ 0) .invalidDigest (label ++ " must be nonzero")

/-- `EventStatusName`. -/
inductive EventStatusName : Type where
  | pending : EventStatusName
  | qualified : EventStatusName
  | confirmedZero : EventStatusName
  | cancelled : EventStatusName
  | unsupported : EventStatusName
  deriving DecidableEq

/-- `EVENT_STATUS`. -/
def EventStatusName.code : EventStatusName → UInt8
  | .pending => 0
  | .qualified => 1
  | .confirmedZero => 2
  | .cancelled => 3
  | .unsupported => 4

/-- `EventInput` of the client. -/
structure EventInput where
  eventId : List UInt8
  revision : Int
  exDate : Nat
  status : EventStatusName
  m0Bits : Int
  m1Bits : Int
  sourceFinal : Bool
  originalEffectiveTimestamp : Int
  paymentDate : Nat
  observedSlot : Int
  evidenceDigest : List UInt8
  deriving DecidableEq

/-- The record that goes to the encoder. -/
structure EventRecord where
  eventId : List UInt8
  revision : Int
  exDate : Nat
  status : UInt8
  m0Bits : Int
  m1Bits : Int
  sourceFinal : Bool
  originalEffectiveTime : Int
  sourcePaymentDate : Nat
  observedSlot : Int
  evidenceDigest : List UInt8
  deriving DecidableEq

/-- `validatedEventInput`. -/
def validatedEventInput (input : EventInput) : Thrown EventRecord := do
  checkedDigest input.eventId "event ID"
  assertU64 input.revision "event revision" false
  invariant (validCivilDate input.exDate = true) .invalidIdentity
    "ex-date must be zero or a valid YYYYMMDD civil date"
  assertU64 input.m0Bits "M0 bits"
  assertU64 input.m1Bits "M1 bits"
  (if input.status = .qualified then discard (eventRetentionRatio input.m0Bits input.m1Bits)
  else invariant (input.m0Bits = 0 ∧ input.m1Bits = 0) .invalidF64Bits
    "nonqualified events must encode both factor fields as zero" : Thrown Unit)
  assertI64 input.originalEffectiveTimestamp "original effective timestamp"
  invariant (validCivilDate input.paymentDate = true) .invalidIdentity
    "payment date must be zero or a valid YYYYMMDD civil date"
  assertU64 input.observedSlot "observed slot"
  checkedDigest input.evidenceDigest "event evidence digest"
  return { eventId := input.eventId, revision := input.revision, exDate := input.exDate,
           status := input.status.code, m0Bits := input.m0Bits, m1Bits := input.m1Bits,
           sourceFinal := input.sourceFinal,
           originalEffectiveTime := input.originalEffectiveTimestamp,
           sourcePaymentDate := input.paymentDate, observedSlot := input.observedSlot,
           evidenceDigest := input.evidenceDigest }

/-! ## Dates -/

/-- The program's leap years are the calendar's. -/
theorem isLeap_eq (year : UInt16) : isLeap year = Instant.inLeapYear year.toNat := by
  have hmod : ∀ k : UInt16, 0 < k.toNat → (year % k = 0 ↔ (year.toNat : Int) % k.toNat = 0) := by
    intro k _
    rw [← UInt16.toNat_inj, UInt16.toNat_mod]
    norm_cast
  have h4 := hmod 4 (by decide)
  have h100 := hmod 100 (by decide)
  have h400 := hmod 400 (by decide)
  rw [Bool.eq_iff_iff]
  simp only [isLeap, Instant.inLeapYear, Bool.and_eq_true, Bool.or_eq_true, beq_iff_eq, bne_iff_ne,
    ne_eq, decide_eq_true_eq, h4, h100, h400]
  rfl

/-- And its months are the calendar's. -/
theorem toNat_maxDay {year : UInt16} {month : UInt8} (h : 1 ≤ month.toNat ∧ month.toNat ≤ 12) :
    (maxDay year month).toNat = Instant.lastDay (Instant.inLeapYear year.toNat) month.toNat := by
  rw [← isLeap_eq]
  generalize hm : month.toNat = m at h ⊢
  obtain rfl : month = UInt8.ofNat m := by rw [← hm, UInt8.ofNat_toNat]
  have hall : ∀ (leap : Bool) (year : UInt16), isLeap year = leap → ∀ m < 13, 1 ≤ m →
      (maxDay year (UInt8.ofNat m)).toNat = Instant.lastDay leap m := by
    intro leap year hleap
    simp only [maxDay, hleap]
    cases leap <;> decide
  exact hall _ year rfl m (by omega) h.1

/-- The packed dates the program takes. -/
theorem parseCivilDate_iff {date : UInt32} :
    (∃ ymd, parseCivilDate date = .ok ymd) ↔
      (2020 ≤ date.toNat / 10_000 ∧ date.toNat / 10_000 ≤ 2101) ∧
      (1 ≤ date.toNat / 100 % 100 ∧ date.toNat / 100 % 100 ≤ 12) ∧ 1 ≤ date.toNat % 100 ∧
      date.toNat % 100 ≤ Instant.lastDay (Instant.inLeapYear (date.toNat / 10_000 : Nat))
        (date.toNat / 100 % 100) := by
  have hyear : (date / 10000).toNat = date.toNat / 10_000 := UInt32.toNat_div _ _
  have hmonth : (date / 100 % 100).toUInt8.toNat = date.toNat / 100 % 100 := by
    rw [UInt32.toNat_toUInt8, UInt32.toNat_mod, UInt32.toNat_div]
    exact Nat.mod_eq_of_lt (Nat.lt_of_lt_of_le (Nat.mod_lt _ (by decide)) (by decide))
  have hday : (date % 100).toUInt8.toNat = date.toNat % 100 := by
    rw [UInt32.toNat_toUInt8, UInt32.toNat_mod]
    exact Nat.mod_eq_of_lt (Nat.lt_of_lt_of_le (Nat.mod_lt _ (by decide)) (by decide))
  simp only [parseCivilDate, Result.bind_eq_ok, Result.require_eq_ok, Result.exists_unit,
    Result.pure_eq_ok, UInt32.le_iff_toNat_le, UInt8.le_iff_toNat_le, hyear, hmonth, hday]
  have hsame : date.toNat / 10_000 ≤ 2101 → 1 ≤ date.toNat / 100 % 100 ∧
      date.toNat / 100 % 100 ≤ 12 →
      (maxDay (date / 10000).toUInt16 (date / 100 % 100).toUInt8).toNat
        = Instant.lastDay (Instant.inLeapYear (date.toNat / 10_000 : Nat))
          (date.toNat / 100 % 100) := by
    intro hle hm
    have hyear16 : (date / 10000).toUInt16.toNat = date.toNat / 10_000 := by
      rw [UInt32.toNat_toUInt16, hyear]
      exact Nat.mod_eq_of_lt (by omega)
    rw [toNat_maxDay (by rwa [hmonth]), hyear16, hmonth]
  constructor
  · rintro ⟨_, hy, hm, hd, -⟩
    exact ⟨hy, hm, hd.1, hsame hy.2 hm ▸ hd.2⟩
  · rintro ⟨hy, hm, hd⟩
    exact ⟨_, hy, hm, ⟨hd.1, (hsame hy.2 hm).symm ▸ hd.2⟩, rfl⟩

/-- A date comes back from normalization exactly if it is one. -/
theorem utc?_iff {year month day : Nat} (hyear : 2020 ≤ year ∧ year ≤ 2101) (hmonth : month < 100)
    (hday : day < 100) :
    (∃ t, Instant.utc? year ((month : Int) - 1) day = some t ∧
      Instant.civil (t.ms / 86_400_000) = ((year : Int), month, day)) ↔
      (1 ≤ month ∧ month ≤ 12) ∧ 1 ≤ day ∧
        day ≤ Instant.lastDay (Instant.inLeapYear year) month := by
  obtain ⟨t, ht, hms⟩ := Instant.utc?_eq_some year ((month : Int) - 1) day
    (by omega) (by omega) (by omega)
  constructor
  · rintro ⟨t', ht', hcivil⟩
    -- whatever the parts were, what comes back is a date
    obtain ⟨h1, h12, hd1, hlast⟩ := Instant.civil_valid (t'.ms / 86_400_000)
    rw [hcivil] at h1 h12 hd1 hlast
    exact ⟨⟨h1, h12⟩, hd1, hlast⟩
  · rintro ⟨hm, hd1, hlast⟩
    refine ⟨t, ht, ?_⟩
    rw [hms]
    exact Instant.civil_makeDay year hm hd1 hlast

/-- **One calendar**: the client's test by normalization is the program's by month lengths. -/
theorem validCivilDate_iff (date : UInt32) :
    validCivilDate date.toNat = true ↔ date = 0 ∨ ∃ ymd, parseCivilDate date = .ok ymd := by
  rw [parseCivilDate_iff, ← UInt32.toNat_inj, UInt32.toNat_zero, validCivilDate]
  have hmonth : date.toNat / 100 % 100 < 100 := Nat.mod_lt _ (by decide)
  have hday : date.toNat % 100 < 100 := Nat.mod_lt _ (by decide)
  split
  · rename_i hzero
    exact iff_of_true rfl (.inl hzero)
  · rename_i hne
    rw [or_iff_right hne]
    constructor
    · intro h
      dsimp only at h
      split at h
      · cases h
      · rename_i t ht
        rw [Bool.and_eq_true, decide_eq_true_eq, beq_iff_eq] at h
        exact ⟨h.1, (utc?_iff h.1 hmonth hday).mp ⟨t, ht, h.2⟩⟩
    · rintro ⟨hyear, hrest⟩
      obtain ⟨t, ht, hcivil⟩ := (utc?_iff hyear hmonth hday).mpr hrest
      simp only [ht, hcivil, hyear, and_self, decide_true, beq_self_eq_true, Bool.and_self]

/-! ## The whole event -/

/-- The program decodes the client's values from the instruction: they are in the ranges of its
types. -/
structure Encodes (input : EventInput) (record : DividendX.EventInput) : Prop where
  eventId : input.eventId = record.eventId.toList
  revision : input.revision = record.revision.toNat
  exDate : input.exDate = record.exDate.toNat
  status : record.status = input.status.code
  m0Bits : input.m0Bits = record.m0Bits.toNat
  m1Bits : input.m1Bits = record.m1Bits.toNat
  sourceFinal : input.sourceFinal = record.sourceFinal
  originalEffectiveTime : input.originalEffectiveTimestamp = record.originalEffectiveTime.toInt
  sourcePaymentDate : input.paymentDate = record.sourcePaymentDate.toNat
  observedSlot : input.observedSlot = record.observedSlot.toNat
  evidenceDigest : input.evidenceDigest = record.evidenceDigest.toList

/-- The test that only the program makes: a final qualified record must not be ahead of the
clock. -/
def NotFuture (record : DividendX.EventInput) (clock : Clock) : Prop :=
  record.status = STATUS_QUALIFIED → record.sourceFinal = true →
    record.originalEffectiveTime ≤ clock.unixTimestamp ∧ record.observedSlot ≤ clock.slot

variable {input : EventInput} {record : DividendX.EventInput} {year : UInt16} {clock : Clock}

theorem checkedDigest_eq_ok {digest : Bytes32} {label : String} :
    checkedDigest digest.toList label = .ok () ↔ digest ≠ zero32 := by
  simp only [checkedDigest, Result.bind_eq_ok, invariant_eq_ok, Result.exists_unit,
    List.Vector.toList_length, true_and]
  rw [← not_iff_not]
  push Not
  constructor
  · intro h
    apply List.Vector.eq
    rw [List.eq_replicate_iff.mpr ⟨digest.toList_length, h⟩]
    rfl
  · rintro rfl byte hmem
    exact List.eq_of_mem_replicate hmem

theorem assertU64_positive {value : UInt64} {label : String} :
    assertU64 value.toNat label false = .ok () ↔ 0 < value := by
  have := value.toNat_lt
  simp only [assertU64, invariant_eq_ok, Bool.false_eq_true, if_false,
    MAX_U64, UInt64.lt_iff_toNat_lt, UInt64.toNat_zero]
  omega

theorem EventStatusName.code_le (status : EventStatusName) : status.code ≤ STATUS_UNSUPPORTED := by
  cases status <;> decide

theorem EventStatusName.code_eq_qualified {status : EventStatusName} :
    status.code = STATUS_QUALIFIED ↔ status = .qualified := by
  cases status <;> decide

theorem discard_eq_ok {ε α : Type} {x : Except ε α} : discard x = .ok () ↔ ∃ a, x = .ok a := by
  cases x with
  | error e => exact iff_of_false nofun nofun
  | ok a => exact iff_of_true rfl ⟨a, rfl⟩

/-- The factors: the client wants a ratio where the program wants a qualified factor. -/
theorem factors_iff (henc : Encodes input record) :
    (if input.status = .qualified then discard (eventRetentionRatio input.m0Bits input.m1Bits)
      else invariant (input.m0Bits = 0 ∧ input.m1Bits = 0) .invalidF64Bits
        "nonqualified events must encode both factor fields as zero" : Thrown Unit) = .ok () ↔
      if record.status = STATUS_QUALIFIED then Qualified record.m0Bits record.m1Bits
      else record.m0Bits = 0 ∧ record.m1Bits = 0 := by
  rw [henc.status, henc.m0Bits, henc.m1Bits]
  by_cases hq : input.status = .qualified
  · rw [if_pos hq, if_pos (EventStatusName.code_eq_qualified.mpr hq), discard_eq_ok]
    simp only [eventRetentionRatio_eq_ok, exists_and_left, exists_eq, and_true]
  · rw [if_neg hq, if_neg (mt EventStatusName.code_eq_qualified.mp hq), invariant_eq_ok]
    simp only [← UInt64.toNat_inj, UInt64.toNat_zero, Int.natCast_eq_zero]

/-- The dates: zero, or a date. -/
theorem dates_iff {date : UInt32} : Result.checkWhen (date ≠ 0)
  (discard (parseCivilDate date)) = .ok () ↔
    validCivilDate date.toNat = true := by
  rw [validCivilDate_iff, Result.checkWhen_eq_ok, discard_eq_ok, or_iff_not_imp_left]

/-- The inputs the program takes. -/
theorem exists_validateEventInput_iff :
    (∃ flags, validateEventInput record year clock = .ok flags) ↔
      record.eventId ≠ zero32 ∧ record.evidenceDigest ≠ zero32 ∧
        record.status ≤ STATUS_UNSUPPORTED ∧
      validCivilDate record.exDate.toNat = true ∧
        validCivilDate record.sourcePaymentDate.toNat = true ∧
      (if record.status = STATUS_QUALIFIED then Qualified record.m0Bits record.m1Bits
        else record.m0Bits = 0 ∧ record.m1Bits = 0) ∧ NotFuture record clock := by
  simp only [validateEventInput, Result.bind_eq_ok, Result.exists_unit, Result.require_eq_ok,
    requireNonzero, dates_iff, NotFuture, Result.pure_eq_ok]
  by_cases hq : record.status = STATUS_QUALIFIED
  · simp only [hq, if_true, Result.bind_eq_ok, Result.exists_unit, requireQualifiedFactor_eq_ok,
      Result.checkWhen_eq_ok, Result.require_eq_ok, forall_const]
    constructor
    · rintro ⟨_, hid, hdigest, hle, hex, hpay, ⟨hqualified, hfuture⟩, -⟩
      exact ⟨hid, hdigest, hle, hex, hpay, hqualified, hfuture⟩
    · rintro ⟨hid, hdigest, hle, hex, hpay, hqualified, hfuture⟩
      exact ⟨_, hid, hdigest, hle, hex, hpay, ⟨hqualified, hfuture⟩, rfl⟩
  · simp only [hq, if_false, Result.require_eq_ok, false_imp_iff, and_true]
    constructor
    · rintro ⟨_, hid, hdigest, hle, hex, hpay, hzero, -⟩
      exact ⟨hid, hdigest, hle, hex, hpay, hzero⟩
    · rintro ⟨hid, hdigest, hle, hex, hpay, hzero⟩
      exact ⟨_, hid, hdigest, hle, hex, hpay, hzero, rfl⟩

/-- The inputs the client takes. -/
theorem exists_validatedEventInput_iff (henc : Encodes input record) :
    (∃ v, validatedEventInput input = .ok v) ↔
      record.eventId ≠ zero32 ∧ 0 < record.revision ∧ validCivilDate record.exDate.toNat = true ∧
      (if record.status = STATUS_QUALIFIED then Qualified record.m0Bits record.m1Bits
        else record.m0Bits = 0 ∧ record.m1Bits = 0) ∧
      validCivilDate record.sourcePaymentDate.toNat = true ∧ record.evidenceDigest ≠ zero32 := by
  simp only [validatedEventInput, Result.bind_eq_ok, Result.exists_unit, invariant_eq_ok,
    Result.pure_eq_ok, factors_iff henc]
  simp only [henc.eventId, henc.revision, henc.exDate, henc.m0Bits, henc.m1Bits,
    henc.originalEffectiveTime, henc.sourcePaymentDate, henc.observedSlot, henc.evidenceDigest,
    checkedDigest_eq_ok, assertU64_positive, assertU64_toNat, assertI64_toInt, true_and]
  constructor
  · rintro ⟨_, hid, hrevision, hex, hfactors, hpay, hdigest, -⟩
    exact ⟨hid, hrevision, hex, hfactors, hpay, hdigest⟩
  · rintro ⟨hid, hrevision, hex, hfactors, hpay, hdigest⟩
    exact ⟨_, hid, hrevision, hex, hfactors, hpay, hdigest, rfl⟩

/-- **One check of events**: the client accepts what it encodes exactly if some clock makes the
program's checks pass, and at any clock they pass exactly if the client accepts and the record is
not ahead of the clock. Dates and multipliers are judged alike, each for itself. -/
theorem validatedEventInput_iff :
    (∀ (input : EventInput) (record : DividendX.EventInput) (year : UInt16), Encodes input record →
      ((∃ v, validatedEventInput input = .ok v) ↔
        0 < record.revision ∧ ∃ clock flags, validateEventInput record year clock = .ok flags) ∧
      ∀ clock : Clock,
        (0 < record.revision ∧ ∃ flags, validateEventInput record year clock = .ok flags) ↔
        (∃ v, validatedEventInput input = .ok v) ∧ NotFuture record clock) ∧
    (∀ date : UInt32, validCivilDate date.toNat = true ↔ date = 0 ∨ ∃ ymd,
      parseCivilDate date = .ok ymd) ∧
    ∀ (m0 m1 : UInt64) (v0 v1 : Binary64Value), decodeCanonicalMultiplier m0.toNat = .ok v0 →
      decodeCanonicalMultiplier m1.toNat = .ok v1 →
      (0 ≤ compareRationals v1.toFraction v0.toFraction ↔ m0 ≤ m1) := by
  refine ⟨?_, validCivilDate_iff, ?_⟩
  · intro input record year henc
    have hany : ∀ clock : Clock,
        (0 < record.revision ∧ ∃ flags, validateEventInput record year clock = .ok flags) ↔
          (∃ v, validatedEventInput input = .ok v) ∧ NotFuture record clock := by
      intro clock
      rw [exists_validatedEventInput_iff henc, exists_validateEventInput_iff]
      have hstatus : record.status ≤ STATUS_UNSUPPORTED := henc.status ▸ input.status.code_le
      constructor
      · rintro ⟨hrevision, hid, hdigest, -, hex, hpay, hfactors, hfuture⟩
        exact ⟨⟨hid, hrevision, hex, hfactors, hpay, hdigest⟩, hfuture⟩
      · rintro ⟨⟨hid, hrevision, hex, hfactors, hpay, hdigest⟩, hfuture⟩
        exact ⟨hrevision, hid, hdigest, hstatus, hex, hpay, hfactors, hfuture⟩
    refine ⟨⟨fun haccepted => ?_, ?_⟩, hany⟩
    · -- at the time of the event itself nothing is ahead of the clock
      have hnow : NotFuture record ⟨record.observedSlot, record.originalEffectiveTime⟩ :=
        fun _ _ => ⟨Int64.le_refl _, UInt64.le_refl _⟩
      obtain ⟨hrevision, flags, hflags⟩ := (hany _).mpr ⟨haccepted, hnow⟩
      exact ⟨hrevision, _, flags, hflags⟩
    · rintro ⟨hrevision, clock, flags, hflags⟩
      exact ((hany clock).mp ⟨hrevision, flags, hflags⟩).1
  · intro m0 m1 v0 v1 h0 h1
    obtain ⟨hadm0, rfl⟩ := decodeCanonicalMultiplier_eq_ok.mp h0
    obtain ⟨hadm1, rfl⟩ := decodeCanonicalMultiplier_eq_ok.mp h1
    exact compareRationals_iff_le hadm0 hadm1

/-- The event of the sample history as the client passes it. -/
def sampleInput : EventInput where
  eventId := Sample.eventId.toList
  revision := 1
  exDate := 20270615
  status := .qualified
  m0Bits := 0x3ff0000000000000
  m1Bits := 0x3ff4000000000000
  sourceFinal := true
  originalEffectiveTimestamp := 1798675200
  paymentDate := 0
  observedSlot := 10
  evidenceDigest := Sample.evidence.toList

/-- The client accepts the event of the sample history, whose multipliers it can order. -/
theorem validatedEventInput_iff_sample :
    (∃ v, validatedEventInput sampleInput = .ok v) ∧
      ∃ v0 v1, decodeCanonicalMultiplier Sample.one.toNat = .ok v0 ∧
        decodeCanonicalMultiplier Sample.fiveQuarters.toNat = .ok v1 ∧
        0 ≤ compareRationals v1.toFraction v0.toFraction := by
  have haccepted : (validateEventInput Sample.event 2027 ⟨10, 1798675200⟩).toOption.isSome =
      true := by
    decide
  obtain ⟨flags, h⟩ := Option.isSome_iff_exists.mp haccepted
  rw [Result.toOption_eq_some] at h
  have henc : Encodes sampleInput Sample.event := by
    constructor <;> decide
  obtain ⟨hevents, -, hfactors⟩ := validatedEventInput_iff
  refine ⟨(hevents sampleInput Sample.event 2027 henc).1.mpr ⟨by decide, _, flags, h⟩, ?_⟩
  have h0 := decodeCanonicalMultiplier_eq_ok.mpr ⟨show Admissible Sample.one by decide, rfl⟩
  have h1 :=
    decodeCanonicalMultiplier_eq_ok.mpr ⟨show Admissible Sample.fiveQuarters by decide, rfl⟩
  exact ⟨_, _, h0, h1, (hfactors _ _ _ _ h0 h1).mpr (by decide)⟩

example : validCivilDate 20240229 = true ∧ validCivilDate 21000229 = false ∧
    validCivilDate 20261301 = false := by
  decide

end Sdk

end DividendX
