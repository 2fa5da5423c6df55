import DividendX.State

/-!
# Civil dates and year bounds

`calendar.rs`. A series of year `y` opens its deposits until the first second of `y` and matures
at the first second of `y + 1`, both in UTC; event dates are packed decimals `YYYYMMDD`.

`unix_days` runs on `i32` in the source. Its arguments come from a `u16` year between 2020 and
2101 only, where no step leaves `i32`, so it is written over the integers here; the division is
the truncating one of the source.
-/

namespace DividendX

/-- `i64::checked_mul`, on the exact product. -/
def checkedMulI64 (a b : Int) : Option Int64 :=
  if -2 ^ 63 ≤ a * b ∧ a * b < 2 ^ 63 then some (Int64.ofInt (a * b)) else none

/-- Days from 1970-01-01 to a civil date, by eras of 400 years that start in March. -/
def unixDays (year month day : Int) : Int :=
  let year := year - (if month ≤ 2 then 1 else 0)
  let era := (if 0 ≤ year then year else year - 399).tdiv 400
  let yearOfEra := year - era * 400
  let shiftedMonth := month + (if 2 < month then -3 else 9)
  let dayOfYear := (153 * shiftedMonth + 2).tdiv 5 + day - 1
  let dayOfEra := yearOfEra * 365 + yearOfEra.tdiv 4 - yearOfEra.tdiv 100 + dayOfYear
  era * 146097 + dayOfEra - 719468

/-- `year_bounds`: the first second of a year and of the next one. -/
def yearBounds (year : UInt16) : Outcome (Int64 × Int64) := do
  ensure (2020 ≤ year ∧ year ≤ 2100) .invalidYear
  let start ← orError (checkedMulI64 (unixDays year.toNat 1 1) 86400) .arithmeticOverflow
  let maturity ← orError (checkedMulI64 (unixDays (year.toNat + 1) 1 1) 86400) .arithmeticOverflow
  return (start, maturity)

/-- `is_leap`. -/
def isLeap (year : UInt16) : Bool :=
  year % 4 == 0 && (year % 100 != 0 || year % 400 == 0)

/-- The last day of a month, `0` for a month that does not exist. -/
def maxDay (year : UInt16) (month : UInt8) : UInt8 :=
  if month = 1 ∨ month = 3 ∨ month = 5 ∨ month = 7 ∨ month = 8 ∨ month = 10 ∨ month = 12 then 31
  else if month = 4 ∨ month = 6 ∨ month = 9 ∨ month = 11 then 30
  else if month = 2 then (if isLeap year then 29 else 28)
  else 0

/-- `parse_civil_date`. -/
def parseCivilDate (value : UInt32) : Outcome (UInt16 × UInt8 × UInt8) := do
  let fullYear := value / 10000
  ensure (2020 ≤ fullYear ∧ fullYear ≤ 2101) .invalidCivilDate
  let year := fullYear.toUInt16
  let month := ((value / 100) % 100).toUInt8
  let day := (value % 100).toUInt8
  ensure (1 ≤ month ∧ month ≤ 12) .invalidCivilDate
  ensure (1 ≤ day ∧ day ≤ maxDay year month) .invalidCivilDate
  return (year, month, day)

/-- `is_in_year`. -/
def isInYear (exDate : UInt32) (year : UInt16) : Bool :=
  exDate / 10000 == year.toUInt32

/-- The range of `i64` holds every bound, so `year_bounds` is defined on all admitted years. -/
theorem yearBounds_eq_ok {year : UInt16} {start maturity : Int64}
    (h : yearBounds year = .ok (start, maturity)) :
    2020 ≤ year.toNat ∧ year.toNat ≤ 2100 ∧ start.toInt = unixDays year.toNat 1 1 * 86400 ∧
      maturity.toInt = unixDays (year.toNat + 1) 1 1 * 86400 := by
  simp only [yearBounds, Result.bind_eq_ok, Result.require_eq_ok, Result.exists_unit,
    Result.okOr_eq_ok, Result.pure_eq_ok, Prod.mk.injEq] at h
  obtain ⟨⟨hlo, hhi⟩, s, hs, m, hm, rfl, rfl⟩ := h
  have key : ∀ (a b : Int) (r : Int64), checkedMulI64 a b = some r → r.toInt = a * b := by
    intro a b r hr
    rw [checkedMulI64] at hr
    split at hr
    · rename_i hb
      obtain rfl := Option.some.inj hr
      exact Int64.toInt_ofInt_of_le (by omega) (by omega)
    · cases hr
  exact ⟨UInt16.le_iff_toNat_le.mp hlo, UInt16.le_iff_toNat_le.mp hhi, key _ _ _ hs, key _ _ _ hm⟩

/-- On admitted years the day count is the usual closed form. -/
theorem unixDays_january {year : Nat} (h : 1 ≤ year) :
    unixDays year 1 1 = 365 * (year - 1 : Nat) + (year - 1 : Nat) / 4 - (year - 1 : Nat) / 100
      + (year - 1 : Nat) / 400 - 719162 := by
  obtain ⟨y, rfl⟩ : ∃ y, year = y + 1 := ⟨year - 1, by omega⟩
  simp only [unixDays]
  have h0 : (0 : Int) ≤ ((y + 1 : Nat) : Int) - 1 := by omega
  simp only [show (1 : Int) ≤ 2 by decide, if_true, if_pos h0, show ¬ (2 : Int) < 1 by decide,
    if_false, Nat.add_sub_cancel]
  have e : ((y + 1 : Nat) : Int) - 1 = (y : Int) := by omega
  rw [e, Int.tdiv_eq_ediv_of_nonneg (by omega)]
  have hr : (0 : Int) ≤ (y : Int) - (y : Int) / 400 * 400 := by omega
  rw [Int.tdiv_eq_ediv_of_nonneg hr, Int.tdiv_eq_ediv_of_nonneg hr,
    show ((153 * (1 + 9) + 2 : Int).tdiv 5) = 306 by decide]
  push_cast
  omega

end DividendX
