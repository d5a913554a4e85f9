import MiniHedge.Python.Values
import Mathlib.Data.List.Range
import Mathlib.Algebra.BigOperators.Group.List.Basic
import Mathlib.Tactic.Linarith

/-! Calendar dates of the proleptic Gregorian calendar. -/

set_option autoImplicit false

namespace MiniHedge.Python

def isLeap (year : Nat) : Bool := year % 4 = 0 ∧ (year % 100 ≠ 0 ∨ year % 400 = 0)

/-- `calendar.monthrange(year, month)[1]`, for a month from 1 to 12. -/
def daysInMonth (year month : Nat) : Nat :=
  match month with
  | 2 => if isLeap year then 29 else 28
  | 4 | 6 | 9 | 11 => 30
  | _ => 31

structure CivilDate where
  year : Nat
  month : Nat
  day : Nat
  inYears : 1 ≤ year ∧ year ≤ 9999
  inMonths : 1 ≤ month ∧ month ≤ 12
  inDays : 1 ≤ day ∧ day ≤ daysInMonth year month
  deriving DecidableEq, Repr

namespace CivilDate

/-- `date.min`. -/
def min : CivilDate := ⟨1, 1, 1, by decide, by decide, by decide⟩

/-- The date of that year, month and day, if there is one. -/
def ofNat (year month day : Nat) : CivilDate :=
  if valid : (1 ≤ year ∧ year ≤ 9999) ∧ (1 ≤ month ∧ month ≤ 12) ∧ 1 ≤ day ∧ day ≤ daysInMonth year month then
    ⟨year, month, day, valid.1, valid.2.1, valid.2.2⟩
  else min

/-- `date(year, month, day)`. -/
def of (year month : Nat) (day : Int) : Except Exc CivilDate :=
  if inYears : 1 ≤ year ∧ year ≤ 9999 then
    if inMonths : 1 ≤ month ∧ month ≤ 12 then
      if inDays : 1 ≤ day ∧ day ≤ daysInMonth year month then
        .ok ⟨year, month, day.toNat, inYears, inMonths, by omega⟩
      else .error (.valueError "day is out of range for month")
    else .error (.valueError "month must be in 1..12")
  else .error (.valueError s!"year {year} is out of range")

/-- `date.toordinal()`: 1 for the first day of year 1, a Monday. -/
def toordinal (d : CivilDate) : Int :=
  let before := d.year - 1
  let days := before * 365 + before / 4 - before / 100 + before / 400
  days + ((List.range (d.month - 1)).map fun m => daysInMonth d.year (m + 1)).sum + d.day

/-- `date.weekday()`: 0 for a Monday. -/
def weekday (d : CivilDate) : Int := (d.toordinal + 6) % 7

def padded (width n : Nat) : String :=
  "".pushn '0' (width - (toString n).length) ++ toString n

theorem repr_injective {m n : Nat} (same : toString m = toString n) : m = n := by
  have digits := congrArg String.toList same
  simp only [Nat.toString_eq_ofList_toDigits, String.toList_ofList] at digits
  rw [← Nat.ofDigitChars_ten_toDigits (n := m), digits, Nat.ofDigitChars_ten_toDigits]

theorem absent_repr {c : Char} (other : c.isDigit = false) (n : Nat) :
    c ∉ (toString n).toList := by
  intro inside
  rw [Nat.toString_eq_ofList_toDigits, String.toList_ofList] at inside
  rw [Nat.isDigit_of_mem_toDigits (by decide) (by decide) inside] at other
  cases other

theorem toList_pushn (text : String) (c : Char) (n : Nat) :
    (text.pushn c n).toList = text.toList ++ List.replicate n c := by
  rw [String.pushn_eq_repeat_push]
  induction n with
  | zero => simp [Nat.repeat]
  | succ n ih => simp [Nat.repeat, ih, List.replicate_succ']

theorem absent_padded {c : Char} (other : c.isDigit = false) (width n : Nat) :
    c ∉ (padded width n).toList := by
  have zero : c ≠ '0' := by
    rintro rfl
    cases other
  rw [padded, String.toList_append, List.mem_append, not_or]
  refine ⟨?_, absent_repr other n⟩
  simp [toList_pushn, List.mem_replicate, zero]

/-- Months are told apart by their two digits. -/
theorem padded_injective : ∀ m < 13, ∀ n < 13, padded 2 m = padded 2 n → m = n := by
  decide +kernel

def isoformat (d : CivilDate) : String :=
  s!"{padded 4 d.year}-{padded 2 d.month}-{padded 2 d.day}"

end CivilDate

/-! ## The months in one row, and the days in it

Month `n` is month `n % 12 + 1` of year `n / 12`.
-/

/-- How many days come before a year. -/
def yearStart (year : Nat) : Nat := (year - 1) * 365 + (year - 1) / 4 - (year - 1) / 100 + (year - 1) / 400

def monthOffset (year month : Nat) : Nat := ((List.range (month - 1)).map fun m => daysInMonth year (m + 1)).sum

def monthStart (n : Nat) : Nat := yearStart (n / 12) + monthOffset (n / 12) (n % 12 + 1)

def monthLength (n : Nat) : Nat := daysInMonth (n / 12) (n % 12 + 1)

def CivilDate.monthIndex (d : CivilDate) : Nat := 12 * d.year + (d.month - 1)

section Index

variable {year month : Nat} (inMonths : 1 ≤ month ∧ month ≤ 12)
include inMonths

theorem index_year : (12 * year + (month - 1)) / 12 = year := by omega

theorem index_month : (12 * year + (month - 1)) % 12 + 1 = month := by omega

end Index

theorem monthLength_bounds (n : Nat) : 28 ≤ monthLength n ∧ monthLength n ≤ 31 := by
  unfold monthLength daysInMonth
  split
  · split
    · omega
    · omega
  · omega
  · omega
  · omega
  · omega
  · omega

/-- The day of the calendar, counted from the start of its month. -/
theorem CivilDate.toordinal_eq (d : CivilDate) : d.toordinal = monthStart d.monthIndex + d.day := by
  rw [monthStart, monthIndex, index_year d.inMonths, index_month d.inMonths]
  unfold toordinal yearStart monthOffset
  push_cast
  rfl

/-- A quotient grows by one at each multiple. -/
theorem succ_div_ite (n k : Nat) : (n + 1) / k = n / k + if (n + 1) % k = 0 then 1 else 0 := by
  rw [Nat.succ_div]
  simp only [Nat.dvd_iff_mod_eq_zero]

theorem leap_add_century (year : Nat) :
    (if isLeap year then 1 else 0) + (if year % 100 = 0 then 1 else 0) =
      (if year % 4 = 0 then 1 else 0) + if year % 400 = 0 then 1 else 0 := by
  unfold isLeap
  by_cases four : year % 4 = 0
  · by_cases century : year % 100 = 0
    · simp [four, century, Nat.add_comm]
    · have other : year % 400 ≠ 0 := by omega
      simp [four, century, other]
  · have century : year % 100 ≠ 0 := by omega
    have other : year % 400 ≠ 0 := by omega
    simp [four, century, other]

theorem yearStart_add (n : Nat) : yearStart (n + 1) + n / 100 = n * 365 + n / 4 + n / 400 := by
  have fewer : n / 100 ≤ n / 4 := Nat.div_le_div_left (by omega) (by omega)
  rw [yearStart, Nat.add_sub_cancel]
  omega

theorem yearStart_succ {year : Nat} (later : 1 ≤ year) :
    yearStart (year + 1) = yearStart year + 365 + if isLeap year then 1 else 0 := by
  obtain ⟨n, rfl⟩ : ∃ n, year = n + 1 := ⟨year - 1, by omega⟩
  have leap := leap_add_century (n + 1)
  have before := yearStart_add n
  have after := yearStart_add (n + 1)
  rw [succ_div_ite, succ_div_ite, succ_div_ite] at after
  linarith

/-- One month ends where the next one starts. -/
theorem monthStart_succ {n : Nat} (later : 12 ≤ n) : monthStart (n + 1) = monthStart n + monthLength n := by
  by_cases december : n % 12 = 11
  · have year : (n + 1) / 12 = n / 12 + 1 := by omega
    have month : (n + 1) % 12 = 0 := by omega
    have offset : monthOffset (n / 12) 12 = 306 + daysInMonth (n / 12) 2 := by
      simp [monthOffset, List.range_succ, daysInMonth]
      omega
    rw [monthStart, monthStart, monthLength, year, month, december, yearStart_succ (by omega), offset]
    simp only [monthOffset, daysInMonth]
    split
    · simp
    · simp
  · have year : (n + 1) / 12 = n / 12 := by omega
    have month : (n + 1) % 12 = n % 12 + 1 := by omega
    rw [monthStart, monthStart, monthLength, year, month]
    simp only [monthOffset, Nat.add_sub_cancel, List.range_succ, List.map_append, List.sum_append]
    simp
    omega

theorem monthStart_le {m n : Nat} (later : 12 ≤ m) (order : m ≤ n) :
    monthStart m + 28 * (n - m) ≤ monthStart n := by
  induction n, order using Nat.le_induction with
  | base => simp
  | succ n order ih =>
    have next := monthStart_succ (later.trans order)
    have long := (monthLength_bounds n).1
    omega

namespace CivilDate

variable {d d' : CivilDate}

/-- Dates of an earlier month come before those of a later one. -/
theorem toordinal_lt_of_month (earlier : d.monthIndex < d'.monthIndex) : d.toordinal < d'.toordinal := by
  have year : 12 ≤ d.monthIndex := by
    have first := d.inYears.1
    unfold monthIndex
    omega
  have next := monthStart_succ year
  have order : monthStart (d.monthIndex + 1) + _ ≤ _ := monthStart_le (year.trans (Nat.le_succ _)) earlier
  have short : d.day ≤ monthLength d.monthIndex := by
    rw [monthLength, monthIndex, index_year d.inMonths, index_month d.inMonths]
    exact d.inDays.2
  have started := d'.inDays.1
  rw [toordinal_eq, toordinal_eq]
  omega

/-- A date is told by its number. -/
theorem toordinal_injective : Function.Injective toordinal := by
  intro d d' same
  have month : d.monthIndex = d'.monthIndex := by
    rcases Nat.lt_trichotomy d.monthIndex d'.monthIndex with earlier | equal | later
    · exact absurd same (toordinal_lt_of_month earlier).ne
    · exact equal
    · exact absurd same (toordinal_lt_of_month later).ne'
  have day : d.day = d'.day := by
    rw [toordinal_eq, toordinal_eq, month] at same
    omega
  obtain ⟨year, m, n, inYears, inMonths, inDays⟩ := d
  obtain ⟨year', m', n', inYears', inMonths', inDays'⟩ := d'
  simp only [monthIndex] at month day
  obtain rfl : year = year' := by omega
  obtain rfl : m = m' := by omega
  obtain rfl : n = n' := day
  rfl

/-! ### Weeks -/

/-- The Monday of the week that has the first Thursday of the year. -/
def isoWeek1Monday (year : Nat) : Int :=
  let firstDay : Int := yearStart year + 1
  let firstWeekday := (firstDay + 6) % 7
  let monday := firstDay - firstWeekday
  if 3 < firstWeekday then monday + 7 else monday

/-- `date.isocalendar()[1]`. -/
def isoWeek (d : CivilDate) : Int :=
  let week := (d.toordinal - isoWeek1Monday d.year) / 7
  if week < 0 then (d.toordinal - isoWeek1Monday (d.year - 1)) / 7 + 1
  else if 52 ≤ week ∧ isoWeek1Monday (d.year + 1) ≤ d.toordinal then 1
  else week + 1

-- A year ends in its last week, or in the first one of the next.
example : (ofNat 2025 1 5).isoWeek = 1 ∧ (ofNat 2025 1 6).isoWeek = 2 ∧
    (ofNat 2021 1 3).isoWeek = 53 ∧ (ofNat 2024 12 30).isoWeek = 1 := by
  decide +kernel

end CivilDate

end MiniHedge.Python
