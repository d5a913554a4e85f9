import MiniHedge.CashManagement.SettlementLadder
import MiniHedge.Library.Marks

/-! Business days with a calendar of holidays, and settlement dates that count them.

A day is a number without bound. A loop over days is given as many turns as it can
need: of any three days one is on no weekend, and a country has finitely many holidays.
-/

set_option autoImplicit false

namespace MiniHedge.CashManagement.BusinessDays

open MiniHedge.Python MiniHedge.Library

/-- The holidays by country code. -/
structure HolidayCalendar where
  holidays : List (String × List Date)

section Calendar

-- `str.upper`; nothing depends on what it does
variable (upper : String → String)

namespace HolidayCalendar

variable (calendar : HolidayCalendar)

def isHoliday (d : Date) (country : String) : Bool :=
  match calendar.holidays.lookup (upper country) with
  | none => false
  | some holidays => d ∈ holidays

def isBusinessDay (d : Date) (country : String) : Bool :=
  if 5 ≤ weekday d then false else !calendar.isHoliday upper d country

def holidaysOf (country : String) : List Date := (calendar.holidays.lookup (upper country)).getD []

def nextBusinessDay (d : Date) (country : String) : Option Date :=
  seekLoop (calendar.isBusinessDay upper · country) (3 * (1 + (calendar.holidaysOf upper country).length)) d

def addBusinessDays (start : Date) (days : ℤ) (country : String) : Option Date :=
  addLoop (calendar.isBusinessDay upper · country) days
    (3 * (days.toNat + (calendar.holidaysOf upper country).length)) start 0

end HolidayCalendar

variable (calendar : Option HolidayCalendar) (country : Option String)

def isBusinessDay (d : Date) : Bool :=
  match calendar, country with
  | some calendar, some country => calendar.isBusinessDay upper d country
  | _, _ => weekday d < 5

/-- Without a calendar, days are snapped as the ladder snaps them. -/
def snapToBusinessDay (d : Date) : Option Date :=
  match calendar, country with
  | some calendar, some country => calendar.nextBusinessDay upper d country
  | _, _ => some (CashManagement.snapToBusinessDay d)

def addBusinessDays (start : Date) (days : ℤ) : Option Date :=
  match calendar, country with
  | some calendar, some country => calendar.addBusinessDays upper start days country
  | _, _ => addLoop (fun d => weekday d < 5) days (3 * days.toNat) start 0

def calculateSettlementDate (tradeDate : Date) (country : String) : Option Date :=
  addBusinessDays upper calendar (some country) tradeDate
    ((settlementConventions country).getD defaultSettlementDays)

/-- The days that a call may have to pass over besides weekends. -/
def holidaysOf : List Date :=
  match calendar, country with
  | some calendar, some country => calendar.holidaysOf upper country
  | _, _ => []

end Calendar

/-! ## Every stretch has business days -/

section Days

variable {upper : String → String} {calendar : Option HolidayCalendar} {country : Option String}

theorem isBusinessDay_iff {d : Date} :
    isBusinessDay upper calendar country d ↔ weekday d < 5 ∧ d ∉ holidaysOf upper calendar country := by
  cases calendar with
  | none => simp [isBusinessDay, holidaysOf]
  | some calendar =>
    cases country with
    | none => simp [isBusinessDay, holidaysOf]
    | some country =>
      simp only [isBusinessDay, holidaysOf, HolidayCalendar.isBusinessDay, HolidayCalendar.isHoliday,
        HolidayCalendar.holidaysOf]
      by_cases weekend : 5 ≤ weekday d
      · simp [weekend]
      · cases calendar.holidays.lookup (upper country) with
        | none => simp [weekend, not_le.mp weekend]
        | some holidays => simp [weekend, not_le.mp weekend]

theorem weekday_dense (d : Date) : 0 < passed (fun d => weekday d < 5) d (d + 3) := by
  by_cases first : weekday (d + 1) < 5
  · exact passed_pos _ (by omega) (by omega) first
  · -- after a Saturday or a Sunday comes a Monday within two days
    unfold weekday at first
    by_cases second : weekday (d + 2) < 5
    · exact passed_pos _ (by omega) (by omega) second
    · have third : weekday (d + 3) < 5 := by
        unfold weekday at second ⊢
        omega
      exact passed_pos _ (by omega) (by omega) third

variable (upper calendar country)

/-- The turns of the loops are enough. -/
theorem le_passed (start : Date) (n : ℕ) :
    n ≤ passed (fun d => isBusinessDay upper calendar country d) start
      (start + (3 * (n + (holidaysOf upper calendar country).length) : ℕ)) := by
  have weekdays := le_passed_of_dense weekday_dense start (n + (holidaysOf upper calendar country).length)
  rw [passed_congr (fun d => isBusinessDay upper calendar country d) (fun _ => isBusinessDay_iff), Nat.cast_mul]
  exact Nat.le_of_add_le_add_right (weekdays.trans (passed_le_add_removed _ _ _))

/-- Both paths are the loop. -/
theorem addBusinessDays_eq (start : Date) (days : ℤ) :
    addBusinessDays upper calendar country start days =
      addLoop (isBusinessDay upper calendar country) days
        (3 * (days.toNat + (holidaysOf upper calendar country).length)) start 0 := by
  cases calendar with
  | none => rfl
  | some calendar =>
    cases country with
    | none => rfl
    | some country => rfl

theorem addBusinessDays_reaches (start : Date) (n : ℕ) :
    ∃ result, addBusinessDays upper calendar country start n = some result ∧
      Reaches (fun d => isBusinessDay upper calendar country d) start n result := by
  rw [addBusinessDays_eq, Int.toNat_natCast]
  exact addLoop_reaches (zero_add _).symm (le_passed upper calendar country start n)

variable {upper calendar country}

/-- What is returned is what is reached. -/
theorem addBusinessDays_eq_some {start result : Date} {n : ℕ} :
    addBusinessDays upper calendar country start n = some result ↔
      Reaches (fun d => isBusinessDay upper calendar country d) start n result := by
  obtain ⟨found, returned, reaches⟩ := addBusinessDays_reaches upper calendar country start n
  rw [returned, Option.some.injEq]
  constructor
  · rintro rfl
    exact reaches
  · exact reaches.unique

/-- Adding business days is counting them. -/
structure CountsBusinessDays (isBusinessDay : Date → Bool) (add : Date → ℤ → Option Date) : Prop where
  counted : ∀ start (n : ℕ), ∃ result, add start n = some result ∧ start ≤ result ∧
    (0 < n → isBusinessDay result) ∧
      ((Finset.Ioc start result).filter fun d => isBusinessDay d).card = n
  monotone : ∀ start start' (n n' : ℕ) result result', start ≤ start' → n ≤ n' →
    add start n = some result → add start' n' = some result' → result ≤ result'
  additive : ∀ start (m n : ℕ) middle, add start m = some middle → add middle n = add start (m + n : ℕ)

theorem counts : CountsBusinessDays (isBusinessDay upper calendar country)
    (addBusinessDays upper calendar country) where
  counted start n := by
    obtain ⟨result, returned, reaches⟩ := addBusinessDays_reaches upper calendar country start n
    exact ⟨result, returned, reaches.ahead, reaches.marked, reaches.count⟩
  monotone start start' n n' result result' later more first second :=
    (addBusinessDays_eq_some.mp first).mono later more (addBusinessDays_eq_some.mp second)
  additive start m n middle first := by
    obtain ⟨result, returned, reaches⟩ := addBusinessDays_reaches upper calendar country middle n
    rw [returned]
    exact (addBusinessDays_eq_some.mpr ((addBusinessDays_eq_some.mp first).add reaches)).symm

/-- Where a country has no holidays, weekends are all that is skipped. -/
theorem addBusinessDays_weekdays {held : HolidayCalendar} {code : String}
    (none_held : held.holidaysOf upper code = []) (start : Date) (days : ℤ) :
    addBusinessDays upper (some held) (some code) start days = addBusinessDays upper none (some code) start days := by
  have weekdays : ∀ d, isBusinessDay upper (some held) (some code) d = isBusinessDay upper none (some code) d := by
    intro d
    rw [Bool.eq_iff_iff, isBusinessDay_iff, isBusinessDay_iff]
    simp [holidaysOf, none_held]
  rw [addBusinessDays_eq, addBusinessDays_eq, funext weekdays]
  simp [holidaysOf, none_held]

variable (upper calendar country) in
/-- Business days are counted whatever the holidays are, and with no calendar at all. -/
theorem settlement_counts :
    CountsBusinessDays (isBusinessDay upper calendar country) (addBusinessDays upper calendar country) ∧
      ∀ held code, HolidayCalendar.holidaysOf upper held code = [] → ∀ start days,
        addBusinessDays upper (some held) (some code) start days =
          addBusinessDays upper none (some code) start days :=
  ⟨counts, fun _ _ none_held => addBusinessDays_weekdays none_held⟩

/-! ## The other loops -/

/-- The next business day is one business day after the day before. -/
theorem nextBusinessDay_eq (held : HolidayCalendar) (d : Date) (code : String) :
    held.nextBusinessDay upper d code = addBusinessDays upper (some held) (some code) (d - 1) 1 := by
  have one := le_passed upper (some held) (some code) (d - 1) 1
  have enough : 0 < passed (fun d => isBusinessDay upper (some held) (some code) d) (d - 1)
      (d + (3 * (1 + (held.holidaysOf upper code).length) : ℕ)) := by
    apply one.trans (passed_mono _ _ _)
    exact add_le_add_left (sub_one_lt d).le _
  obtain ⟨result, found, reaches⟩ := seekLoop_reaches enough
  have returned : held.nextBusinessDay upper d code = some result := found
  rw [returned]
  exact (addBusinessDays_eq_some.mpr reaches).symm

theorem reaches_nextBusinessDay (d : Date) :
    Reaches (fun d => weekday d < 5) d 1 (CashManagement.nextBusinessDay d) := by
  -- a day that is a business day is reached from the day before, any other is passed over
  have here : ∀ {d}, weekday (d + 1) < 5 → Reaches (fun d => weekday d < 5) d 1 (d + 1) := by
    intro d business
    have stepped : Reaches (fun d => weekday d < 5) d ((if weekday (d + 1) < 5 then 1 else 0) + 0) (d + 1) :=
      Reaches.step (.zero (d + 1)) (.inr business)
    rwa [if_pos business] at stepped
  have skipped : ∀ {d stop}, ¬ weekday (d + 1) < 5 → Reaches (fun d => weekday d < 5) (d + 1) 1 stop →
      Reaches (fun d => weekday d < 5) d 1 stop := by
    intro d stop weekend later
    have stepped := later.step (.inl one_pos)
    rwa [if_neg weekend] at stepped
  have moved : ∀ place : ℤ, weekday place = (place + 6) % 7 := fun _ => rfl
  unfold CashManagement.nextBusinessDay
  split
  · rename_i saturday
    rw [moved] at saturday
    have monday : weekday (d + 1 + 1 + 1) < 5 := by
      rw [moved]
      omega
    have reached := skipped (by rw [moved]; omega) (skipped (by rw [moved]; omega) (here monday))
    rwa [show d + 1 + 1 + 1 = d + 3 by ring] at reached
  · split
    · rename_i sunday
      rw [moved] at sunday
      have monday : weekday (d + 1 + 1) < 5 := by
        rw [moved]
        omega
      have reached := skipped (by rw [moved]; omega) (here monday)
      rwa [show d + 1 + 1 = d + 2 by ring] at reached
    · rename_i friday sunday
      rw [moved] at friday sunday
      exact here (by rw [moved]; omega)

/-- Without a calendar, settlement dates are those that the service stores. -/
theorem calculateSettlementDate_weekdays (tradeDate : Date) (country : String) :
    calculateSettlementDate upper none tradeDate country =
      some (CashManagement.calculateSettlementDate tradeDate country) := by
  unfold calculateSettlementDate CashManagement.calculateSettlementDate
  generalize (settlementConventions country).getD defaultSettlementDays = n
  have iterated : Reaches (fun d => weekday d < 5) tradeDate n (CashManagement.nextBusinessDay^[n] tradeDate) := by
    induction n with
    | zero => exact .zero tradeDate
    | succ n ih =>
      rw [Function.iterate_succ_apply']
      exact ih.add (reaches_nextBusinessDay _)
  obtain ⟨result, returned, reaches⟩ := addBusinessDays_reaches upper none (some country) tradeDate n
  have weekdays : Reaches (fun d => weekday d < 5) tradeDate n result :=
    ⟨reaches.ahead, (passed_congr _ (fun _ => by simp [isBusinessDay]) _ _).trans reaches.count,
      reaches.last.imp_right fun business => by simpa [isBusinessDay] using business⟩
  rw [returned, weekdays.unique iterated]

end Days

end MiniHedge.CashManagement.BusinessDays
