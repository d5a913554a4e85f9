import MiniHedge.FeeAccounting.HighWaterMark

/-! On which days fees are crystallized.

The calendar decides, and not the days that are run: where the last day of a
quarter is not run, no other day of it crystallizes. A quarterly crystallization
on the last day there is raises.
-/

set_option autoImplicit false

namespace MiniHedge.FeeAccounting

open MiniHedge.Python MiniHedge.Library

/-! ## Periods -/

inductive Span where
  | quarter (number : Fin 4)
  | year
  deriving DecidableEq, Repr

structure Period where
  year : Nat
  inYears : 1 ≤ year ∧ year ≤ 9999
  span : Span

def IsWeekday (d : CivilDate) : Prop := d.weekday < 5

instance (d : CivilDate) : Decidable (IsWeekday d) := inferInstanceAs (Decidable (_ < _))

namespace Period

variable (period : Period)

def frequency : String :=
  match period.span with
  | .quarter _ => "quarterly"
  | .year => "annual"

def Contains (d : CivilDate) : Prop :=
  d.year = period.year ∧
    match period.span with
    | .quarter number => (d.month - 1) / 3 = number
    | .year => True

instance (d : CivilDate) : Decidable (period.Contains d) :=
  match h : period.span with
  | .quarter number => decidable_of_iff (d.year = period.year ∧ (d.month - 1) / 3 = number)
      (by simp [Contains, h])
  | .year => decidable_of_iff (d.year = period.year) (by simp [Contains, h])

def lastMonth : Nat :=
  match period.span with
  | .quarter number => 3 * number + 3
  | .year => 12

theorem lastMonth_bounds : 1 ≤ period.lastMonth ∧ period.lastMonth ≤ 12 := by
  unfold lastMonth
  split
  · omega
  · omega

theorem daysInMonth_pos (year month : Nat) : 1 ≤ daysInMonth year month := by
  unfold daysInMonth
  split
  · split <;> omega
  · omega
  · omega
  · omega
  · omega
  · omega

def lastDay : CivilDate where
  year := period.year
  month := period.lastMonth
  day := daysInMonth period.year period.lastMonth
  inYears := period.inYears
  inMonths := period.lastMonth_bounds
  inDays := ⟨daysInMonth_pos _ _, le_rfl⟩

/-- The last quarter there is, after which no date can be built. -/
def IsFinalQuarter : Prop := period.year = 9999 ∧ period.span = .quarter 3

instance : Decidable period.IsFinalQuarter := inferInstanceAs (Decidable (_ ∧ _))

end Period

theorem civilDate_ext {d d' : CivilDate} (year : d.year = d'.year) (month : d.month = d'.month)
    (day : d.day = d'.day) : d = d' := by
  cases d
  cases d'
  simp_all

section Boundary

variable {period : Period} {d : CivilDate}

theorem contains_lastDay (period : Period) : period.Contains period.lastDay := by
  refine ⟨rfl, ?_⟩
  split
  · rename_i number quarter
    simp only [Period.lastDay, Period.lastMonth, quarter]
    omega
  · trivial

theorem eq_lastDay_iff (inside : period.Contains d) :
    d = period.lastDay ↔ d.month = period.lastMonth ∧ d.day = daysInMonth d.year d.month := by
  constructor
  · rintro rfl
    exact ⟨rfl, rfl⟩
  · rintro ⟨month, day⟩
    refine civilDate_ext inside.1 month (day.trans ?_)
    rw [inside.1, month]
    rfl

theorem shouldCrystallize_quarterly {number : Fin 4} (quarter : (d.month - 1) / 3 = number) :
    shouldCrystallize "quarterly" d = .ok true ↔
      (d.month = 3 * number + 3 ∧ d.day = daysInMonth d.year d.month) ∧
        ¬ (d.year = 9999 ∧ number = 3) := by
  obtain ⟨first, upto⟩ := d.inMonths
  have ends : d.month ∈ [3, 6, 9, 12] ↔ d.month = 3 * number + 3 := by
    simp only [List.mem_cons, List.not_mem_nil, or_false]
    omega
  have fourth : number = 3 ↔ number.val = 3 := Fin.ext_iff
  unfold shouldCrystallize
  rw [if_pos rfl]
  split
  · rename_i other
    exact iff_of_false (fun h => nomatch h) fun h => other (ends.mpr h.1.1)
  · rename_i month
    have last := ends.mp (not_not.mp month)
    split
    · -- the day after cannot be built, and the call raises
      rename_i beyond
      have number_eq : number = 3 := fourth.mpr (by omega)
      simp [beyond.1, number_eq]
    · rename_i buildable
      rw [Except.ok.injEq, decide_eq_true_eq]
      constructor
      · intro day
        refine ⟨⟨last, day⟩, fun final => buildable ⟨final.1, ?_, ?_⟩⟩
        · rw [last, final.2]
          rfl
        · rw [day, last, final.2]
          rfl
      · exact fun ends => ends.1.2

/-- Of the days of a period, the last is the boundary. -/
theorem shouldCrystallize_iff (inside : period.Contains d) :
    shouldCrystallize period.frequency d = .ok true ↔
      d = period.lastDay ∧ ¬ period.IsFinalQuarter := by
  rw [eq_lastDay_iff inside]
  obtain ⟨year, quarter⟩ := inside
  unfold Period.frequency Period.lastMonth Period.IsFinalQuarter
  cases span : period.span with
  | quarter number =>
    rw [span] at quarter
    rw [shouldCrystallize_quarterly quarter, year, Span.quarter.injEq]
  | year =>
    have annual : shouldCrystallize "annual" d = .ok (decide (d.month = 12 ∧ d.day = 31)) := rfl
    rw [annual, Except.ok.injEq, decide_eq_true_eq]
    constructor
    · rintro ⟨month, day⟩
      exact ⟨⟨month, by rw [day, month]; rfl⟩, fun final => nomatch final.2⟩
    · rintro ⟨⟨month, day⟩, -⟩
      exact ⟨month, by rw [day, month]; rfl⟩

end Boundary

/-! ## What a call does -/

namespace FeeTables

variable {s : FeeTables} {call : FeeCall} {ties : Ties}

/-- The rows of those ids are crystallized, and nothing else of them changes. -/
theorem foldl_updateStatus (rows : List FeeAccrualRecord) (s : FeeTables) :
    (rows.foldl (fun s a => s.updateStatus a.id .crystallized) s).accruals =
      s.accruals.map fun a =>
        if a.id ∈ rows.map (·.id) then { a with status := .crystallized } else a := by
  induction rows generalizing s with
  | nil => simp
  | cons row rest ih =>
    rw [List.foldl_cons, ih, updateStatus, List.map_map]
    refine List.map_congr_left fun a _ => ?_
    by_cases own : a.id = row.id
    · simp [own]
    · simp [own]

/-- No fee of the class is left to be crystallized. -/
theorem none_accrued (s : FeeTables) (call : FeeCall) :
    ∀ a ∈ (s.crystallizeAccruals call).classAccruals call, a.status ≠ .accrued := by
  intro a member accrued
  obtain ⟨inside, shareClass⟩ := List.mem_filter.mp member
  obtain ⟨stored, portfolio⟩ := List.mem_filter.mp inside
  rw [crystallizeAccruals, foldl_updateStatus] at stored
  obtain ⟨b, before, rfl⟩ := List.mem_map.mp stored
  split at accrued
  · cases accrued
  · -- a row of the class that is still accrued was among those that were updated
    rename_i untouched
    simp only [untouched, if_false] at portfolio shareClass
    refine untouched (List.mem_map.mpr ⟨b, ?_, rfl⟩)
    refine List.mem_filter.mpr ⟨List.mem_filter.mpr ⟨?_, shareClass⟩, decide_eq_true accrued⟩
    exact List.mem_filter.mpr ⟨before, portfolio⟩

/-- The management fee of the day is not crystallized yet. -/
theorem accrued_today {schedule : FeeScheduleRecord} (scheduled : s.scheduleFor call = some schedule)
    (nav : Decimal) (ties : Ties) :
    ∃ a ∈ (s.accrueDailyFees call nav ties).1.classAccruals call, a.status = .accrued := by
  let mgmt := (s.accrual call .management nav
    (calculateDailyManagementFee nav schedule.managementFeeBps) ties.management).columns
  have stored : mgmt ∈ (s.accrueDailyFees call nav ties).1.accruals := by
    rw [accrueDailyFees, scheduled]
    dsimp only
    split
    · exact List.mem_append_left _ (List.mem_append_right _ List.mem_cons_self)
    · exact List.mem_append_right _ List.mem_cons_self
  refine ⟨mgmt, List.mem_filter.mpr ⟨List.mem_filter.mpr ⟨stored, ?_⟩, ?_⟩, rfl⟩
  · exact decide_eq_true rfl
  · exact decide_eq_true rfl

@[simp] theorem crystallizeAccruals_schedules :
    (s.crystallizeAccruals call).schedules = s.schedules := by
  unfold crystallizeAccruals
  induction (s.classAccruals call).filter (·.status = .accrued) generalizing s with
  | nil => rfl
  | cons a rest ih => exact (ih (s := s.updateStatus a.id .crystallized)).trans rfl

end FeeTables

namespace FeeBooks

theorem crystallize_schedules (s : FeeBooks) (call : FeeCall) (ties : Ties) :
    (s.crystallize call ties).tables.schedules = s.tables.schedules := by
  rw [crystallize_eq]
  split
  · exact FeeTables.crystallizeAccruals_schedules
  · rfl
  · rfl

/-- The accrued fees of the class are crystallized, and a high-water mark of the day is stored. -/
structure Crystallized (call : FeeCall) (s s' : FeeBooks) : Prop where
  moved : ∀ a ∈ s'.tables.classAccruals call, a.status ≠ .accrued
  renewed : ∃ mark, s'.tables.marks = s.tables.marks ++ [mark] ∧
    mark.portfolioId = call.portfolioId ∧ mark.shareClass = call.shareClass ∧
      mark.hwmDate = call.businessDate

section Step

variable {s : FeeBooks} {call : FeeCall} {ties : Ties} {schedule : FeeScheduleRecord}

theorem not_crystallized_self : ¬ Crystallized call s s := by
  rintro ⟨-, mark, grown, -⟩
  simp at grown

/-- Where a fee has accrued, the frequency decides. -/
theorem crystallized_iff (scheduled : s.tables.scheduleFor call = some schedule)
    (accrued : s.tables.classAccruals call ≠ []) :
    Crystallized call s (s.crystallize call ties) ↔
      shouldCrystallize schedule.crystallizationFrequency call.businessDate = .ok true := by
  rw [crystallize_eq]
  unfold FeeTables.basis
  rw [scheduled]
  dsimp only
  cases decided : shouldCrystallize schedule.crystallizationFrequency call.businessDate with
  | error e => exact iff_of_false not_crystallized_self fun h => nomatch h
  | ok boundary =>
    cases boundary with
    | false => exact iff_of_false not_crystallized_self fun h => nomatch h
    | true =>
      dsimp only
      cases taken : latestRow (·.accrualDate.toordinal) (s.tables.classAccruals call) ties.accrual with
      | none => exact absurd (latestRow_eq_none_iff.mp taken) accrued
      | some latest =>
        refine iff_of_true ⟨?_, ?_⟩ rfl
        · exact s.tables.none_accrued call
        · refine ⟨(FeeTables.newMark call latest
            (s.tables.getLatest call.portfolioId call.shareClass ties.mark)).columns, ?_, rfl, rfl, rfl⟩
          simp [FeeTables.insertMark]

end Step

/-! ## Runs -/

section Runs

variable (portfolioId shareClass : String)

/-- The call is for the class. -/
def Own (call : FeeCall) : Prop := call.portfolioId = portfolioId ∧ call.shareClass = shareClass

instance (call : FeeCall) : Decidable (Own portfolioId shareClass call) :=
  inferInstanceAs (Decidable (_ ∧ _))

/-- The dates on which the fees of the class are to be crystallized. -/
def callDates (steps : List FeeStep) : List CivilDate :=
  steps.filterMap fun
    | .crystallize call _ =>
      if Own portfolioId shareClass call then some call.businessDate else none
    | .accrue .. | .saveSchedules _ => none

/-- Whenever they are, the fund has that frequency and some fee has accrued. -/
def Due (frequency : String) (s : FeeBooks) : FeeStep → Prop
  | .crystallize call _ => Own portfolioId shareClass call →
      (∃ schedule ∈ s.tables.scheduleFor call, schedule.crystallizationFrequency = frequency) ∧
        ∃ a ∈ s.tables.classAccruals call, a.status = .accrued
  | .accrue .. | .saveSchedules _ => True

def CrystallizedOn (s : FeeBooks) (steps : List FeeStep) (d : CivilDate) : Prop :=
  ∃ m ∈ system.moments s steps, ∃ call ties, m.2.1 = .crystallize call ties ∧
    Own portfolioId shareClass call ∧ call.businessDate = d ∧ Crystallized call m.1 m.2.2

variable {portfolioId shareClass} {s : FeeBooks} {steps : List FeeStep} {period : Period}
  {d : CivilDate}

theorem mem_callDates : d ∈ callDates portfolioId shareClass steps ↔
    ∃ call ties, .crystallize call ties ∈ steps ∧ Own portfolioId shareClass call ∧
      call.businessDate = d := by
  rw [callDates, List.mem_filterMap]
  constructor
  · rintro ⟨step, member, found⟩
    cases step with
    | crystallize call ties =>
      dsimp only at found
      split at found
      · rename_i own
        exact ⟨call, ties, member, own, Option.some.inj found⟩
      · cases found
    | accrue call nav ties => cases found
    | saveSchedules schedules => cases found
  · rintro ⟨call, ties, member, own, rfl⟩
    exact ⟨_, member, if_pos own⟩

/-- Each step is taken once, from some state. -/
theorem exists_moment {step : FeeStep} (member : step ∈ steps) :
    ∃ t, (t, step, t.step step) ∈ system.moments s steps := by
  induction steps generalizing s with
  | nil => cases member
  | cons first rest ih =>
    rcases List.mem_cons.mp member with rfl | later
    · exact ⟨s, List.mem_cons_self⟩
    · obtain ⟨t, inside⟩ := ih (s := s.step first) later
      exact ⟨t, List.mem_cons_of_mem _ inside⟩

/-- Of the days of a period that are run, the last is the one that crystallizes. -/
theorem crystallizedOn_iff
    (due : system.Along (Due portfolioId shareClass period.frequency) s steps)
    (inside : period.Contains d) :
    CrystallizedOn portfolioId shareClass s steps d ↔
      d ∈ callDates portfolioId shareClass steps ∧ d = period.lastDay ∧ ¬ period.IsFinalQuarter := by
  have effect : ∀ t call ties, (t, FeeStep.crystallize call ties, t.crystallize call ties) ∈
      system.moments s steps → Own portfolioId shareClass call → call.businessDate = d →
      (Crystallized call t (t.crystallize call ties) ↔
        d = period.lastDay ∧ ¬ period.IsFinalQuarter) := by
    rintro t call ties member own rfl
    have always : ∀ t step next, True → Due portfolioId shareClass period.frequency t step →
        system.step t step = some next → True := fun _ _ _ _ _ _ => trivial
    have met := (due.moments always trivial member).2
    obtain ⟨⟨schedule, scheduled, same⟩, a, stored, -⟩ := met own
    rw [crystallized_iff scheduled (List.ne_nil_of_mem stored), same, shouldCrystallize_iff inside]
  constructor
  · rintro ⟨⟨t, step, next⟩, member, call, ties, rfl, own, dated, crystallized⟩
    obtain rfl : t.step (.crystallize call ties) = next :=
      Option.some.inj (System.step_of_mem_moments member)
    exact ⟨mem_callDates.mpr ⟨call, ties, System.label_of_mem_moments member, own, dated⟩,
      (effect t call ties member own dated).mp crystallized⟩
  · rintro ⟨called, last⟩
    obtain ⟨call, ties, member, own, dated⟩ := mem_callDates.mp called
    obtain ⟨t, moment⟩ := exists_moment (s := s) member
    exact ⟨_, moment, call, ties, rfl, own, dated, (effect t call ties moment own dated).mpr last⟩

/-- The fees are crystallized on one of the days of the period, exactly when its last day is a
weekday or is run anyway, and the day after it can be built. -/
theorem crystallizes_once_iff
    (due : system.Along (Due portfolioId shareClass period.frequency) s steps)
    (weekdays : ∀ d, period.Contains d → IsWeekday d → d ∈ callDates portfolioId shareClass steps) :
    (∃! d, period.Contains d ∧ CrystallizedOn portfolioId shareClass s steps d) ↔
      (IsWeekday period.lastDay ∨ period.lastDay ∈ callDates portfolioId shareClass steps) ∧
        ¬ period.IsFinalQuarter := by
  constructor
  · rintro ⟨d, ⟨inside, crystallized⟩, -⟩
    obtain ⟨called, rfl, buildable⟩ := (crystallizedOn_iff due inside).mp crystallized
    exact ⟨.inr called, buildable⟩
  · rintro ⟨run, buildable⟩
    have last := contains_lastDay period
    have called := run.elim (weekdays _ last) id
    refine ⟨period.lastDay, ⟨last, (crystallizedOn_iff due last).mpr ⟨called, rfl, buildable⟩⟩, ?_⟩
    rintro d ⟨inside, crystallized⟩
    exact ((crystallizedOn_iff due inside).mp crystallized).2.1

end Runs

/-! ## Days that are run -/

section Days

/-- The fees of each day are accrued and then crystallized. -/
def daily (days : List CivilDate) (nav : Decimal) : List FeeStep :=
  days.flatMap fun day => quarterEnd day nav

theorem callDates_daily (days : List CivilDate) (nav : Decimal) :
    callDates "p" "default" (daily days nav) = days := by
  induction days with
  | nil => rfl
  | cons day rest ih => exact congrArg (day :: ·) ih

/-- A management fee accrues on each day, whatever the NAV. -/
theorem due_daily (days : List CivilDate) (nav : Decimal) {s : FeeBooks}
    (schedules : s.tables.schedules = [quarterly]) :
    system.Along (Due "p" "default" "quarterly") s (daily days nav) := by
  induction days generalizing s with
  | nil => trivial
  | cons day rest ih =>
    have scheduled : ∀ t : FeeBooks, t.tables.schedules = [quarterly] →
        t.tables.scheduleFor ⟨"p", "alpha", day, "default"⟩ = some quarterly := by
      intro t same
      simp [FeeTables.scheduleFor, FeeTables.scheduleOf, FeeTables.getByFundSlug, same, quarterly]
    have kept := schedules.symm.trans (FeeTables.accrueDailyFees_schedules s.tables
      ⟨"p", "alpha", day, "default"⟩ nav {}).symm
    refine ⟨trivial, fun _ => ⟨⟨quarterly, scheduled _ kept.symm, rfl⟩, ?_⟩, ih ?_⟩
    · exact FeeTables.accrued_today (scheduled s schedules) nav {}
    · exact (crystallize_schedules _ _ _).trans kept.symm

/-- All days of a month, as far as there are any. -/
def daysOf (year month : Nat) : List CivilDate :=
  (List.range' 1 31).filterMap fun day : Nat => (CivilDate.of year month day).toOption

theorem mem_daysOf (d : CivilDate) : d ∈ daysOf d.year d.month := by
  obtain ⟨year, month, day, inYears, inMonths, inDays⟩ := d
  have short : daysInMonth year month ≤ 31 := by
    unfold daysInMonth
    split
    · split <;> omega
    · omega
    · omega
    · omega
    · omega
    · omega
  have position : 1 ≤ day ∧ day < 1 + 31 := by omega
  refine List.mem_filterMap.mpr ⟨day, List.mem_range'_1.mpr position, ?_⟩
  have within : 1 ≤ (day : Int) ∧ (day : Int) ≤ daysInMonth year month := by omega
  rw [CivilDate.of, dif_pos inYears, dif_pos inMonths, dif_pos within]
  rfl

/-- The weekdays of a quarter. -/
def weekdaysOf (year : Nat) (number : Fin 4) : List CivilDate :=
  [1, 2, 3].flatMap fun month =>
    (daysOf year (3 * number + month)).filter fun d => IsWeekday d

theorem mem_weekdaysOf {year : Nat} {number : Fin 4} (inYears : 1 ≤ year ∧ year ≤ 9999)
    {d : CivilDate} (inside : Period.Contains ⟨year, inYears, .quarter number⟩ d)
    (weekday : IsWeekday d) : d ∈ weekdaysOf year number := by
  obtain ⟨rfl, quarter⟩ := inside
  obtain ⟨first, upto⟩ := d.inMonths
  have month : d.month = 3 * number + (d.month - 3 * number) := by
    dsimp only at quarter
    omega
  refine List.mem_flatMap.mpr ⟨d.month - 3 * number, ?_, List.mem_filter.mpr ⟨?_, ?_⟩⟩
  · simp only [List.mem_cons, List.not_mem_nil, or_false]
    dsimp only at quarter
    omega
  · rw [← month]
    exact mem_daysOf d
  · exact decide_eq_true weekday

/-- The first quarter of 2026 ends on a Tuesday. -/
theorem firstQuarter_crystallizes :
    ∃! d, Period.Contains ⟨2026, by decide, .quarter 0⟩ d ∧
      CrystallizedOn "p" "default" ⟨{ schedules := [quarterly] }, []⟩
        (daily (weekdaysOf 2026 0) 100) d :=
  Iff.mpr
    (crystallizes_once_iff (due_daily _ 100 rfl) fun d inside weekday => by
      rw [callDates_daily]
      exact mem_weekdaysOf (by decide) inside weekday)
    (by decide +kernel)

/-- The second quarter of 2024 ends on a Sunday; each of its weekdays is run. -/
theorem sundayQuarter_skipped :
    (∀ d, Period.Contains ⟨2024, by decide, .quarter 1⟩ d → IsWeekday d →
        d ∈ callDates "p" "default" (daily (weekdaysOf 2024 1) 100)) ∧
      ¬ ∃! d, Period.Contains ⟨2024, by decide, .quarter 1⟩ d ∧
        CrystallizedOn "p" "default" ⟨{ schedules := [quarterly] }, []⟩
          (daily (weekdaysOf 2024 1) 100) d := by
  rw [callDates_daily]
  refine ⟨fun d inside weekday => mem_weekdaysOf (by decide) inside weekday, ?_⟩
  rintro ⟨d, ⟨inside, crystallized⟩, -⟩
  have last := (crystallizedOn_iff (due_daily _ 100 rfl) inside).mp crystallized
  rw [callDates_daily, last.2.1] at last
  exact absurd last.1 (by decide +kernel)

end Days

end FeeBooks

end MiniHedge.FeeAccounting
