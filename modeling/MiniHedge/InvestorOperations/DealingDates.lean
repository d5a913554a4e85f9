import MiniHedge.InvestorOperations.FundTerms
import MiniHedge.Library.Marks
import MiniHedge.Library.Raising
import MiniHedge.Python.Dates
import Mathlib.Tactic.Linarith

/-! The next dealing date is the earliest of all that are scheduled. -/

set_option autoImplicit false

namespace MiniHedge.InvestorOperations

open MiniHedge.Python MiniHedge.Library
open MiniHedge.CashManagement (Date weekday)

/-- A day of the month, or `-1` for the last one. -/
def IsDealingDay (dealingDay : Int) : Prop := dealingDay = -1 ∨ 1 ≤ dealingDay ∧ dealingDay ≤ 31

/-- The months of a frequency. -/
def RedemptionFrequency.Allows : RedemptionFrequency → Nat → Prop
  | .monthly, _ => True
  | .quarterly, month => month % 3 = 0
  | .annual, month => month = 12

/-- The day of one of its months that the terms name, or the last day of a shorter month. -/
structure Scheduled (frequency : RedemptionFrequency) (dealingDay : Int) (d : CivilDate) : Prop where
  month : frequency.Allows d.month
  day : (d.day : Int) =
    if dealingDay = -1 then (daysInMonth d.year d.month : Int) else min dealingDay (daysInMonth d.year d.month)

/-- The candidates among which the date is looked for. -/
def candidatesOf (frequency : RedemptionFrequency) (dealingDay : Int) (fromDate : CivilDate) :
    Except Exc (List CivilDate) :=
  match frequency with
  | .monthly => monthlyCandidates fromDate.year fromDate.month dealingDay 3
  | .quarterly => quarterlyCandidates fromDate.year dealingDay
  | .annual => annualCandidates fromDate.year dealingDay

theorem computeNextDealingDate_eq {frequency : RedemptionFrequency} {dealingDay : Int} {fromDate : CivilDate}
    {candidates : List CivilDate} (given : candidatesOf frequency dealingDay fromDate = .ok candidates) :
    computeNextDealingDate frequency dealingDay fromDate =
      match (candidates.map fun d => adjustToBusinessDay d.toordinal).find? (fromDate.toordinal ≤ ·) with
      | some d => .ok d
      | none => .ok ((candidates.map fun d => adjustToBusinessDay d.toordinal).getLastD 0) := by
  have bound : computeNextDealingDate frequency dealingDay fromDate =
      (candidatesOf frequency dealingDay fromDate).bind fun candidates =>
        match (candidates.map fun d => adjustToBusinessDay d.toordinal).find? (fromDate.toordinal ≤ ·) with
        | some d => .ok d
        | none => .ok ((candidates.map fun d => adjustToBusinessDay d.toordinal).getLastD 0) := by
    cases frequency with
    | monthly => rfl
    | quarterly => rfl
    | annual => rfl
  exact bound.trans (congrArg (fun result => Except.bind result _) given)

/-! ## Weekends -/

/-- A day less what it is past Friday. -/
def onBusinessDay (d : ℤ) : ℤ := d - max 0 ((d + 6) % 7 - 4)

theorem adjustToBusinessDay_eq (d : ℤ) : adjustToBusinessDay d = onBusinessDay d := by
  have cases : @Eq ℤ (adjustToBusinessDay d)
      (if (d + 6) % 7 = 5 then d - 1 else if (d + 6) % 7 = 6 then d - 2 else d) := rfl
  have same : (if (d + 6) % 7 = 5 then d - 1 else if (d + 6) % 7 = 6 then d - 2 else d) = onBusinessDay d := by
    unfold onBusinessDay
    split
    · omega
    · split
      · omega
      · omega
  exact cases.trans same

theorem weekday_onBusinessDay (d : ℤ) : weekday (onBusinessDay d) < 5 := by
  have day : (onBusinessDay d + 6) % 7 < 5 := by
    unfold onBusinessDay
    omega
  exact day

theorem onBusinessDay_bounds (d : ℤ) : d - 2 ≤ onBusinessDay d ∧ onBusinessDay d ≤ d := by
  unfold onBusinessDay
  omega

/-- Days keep their order, though a weekend comes to be one day with its Friday. -/
theorem onBusinessDay_mono {d d' : ℤ} (order : d ≤ d') : onBusinessDay d ≤ onBusinessDay d' := by
  unfold onBusinessDay
  omega

/-! ## The scheduled day of each month -/

section Schedule

variable (dealingDay : Int)

def dayOf (n : Nat) : Int := if dealingDay = -1 then (monthLength n : Int) else min dealingDay (monthLength n)

def scheduled (n : Nat) : Int := monthStart n + dayOf dealingDay n

def adjusted (n : Nat) : Int := onBusinessDay (scheduled dealingDay n)

/-- A date in the month with that number, on the day that the terms name. -/
structure Names (n : Nat) (d : CivilDate) : Prop where
  month : d.monthIndex = n
  day : (d.day : Int) = dayOf dealingDay n

variable {dealingDay}

theorem Names.adjusted {n : Nat} {d : CivilDate} (names : Names dealingDay n d) :
    adjustToBusinessDay d.toordinal = adjusted dealingDay n := by
  rw [adjustToBusinessDay_eq, d.toordinal_eq, names.month, names.day]
  rfl

theorem Names.scheduled {frequency : RedemptionFrequency} {n : Nat} {d : CivilDate} (names : Names dealingDay n d)
    (allowed : frequency.Allows (n % 12 + 1)) : Scheduled frequency dealingDay d where
  month := by
    rwa [← names.month, CivilDate.monthIndex, index_month d.inMonths] at allowed
  day := by
    rw [names.day, ← names.month, dayOf, monthLength, CivilDate.monthIndex, index_year d.inMonths,
      index_month d.inMonths]

theorem Scheduled.names {frequency : RedemptionFrequency} {d : CivilDate}
    (scheduled : Scheduled frequency dealingDay d) : Names dealingDay d.monthIndex d where
  month := rfl
  day := by
    rw [scheduled.day, dayOf, monthLength, CivilDate.monthIndex, index_year d.inMonths, index_month d.inMonths]

theorem Scheduled.allowed {frequency : RedemptionFrequency} {d : CivilDate}
    (scheduled : Scheduled frequency dealingDay d) :
    12 ≤ d.monthIndex ∧ frequency.Allows (d.monthIndex % 12 + 1) := by
  have inYears := d.inYears
  constructor
  · unfold CivilDate.monthIndex
    omega
  · rw [CivilDate.monthIndex, index_month d.inMonths]
    exact scheduled.month

theorem Names.map_adjusted {months : List Nat} {candidates : List CivilDate}
    (names : List.Forall₂ (Names dealingDay) months candidates) :
    (candidates.map fun d => adjustToBusinessDay d.toordinal) =
      months.map (InvestorOperations.adjusted dealingDay) := by
  induction names with
  | nil => rfl
  | cons first _ ih => rw [List.map_cons, List.map_cons, first.adjusted, ih]

theorem Names.exists_named {months : List Nat} {candidates : List CivilDate}
    (names : List.Forall₂ (Names dealingDay) months candidates) {n : Nat} (inside : n ∈ months) :
    ∃ d, Names dealingDay n d := by
  induction names with
  | nil => cases inside
  | cons first _ ih =>
    rcases List.mem_cons.mp inside with rfl | later
    · exact ⟨_, first⟩
    · exact ih later

variable (valid : IsDealingDay dealingDay)
include valid

theorem dayOf_bounds (n : Nat) : 1 ≤ dayOf dealingDay n ∧ dayOf dealingDay n ≤ monthLength n := by
  have long := (monthLength_bounds n).1
  unfold IsDealingDay at valid
  unfold dayOf
  split
  · omega
  · omega

theorem scheduled_bounds {n : Nat} (later : 12 ≤ n) :
    (monthStart n : Int) < scheduled dealingDay n ∧ scheduled dealingDay n ≤ monthStart (n + 1) := by
  have day := dayOf_bounds valid n
  have next := monthStart_succ later
  unfold scheduled
  constructor
  · omega
  · omega

theorem adjusted_mono {m n : Nat} (later : 12 ≤ m) (order : m ≤ n) :
    adjusted dealingDay m ≤ adjusted dealingDay n := by
  apply onBusinessDay_mono
  rcases order.lt_or_eq with less | rfl
  · have first := (scheduled_bounds valid later).2
    have between := monthStart_le (by omega : 12 ≤ m + 1) less
    have second := (scheduled_bounds valid (by omega : 12 ≤ n)).1
    omega
  · exact le_rfl

/-- The dates of earlier months are over. -/
theorem adjusted_over (fromDate : CivilDate) {n : Nat} (later : 12 ≤ n) (earlier : n < fromDate.monthIndex) :
    adjusted dealingDay n < fromDate.toordinal := by
  have back := (onBusinessDay_bounds (scheduled dealingDay n)).2
  have day := (scheduled_bounds valid later).2
  have between := monthStart_le (by omega : 12 ≤ n + 1) earlier
  have first := fromDate.inDays
  rw [adjusted, fromDate.toordinal_eq]
  omega

/-- The date of the month after next is ahead, though it goes back from a weekend. -/
theorem adjusted_ahead (fromDate : CivilDate) {n : Nat} (ahead : fromDate.monthIndex + 2 ≤ n) :
    fromDate.toordinal ≤ adjusted dealingDay n := by
  have inYears := fromDate.inYears
  have later : 12 ≤ fromDate.monthIndex := by
    unfold CivilDate.monthIndex
    omega
  have back := (onBusinessDay_bounds (scheduled dealingDay n)).1
  have day := (scheduled_bounds valid (by omega : 12 ≤ n)).1
  have between := monthStart_le (by omega : 12 ≤ fromDate.monthIndex + 1) (by omega : fromDate.monthIndex + 1 ≤ n)
  have next := monthStart_succ later
  have last := fromDate.inDays
  have length : monthLength fromDate.monthIndex = daysInMonth fromDate.year fromDate.month := by
    rw [monthLength, CivilDate.monthIndex, index_year fromDate.inMonths, index_month fromDate.inMonths]
  rw [adjusted, fromDate.toordinal_eq]
  omega

theorem resolveDealingDay_names {year month : Nat} (inYears : 1 ≤ year ∧ year ≤ 9999)
    (inMonths : 1 ≤ month ∧ month ≤ 12) :
    ∃ d, resolveDealingDay year month dealingDay = .ok d ∧ Names dealingDay (12 * year + (month - 1)) d := by
  have day := dayOf_bounds valid (12 * year + (month - 1))
  have length : monthLength (12 * year + (month - 1)) = daysInMonth year month := by
    rw [monthLength, index_year inMonths, index_month inMonths]
  have built : ∀ given : Int, given = dayOf dealingDay (12 * year + (month - 1)) →
      ∃ d, CivilDate.of year month given = .ok d ∧ Names dealingDay (12 * year + (month - 1)) d := by
    intro given same
    rw [← same, length] at day
    have there : ((given.toNat : Nat) : Int) = given := Int.toNat_of_nonneg (by omega)
    refine ⟨⟨year, month, given.toNat, inYears, inMonths, by omega⟩, ?_, rfl, there.trans same⟩
    rw [CivilDate.of, dif_pos inYears, dif_pos inMonths, dif_pos day]
  have named : dayOf dealingDay (12 * year + (month - 1)) =
      if dealingDay = -1 then (daysInMonth year month : Int) else min dealingDay (daysInMonth year month) := by
    rw [dayOf, length]
  unfold resolveDealingDay
  simp only
  split
  · rename_i last
    exact built _ (named.trans (if_pos last)).symm
  · rename_i other
    exact built _ (named.trans (if_neg other)).symm

/-! ## The candidates of each frequency -/

theorem monthlyCandidates_names {year month : Nat} (inYears : 1 ≤ year) (inMonths : 1 ≤ month ∧ month ≤ 12)
    (months : Nat) (fits : 12 * year + (month - 1) + months ≤ 12 * 10000) :
    ∃ candidates, monthlyCandidates year month dealingDay months = .ok candidates ∧
      List.Forall₂ (Names dealingDay) (List.range' (12 * year + (month - 1)) months) candidates := by
  induction months generalizing year month with
  | zero => exact ⟨[], rfl, .nil⟩
  | succ months ih =>
    obtain ⟨first, resolved, names⟩ := resolveDealingDay_names valid ⟨inYears, by omega⟩ inMonths
    simp only [monthlyCandidates, resolved, Bind.bind, Except.bind, List.range'_succ]
    by_cases december : 12 < month + 1
    · obtain ⟨rest, generated, names_rest⟩ := ih (by omega : 1 ≤ year + 1) ⟨le_rfl, by omega⟩ (by omega)
      rw [if_pos december, generated]
      rw [show 12 * (year + 1) + (1 - 1) = 12 * year + (month - 1) + 1 by omega] at names_rest
      exact ⟨first :: rest, rfl, .cons names names_rest⟩
    · obtain ⟨rest, generated, names_rest⟩ := ih inYears (by omega : 1 ≤ month + 1 ∧ month + 1 ≤ 12) (by omega)
      rw [if_neg december, generated]
      rw [show 12 * year + (month + 1 - 1) = 12 * year + (month - 1) + 1 by omega] at names_rest
      exact ⟨first :: rest, rfl, .cons names names_rest⟩

omit valid in
theorem mapM_names {α : Type} {resolve : α → Except Exc CivilDate} {index : α → Nat} {months : List α}
    (each : ∀ x ∈ months, ∃ d, resolve x = .ok d ∧ Names dealingDay (index x) d) :
    ∃ candidates, months.mapM resolve = .ok candidates ∧
      List.Forall₂ (Names dealingDay) (months.map index) candidates := by
  obtain ⟨candidates, read⟩ := exists_mapM fun x inside => (each x inside).imp fun _ both => both.1
  refine ⟨candidates, read, ?_⟩
  rw [List.forall₂_map_left_iff]
  apply (List.forall₂_iff_get.mpr ?_)
  have pairs := List.forall₂_iff_get.mp (mapM_eq_ok.mp read)
  refine ⟨pairs.1, ?_⟩
  intro i left right
  obtain ⟨d, resolved, names⟩ := each _ (List.get_mem months ⟨i, left⟩)
  have same := (pairs.2 i left right).symm.trans resolved
  cases same
  exact names

end Schedule

/-- The numbers of the months that are looked at. -/
def monthsOf (frequency : RedemptionFrequency) (fromDate : CivilDate) : List Nat :=
  match frequency with
  | .monthly => List.range' fromDate.monthIndex 3
  | .quarterly =>
    ([fromDate.year, fromDate.year + 1].flatMap fun y => [3, 6, 9, 12].map (y, ·)).map fun (y, m) => 12 * y + (m - 1)
  | .annual => [fromDate.year, fromDate.year + 1, fromDate.year + 2].map fun y => 12 * y + 11

/-- The candidates are dates of years that there are. -/
def FitsCalendar (frequency : RedemptionFrequency) (fromDate : CivilDate) : Prop :=
  match frequency with
  | .monthly => fromDate.year ≤ 9998 ∨ fromDate.month ≤ 10
  | .quarterly => fromDate.year ≤ 9998
  | .annual => fromDate.year ≤ 9997

section Window

variable {frequency : RedemptionFrequency} {dealingDay : Int} {fromDate : CivilDate}

theorem candidatesOf_names (valid : IsDealingDay dealingDay) (fits : FitsCalendar frequency fromDate) :
    ∃ candidates, candidatesOf frequency dealingDay fromDate = .ok candidates ∧
      List.Forall₂ (Names dealingDay) (monthsOf frequency fromDate) candidates := by
  have inYears := fromDate.inYears
  have inMonths := fromDate.inMonths
  cases frequency with
  | monthly =>
    have fits' : fromDate.year ≤ 9998 ∨ fromDate.month ≤ 10 := fits
    exact monthlyCandidates_names valid inYears.1 inMonths 3 (by omega)
  | quarterly =>
    have fits' : fromDate.year ≤ 9998 := fits
    rw [candidatesOf, quarterlyCandidates, monthsOf]
    apply mapM_names
    rintro ⟨y, m⟩ inside
    have there : (y = fromDate.year ∨ y = fromDate.year + 1) ∧ 1 ≤ m ∧ m ≤ 12 := by
      simp at inside
      omega
    exact resolveDealingDay_names valid (by omega) there.2
  | annual =>
    have fits' : fromDate.year ≤ 9997 := fits
    rw [candidatesOf, annualCandidates, monthsOf]
    apply mapM_names
    intro y inside
    have there : fromDate.year ≤ y ∧ y ≤ fromDate.year + 2 := by
      simp at inside
      omega
    exact resolveDealingDay_names valid (by omega) (by decide)

theorem monthIndex_within (fromDate : CivilDate) :
    12 * fromDate.year ≤ fromDate.monthIndex ∧ fromDate.monthIndex < 12 * fromDate.year + 12 := by
  have inMonths := fromDate.inMonths
  unfold CivilDate.monthIndex
  omega

variable (frequency fromDate)

theorem monthsOf_allowed : ∀ n ∈ monthsOf frequency fromDate, 12 ≤ n ∧ frequency.Allows (n % 12 + 1) := by
  have inYears := fromDate.inYears
  have within := monthIndex_within fromDate
  intro n inside
  cases frequency with
  | monthly =>
    rw [monthsOf, List.mem_range'_1] at inside
    exact ⟨by omega, trivial⟩
  | quarterly =>
    simp [monthsOf] at inside
    simp only [RedemptionFrequency.Allows]
    omega
  | annual =>
    simp [monthsOf] at inside
    simp only [RedemptionFrequency.Allows]
    omega

theorem monthsOf_sorted : (monthsOf frequency fromDate).Pairwise (· < ·) := by
  cases frequency with
  | monthly => exact List.pairwise_lt_range'
  | quarterly =>
    simp [monthsOf]
    omega
  | annual => simp [monthsOf]

/-- Months that are not looked at are over, or come after all that are. -/
theorem monthsOf_complete {n : Nat} (allowed : frequency.Allows (n % 12 + 1)) :
    n ∈ monthsOf frequency fromDate ∨ n < fromDate.monthIndex ∨ ∀ m ∈ monthsOf frequency fromDate, m ≤ n := by
  have within := monthIndex_within fromDate
  cases frequency with
  | monthly =>
    by_cases beyond : fromDate.monthIndex + 3 ≤ n
    · right
      right
      intro m inside
      rw [monthsOf, List.mem_range'_1] at inside
      omega
    · rw [monthsOf, List.mem_range'_1]
      omega
  | quarterly =>
    simp only [RedemptionFrequency.Allows] at allowed
    simp [monthsOf]
    omega
  | annual =>
    simp only [RedemptionFrequency.Allows] at allowed
    simp [monthsOf]
    omega

theorem monthsOf_enough : ∃ m ∈ monthsOf frequency fromDate, fromDate.monthIndex + 2 ≤ m := by
  have within := monthIndex_within fromDate
  cases frequency with
  | monthly => exact ⟨fromDate.monthIndex + 2, by simp [monthsOf], le_rfl⟩
  | quarterly => exact ⟨12 * (fromDate.year + 1) + 11, by simp [monthsOf], by omega⟩
  | annual => exact ⟨12 * (fromDate.year + 2) + 11, by simp [monthsOf], by omega⟩

/-- The first month whose date is not over has the earliest of all that are allowed. -/
theorem exists_dealingMonth (valid : IsDealingDay dealingDay) :
    ∃ m ∈ monthsOf frequency fromDate,
      (monthsOf frequency fromDate).find? (fun n => fromDate.toordinal ≤ adjusted dealingDay n) = some m ∧
        fromDate.toordinal ≤ adjusted dealingDay m ∧
          ∀ n, 12 ≤ n ∧ frequency.Allows (n % 12 + 1) → fromDate.toordinal ≤ adjusted dealingDay n →
            adjusted dealingDay m ≤ adjusted dealingDay n := by
  apply find_earliest _ (monthsOf_sorted frequency fromDate)
  · intro n allowed
    rcases monthsOf_complete frequency fromDate allowed.2 with candidate | earlier | beyond
    · exact .inl candidate
    · exact .inr (.inl (adjusted_over valid fromDate allowed.1 earlier))
    · exact .inr (.inr beyond)
  · obtain ⟨m, inside, later⟩ := monthsOf_enough frequency fromDate
    exact ⟨m, inside, adjusted_ahead valid fromDate later⟩
  · intro m inside n _ order
    exact adjusted_mono valid (monthsOf_allowed frequency fromDate m inside).1 order

end Window

/-! ## The next dealing date -/

/-- The earliest scheduled date, on its business day, that is not over. -/
structure NextDealingDate (frequency : RedemptionFrequency) (dealingDay : Int) (fromDate : CivilDate)
    (result : Date) : Prop where
  businessDay : weekday result < 5
  onOrAfter : fromDate.toordinal ≤ result
  scheduled : ∃ d, Scheduled frequency dealingDay d ∧ result = adjustToBusinessDay d.toordinal
  earliest : ∀ d, Scheduled frequency dealingDay d → fromDate.toordinal ≤ adjustToBusinessDay d.toordinal →
    result ≤ adjustToBusinessDay d.toordinal

/-- Where every candidate is a date, one of them is the next dealing date and nothing falls back to the last. -/
theorem computeNextDealingDate_earliest (frequency : RedemptionFrequency) (dealingDay : Int) (fromDate : CivilDate)
    (valid : IsDealingDay dealingDay) (fits : FitsCalendar frequency fromDate) :
    ∃ candidates result, candidatesOf frequency dealingDay fromDate = .ok candidates ∧
      (candidates.map fun d => adjustToBusinessDay d.toordinal).find? (fromDate.toordinal ≤ ·) = some result ∧
      computeNextDealingDate frequency dealingDay fromDate = .ok result ∧
      NextDealingDate frequency dealingDay fromDate result := by
  obtain ⟨candidates, generated, names⟩ := candidatesOf_names valid fits
  obtain ⟨m, inside, found, reached, least⟩ := exists_dealingMonth frequency fromDate valid
  obtain ⟨d, named⟩ := Names.exists_named names inside
  have first : (candidates.map fun d => adjustToBusinessDay d.toordinal).find? (fromDate.toordinal ≤ ·) =
      some (adjusted dealingDay m) := by
    rw [Names.map_adjusted names, List.find?_map]
    exact congrArg (Option.map (adjusted dealingDay)) found
  refine ⟨candidates, adjusted dealingDay m, generated, first, ?_, ?_⟩
  · rw [computeNextDealingDate_eq generated, first]
  · constructor
    · exact weekday_onBusinessDay _
    · exact reached
    · exact ⟨d, named.scheduled (monthsOf_allowed frequency fromDate m inside).2, named.adjusted.symm⟩
    · -- any other scheduled date is that of a month, which need not be a candidate
      intro other scheduled ahead
      rw [scheduled.names.adjusted] at ahead ⊢
      exact least _ scheduled.allowed ahead

theorem computeNextDealingDate_leapDay : ∃ candidates result,
    candidatesOf .monthly 30 ⟨2024, 2, 10, by decide, by decide, by decide⟩ = .ok candidates ∧
      (candidates.map fun d => adjustToBusinessDay d.toordinal).find?
        ((⟨2024, 2, 10, by decide, by decide, by decide⟩ : CivilDate).toordinal ≤ ·) = some result ∧
      computeNextDealingDate .monthly 30 ⟨2024, 2, 10, by decide, by decide, by decide⟩ = .ok result ∧
      NextDealingDate .monthly 30 ⟨2024, 2, 10, by decide, by decide, by decide⟩ result :=
  computeNextDealingDate_earliest .monthly 30 ⟨2024, 2, 10, by decide, by decide, by decide⟩ (.inr (by decide)) (.inl (by decide))

/-- In November of year 9999 the third candidate is in a year that no date has, though the first would do. -/
theorem lastNovember_raises :
    ¬ ∀ (frequency : RedemptionFrequency) (dealingDay : Int) (fromDate : CivilDate), IsDealingDay dealingDay →
      ∃ result, computeNextDealingDate frequency dealingDay fromDate = .ok result ∧
        NextDealingDate frequency dealingDay fromDate result := by
  intro claimed
  obtain ⟨result, returned, -⟩ :=
    claimed .monthly 20 ⟨9999, 11, 15, by decide, by decide, by decide⟩ (.inr (by decide))
  have raised : computeNextDealingDate .monthly 20 ⟨9999, 11, 15, by decide, by decide, by decide⟩ =
      .error (.valueError "year 10000 is out of range") := by
    rfl
  rw [raised] at returned
  cases returned

end MiniHedge.InvestorOperations
