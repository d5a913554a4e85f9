import MiniHedge.FeeAccounting.HighWaterMark
import MiniHedge.Library.Mapping
import Mathlib.Algebra.BigOperators.Ring.List
import Mathlib.Algebra.Order.BigOperators.Group.List
import Mathlib.Order.CompletePartialOrder
import Mathlib.Order.Interval.Set.Basic

/-! The performance fees of the days between two crystallizations.

Each day is charged for all that the NAV is above the mark, whatever was charged
before. What is charged on a day are the gains between two NAVs.
-/

set_option autoImplicit false

namespace MiniHedge.FeeAccounting

open MiniHedge.Python MiniHedge.Library

/-- A portfolio and a class of its fund. -/
structure Account where
  portfolioId : String
  fundSlug : String
  shareClass : String := "default"
  deriving DecidableEq, Repr

structure Day where
  businessDate : CivilDate
  nav : Decimal
  ties : Ties := {}
  deriving DecidableEq, Repr

namespace Account

variable (account : Account)

def call (day : Day) : FeeCall :=
  ⟨account.portfolioId, account.fundSlug, day.businessDate, account.shareClass⟩

/-- The fees of each day are accrued in turn; of marks of one date, the query answers the
same one each day. -/
def accrueDays (tie : Nat) : FeeTables → List Day → FeeTables × List FeeAccrualRecord
  | s, [] => (s, [])
  | s, day :: rest =>
    let (s, rows) := s.accrueDailyFees (account.call day) day.nav { day.ties with mark := tie }
    let (s, more) := accrueDays tie s rest
    (s, rows ++ more)

def schedule (s : FeeTables) : Option FeeScheduleRecord := s.scheduleOf account.fundSlug account.shareClass

/-- The mark in force. -/
def mark (s : FeeTables) (tie : Nat) : Option HighWaterMarkRecord :=
  s.getLatest account.portfolioId account.shareClass tie

end Account

def performanceTotal (rows : List FeeAccrualRecord) : Decimal :=
  ((rows.filter (·.feeType = .performance)).map (·.accruedAmount)).sum

section Days

variable (account : Account) (schedule : FeeScheduleRecord) (mark : HighWaterMarkRecord)

/-- Above this NAV the day is charged. -/
def threshold (day : Day) : Decimal :=
  hurdleAdjustedHwm mark.hwmNav schedule.hurdleRatePct
    (day.businessDate.toordinal - mark.hwmDate.toordinal)

def dailyFee (day : Day) : Decimal :=
  calculatePerformanceFee day.nav mark.hwmNav schedule.performanceFeePct schedule.hurdleRatePct
    (day.businessDate.toordinal - mark.hwmDate.toordinal)

/-- The gains that the day is charged for. -/
def chargedGains (day : Day) : Set Decimal :=
  { level | 0 < dailyFee schedule mark day ∧ level ∈ Set.Ioc (threshold schedule mark day) day.nav }

/-- The largest excess over the mark. -/
def largestExcess (days : List Day) : Decimal := largest (days.map (·.nav - mark.hwmNav))

/-- What is to hold of the days. -/
structure FairlyCharged (rows : List FeeAccrualRecord) (days : List Day) : Prop where
  bounded : performanceTotal rows ≤ schedule.performanceFeePct / 100 * largestExcess mark days
  once : days.Pairwise fun day later =>
    Disjoint (chargedGains schedule mark day) (chargedGains schedule mark later)

/-- The day is above the mark and above the hurdle. -/
def Gains (day : Day) : Prop := mark.hwmNav < day.nav ∧ threshold schedule mark day < day.nav

instance (day : Day) : Decidable (Gains schedule mark day) := inferInstanceAs (Decidable (_ ∧ _))

/-- The hurdle is not below a level, and its share of what it is above it is half a cent at
least where the fee of the day is rounded up. -/
structure Clears (level : Decimal) (day : Day) : Prop where
  above : level ≤ threshold schedule mark day
  rounded : quantize 2 .halfUp ((day.nav - threshold schedule mark day) * schedule.performanceFeePct / 100) ≤
      (day.nav - threshold schedule mark day) * schedule.performanceFeePct / 100 ∨
    1 / 200 ≤ schedule.performanceFeePct / 100 * (threshold schedule mark day - level)

/-- The hurdle of a day with gains clears the mark, and the NAV of each earlier day with gains. -/
structure Spaced (days : List Day) : Prop where
  percentage : 0 ≤ schedule.performanceFeePct
  each : ∀ day ∈ days, Gains schedule mark day → Clears schedule mark mark.hwmNav day
  apart : days.Pairwise fun day later => Gains schedule mark day → Gains schedule mark later →
    Clears schedule mark day.nav later

instance (level : Decimal) (day : Day) : Decidable (Clears schedule mark level day) :=
  decidable_of_iff (level ≤ threshold schedule mark day ∧ (_ ∨ _)) ⟨fun ⟨above, rounded⟩ => ⟨above, rounded⟩,
    fun ⟨above, rounded⟩ => ⟨above, rounded⟩⟩

end Days

/-! ## What the days are charged -/

section Totals

variable {account : Account} {schedule : FeeScheduleRecord} {mark : HighWaterMarkRecord} {tie : Nat}
  {s : FeeTables} {days : List Day} {day : Day}

theorem performanceTotal_append (rows more : List FeeAccrualRecord) :
    performanceTotal (rows ++ more) = performanceTotal rows + performanceTotal more := by
  simp [performanceTotal]

/-- The rows of one call, by the performance fee. -/
theorem performanceTotal_accrueDailyFees {call : FeeCall} {nav : Decimal} {ties : Ties}
    (scheduled : s.scheduleFor call = some schedule) :
    performanceTotal (s.accrueDailyFees call nav ties).2 =
      let fee := FeeTables.performanceFee schedule call nav
        (s.getLatest call.portfolioId call.shareClass ties.mark)
      if 0 < fee then numeric 2 fee else 0 := by
  unfold FeeTables.accrueDailyFees
  rw [scheduled]
  dsimp only
  have same : ∀ a : FeeAccrualRecord, (s.insertAccrual a).getLatest call.portfolioId call.shareClass
      ties.mark = s.getLatest call.portfolioId call.shareClass ties.mark := fun _ => rfl
  rw [same]
  split
  · simp [performanceTotal, FeeTables.accrual, FeeAccrualRecord.columns]
  · simp [performanceTotal, FeeTables.accrual, FeeAccrualRecord.columns]

theorem dailyFee_eq (day : Day) : dailyFee schedule mark day =
    if Gains schedule mark day then
      quantize 2 .halfUp
        ((day.nav - threshold schedule mark day) * schedule.performanceFeePct / 100)
    else 0 := by
  by_cases gains : Gains schedule mark day
  · have above : ¬ day.nav - threshold schedule mark day ≤ 0 := by linarith [gains.2]
    rw [if_pos gains, dailyFee, calculatePerformanceFee, if_neg (not_le.mpr gains.1)]
    exact if_neg above
  · rw [if_neg gains, dailyFee, calculatePerformanceFee]
    split
    · rfl
    · rename_i above
      refine if_pos (not_lt.mp fun more => gains ⟨not_le.mp above, ?_⟩)
      exact sub_pos.mp more

theorem onGrid_dailyFee (day : Day) : OnGrid 2 (dailyFee schedule mark day) := by
  rw [dailyFee_eq]
  split
  · exact ⟨_, rfl⟩
  · exact onGrid_zero

/-- A day is charged on its own, whatever was charged before. -/
theorem performanceTotal_accrueDays (scheduled : account.schedule s = some schedule)
    (inForce : account.mark s tie = some mark) :
    performanceTotal (account.accrueDays tie s days).2 =
      (days.map fun day => max 0 (dailyFee schedule mark day)).sum := by
  induction days generalizing s with
  | nil => rfl
  | cons day rest ih =>
    have own : performanceTotal (s.accrueDailyFees (account.call day) day.nav
        { day.ties with mark := tie }).2 = max 0 (dailyFee schedule mark day) := by
      have scheduled' : s.scheduleFor (account.call day) = some schedule := scheduled
      have found : s.getLatest (account.call day).portfolioId (account.call day).shareClass tie =
          some mark := inForce
      rw [performanceTotal_accrueDailyFees scheduled', found]
      change (if 0 < dailyFee schedule mark day then numeric 2 (dailyFee schedule mark day) else 0) = _
      rw [(onGrid_dailyFee day).numeric_eq]
      split
      · rename_i positive
        exact (max_eq_right (le_of_lt positive)).symm
      · rename_i nothing
        exact (max_eq_left (not_lt.mp nothing)).symm
    have later := @ih (s.accrueDailyFees (account.call day) day.nav { day.ties with mark := tie }).1
      (by simpa [Account.schedule, FeeTables.scheduleOf, FeeTables.getByFundSlug,
        FeeTables.accrueDailyFees_schedules] using scheduled)
      (by simpa [Account.mark, FeeTables.getLatest, FeeTables.marksOf,
        FeeBooks.accrueDailyFees_marks] using inForce)
    rw [Account.accrueDays, List.map_cons, List.sum_cons, ← own, ← later,
      ← performanceTotal_append]

/-! ## Days whose gains are apart -/

/-- The fee of a day that clears a level is no more than the share of what its NAV is above it. -/
theorem Clears.fee_le {level : Decimal} (clears : Clears schedule mark level day)
    (percentage : 0 ≤ schedule.performanceFeePct) (gains : Gains schedule mark day) :
    max 0 (dailyFee schedule mark day) ≤ schedule.performanceFeePct / 100 * (day.nav - level) := by
  have share : 0 ≤ schedule.performanceFeePct / 100 := by positivity
  have gained : 0 ≤ schedule.performanceFeePct / 100 * (day.nav - level) :=
    mul_nonneg share (by linarith [gains.2, clears.above])
  rw [dailyFee_eq, if_pos gains]
  refine max_le gained ?_
  have split : (day.nav - threshold schedule mark day) * schedule.performanceFeePct / 100 =
      schedule.performanceFeePct / 100 * (day.nav - level) -
        schedule.performanceFeePct / 100 * (threshold schedule mark day - level) := by ring
  rcases clears.rounded with exactly | slack
  · have above : 0 ≤ schedule.performanceFeePct / 100 * (threshold schedule mark day - level) :=
      mul_nonneg share (by linarith [clears.above])
    linarith
  · -- rounding adds half a cent at most
    have near := (quantize_bounds 2 .halfUp
      ((day.nav - threshold schedule mark day) * schedule.performanceFeePct / 100)).2
    norm_num at near
    linarith

/-- The fees of days that clear a level and one another are no more than the share of what is above it. -/
theorem fees_le {level ceiling : Decimal} (percentage : 0 ≤ schedule.performanceFeePct) (within : level ≤ ceiling)
    (above : ∀ day ∈ days, Gains schedule mark day → Clears schedule mark level day)
    (below : ∀ day ∈ days, Gains schedule mark day → day.nav ≤ ceiling)
    (apart : days.Pairwise fun day later => Gains schedule mark day → Gains schedule mark later →
      Clears schedule mark day.nav later) :
    (days.map fun day => max 0 (dailyFee schedule mark day)).sum ≤
      schedule.performanceFeePct / 100 * (ceiling - level) := by
  induction days generalizing level with
  | nil =>
    rw [List.map_nil, List.sum_nil]
    exact mul_nonneg (by positivity) (by linarith)
  | cons day rest ih =>
    obtain ⟨next, apart⟩ := List.pairwise_cons.mp apart
    rw [List.map_cons, List.sum_cons]
    by_cases gains : Gains schedule mark day
    · have own := (above day List.mem_cons_self gains).fee_le percentage gains
      have remaining := ih (below day List.mem_cons_self gains) (fun later member => next later member gains)
        (fun later member => below later (List.mem_cons_of_mem day member)) apart
      linarith
    · have remaining := ih within (fun later member => above later (List.mem_cons_of_mem day member))
        (fun later member => below later (List.mem_cons_of_mem day member)) apart
      rw [dailyFee_eq, if_neg gains, max_self, zero_add]
      exact remaining

theorem chargedGains_subset (day : Day) {level : Decimal}
    (charged : level ∈ chargedGains schedule mark day) : Gains schedule mark day := by
  obtain ⟨positive, -⟩ := charged
  rw [dailyFee_eq] at positive
  by_contra nothing
  rw [if_neg nothing] at positive
  exact absurd positive (lt_irrefl 0)

/-- Days that are spaced are charged once for what they gain. -/
theorem fairlyCharged_of_spaced (scheduled : account.schedule s = some schedule)
    (inForce : account.mark s tie = some mark) (spaced : Spaced schedule mark days) :
    FairlyCharged schedule mark (account.accrueDays tie s days).2 days where
  bounded := by
    rw [performanceTotal_accrueDays scheduled inForce]
    have nonneg := largest_nonneg (days.map (·.nav - mark.hwmNav))
    have within : mark.hwmNav ≤ mark.hwmNav + largestExcess mark days := by
      rw [largestExcess]
      linarith
    have below : ∀ day ∈ days, Gains schedule mark day → day.nav ≤ mark.hwmNav + largestExcess mark days := by
      intro day member gains
      have excess := le_largest (List.mem_map.mpr ⟨day, member, rfl⟩ :
        day.nav - mark.hwmNav ∈ days.map (·.nav - mark.hwmNav))
      rw [largestExcess]
      linarith
    have top := fees_le spaced.percentage within spaced.each below spaced.apart
    rwa [add_sub_cancel_left] at top
  once := spaced.apart.imp fun apart => Set.disjoint_left.mpr fun level charged again => by
    have reached := (apart (chargedGains_subset _ charged) (chargedGains_subset _ again)).above
    exact absurd (charged.2.2.trans reached) (not_le.mpr again.2.1)

end Totals

/-! ## Two days -/

section TwoDays

def april (day : Nat) (valid : 1 ≤ day ∧ day ≤ 30) : CivilDate :=
  ⟨2026, 4, day, FeeBooks.march.inYears, by decide, valid⟩

/-- The fund of the example, with a mark of 100 from the end of March. -/
def marked : FeeTables where
  schedules := [FeeBooks.quarterly]
  marks := [⟨"p", "default", FeeBooks.march, 100, 100⟩]

def account : Account := ⟨"p", "alpha", "default"⟩

theorem fairlyCharged_oneGain :
    FairlyCharged FeeBooks.quarterly ⟨"p", "default", FeeBooks.march, 100, 100⟩
      (account.accrueDays 0 marked [⟨april 1 (by decide), 110, {}⟩, ⟨april 2 (by decide), 95, {}⟩]).2
      [⟨april 1 (by decide), 110, {}⟩, ⟨april 2 (by decide), 95, {}⟩] :=
  fairlyCharged_of_spaced (by decide +kernel) (by decide +kernel)
    ⟨by decide +kernel, by decide +kernel, by decide +kernel⟩

/-- The NAV stays at 110, and its gain is charged on both days. -/
theorem charged_twice :
    ¬ FairlyCharged FeeBooks.quarterly ⟨"p", "default", FeeBooks.march, 100, 100⟩
      (account.accrueDays 0 marked [⟨april 1 (by decide), 110, {}⟩, ⟨april 2 (by decide), 110, {}⟩]).2
      [⟨april 1 (by decide), 110, {}⟩, ⟨april 2 (by decide), 110, {}⟩] := by
  intro fair
  have bounded := fair.bounded
  revert bounded
  decide +kernel

end TwoDays

end MiniHedge.FeeAccounting
