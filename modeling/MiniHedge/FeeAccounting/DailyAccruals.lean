import MiniHedge.FeeAccounting.QuarterEnds
import MiniHedge.Library.Latest

/-! What the accruals of one class add up to.

A row is inserted whatever rows there are of its date, and its cumulative amount
goes on from any of the latest. As long as no date is accrued again, the rows of
a fee type are one for each date, and carry their running total.
-/

set_option autoImplicit false

namespace MiniHedge.FeeAccounting

open MiniHedge.Python MiniHedge.Library

namespace FeeTables

section Accrued

variable (portfolioId shareClass : String) (s : FeeTables)

def rowsOf : List FeeAccrualRecord :=
  s.accruals.filter fun a => a.portfolioId = portfolioId ∧ a.shareClass = shareClass

/-- The amounts of a fee type that have accrued up to a date. -/
def accruedUpTo (feeType : FeeType) (day : CivilDate) : Decimal :=
  upTo (·.feeType) (·.accrualDate.toordinal) (·.accruedAmount) (s.rowsOf portfolioId shareClass)
    feeType day.toordinal

/-- Each date is counted once: in the rows, in their totals and in the summary. -/
structure CountsOnce : Prop where
  once : ∀ feeType, (((s.rowsOf portfolioId shareClass).filter (·.feeType = feeType)).map
    (·.accrualDate)).Nodup
  cumulative : ∀ a ∈ s.rowsOf portfolioId shareClass,
    a.cumulativeAmount = s.accruedUpTo portfolioId shareClass a.feeType a.accrualDate
  summary : ∀ call, FeeBooks.Own portfolioId shareClass call → ∀ feeType tie,
    (s.getFeeSummary portfolioId).lookup feeType =
      (s.latestByType call feeType tie).map (·.cumulativeAmount)

/-- There are rows of the class alone, and they carry their running totals. -/
structure Kept : Prop where
  own : ∀ a ∈ s.accruals, a.portfolioId = portfolioId ∧ a.shareClass = shareClass
  chained : Chained (·.feeType) (·.accrualDate.toordinal) (·.accruedAmount) (·.cumulativeAmount)
    s.accruals
  cents : ∀ a ∈ s.accruals, OnGrid 2 a.cumulativeAmount

end Accrued

section Steps

variable {portfolioId shareClass : String} {s : FeeTables} {call : FeeCall} {feeType : FeeType}
  {nav fee : Decimal}

theorem Kept.rowsOf_eq (kept : s.Kept portfolioId shareClass) :
    s.rowsOf portfolioId shareClass = s.accruals :=
  List.filter_eq_self.mpr fun a member => decide_eq_true (kept.own a member)

/-- The query by type finds the rows of the type. -/
theorem Kept.latestByType_eq (kept : s.Kept portfolioId shareClass)
    (own : FeeBooks.Own portfolioId shareClass call) (tie : Nat) :
    s.latestByType call feeType tie = latestRow (·.accrualDate.toordinal)
      (s.accruals.filter fun a => a.feeType = feeType) tie := by
  unfold latestByType
  rw [List.filter_congr fun a member => ?_]
  obtain ⟨portfolio, class_⟩ := kept.own a member
  simp [portfolio, class_, own.1, own.2]

/-- The latest row of a type has the total of all. -/
theorem Kept.total_of_latest (kept : s.Kept portfolioId shareClass)
    (own : FeeBooks.Own portfolioId shareClass call) {tie : Nat} {a : FeeAccrualRecord}
    (found : s.latestByType call feeType tie = some a) :
    a ∈ s.accruals ∧
      a.cumulativeAmount = totalOf (·.feeType) (·.accruedAmount) feeType s.accruals := by
  rw [kept.latestByType_eq own] at found
  have latest := mem_of_latestRow found
  exact ⟨(List.mem_filter.mp (mem_latestRows.mp latest).1).1, kept.chained.latest latest⟩

theorem Kept.none_of_latest (kept : s.Kept portfolioId shareClass)
    (own : FeeBooks.Own portfolioId shareClass call) {tie : Nat}
    (missing : s.latestByType call feeType tie = none) :
    s.accruals.filter (fun a => a.feeType = feeType) = [] := by
  rw [kept.latestByType_eq own] at missing
  exact latestRow_eq_none_iff.mp missing

/-- A row after all others of its type. -/
theorem Kept.insertAccrual (kept : s.Kept portfolioId shareClass)
    (own : FeeBooks.Own portfolioId shareClass call) (cents : OnGrid 2 fee) (tie : Nat)
    (later : ∀ a ∈ s.accruals, a.feeType = feeType →
      a.accrualDate.toordinal < call.businessDate.toordinal) :
    (s.insertAccrual (s.accrual call feeType nav fee tie)).Kept portfolioId shareClass := by
  have continues : (s.accrual call feeType nav fee tie).cumulativeAmount =
      totalOf (·.feeType) (·.accruedAmount) feeType s.accruals + fee ∧
        OnGrid 2 (s.accrual call feeType nav fee tie).cumulativeAmount := by
    unfold accrual
    dsimp only
    split
    · rename_i latest found
      obtain ⟨stored, total⟩ := kept.total_of_latest own found
      exact ⟨by rw [total], (kept.cents latest stored).add cents⟩
    · rename_i missing
      rw [totalOf, kept.none_of_latest own missing]
      exact ⟨by simp, cents⟩
  constructor
  · intro a member
    rcases List.mem_append.mp member with old | new
    · exact kept.own a old
    · rw [List.mem_singleton.mp new]
      exact own
  · refine kept.chained.append later ?_
    change numeric 2 _ = _ + numeric 2 fee
    rw [continues.2.numeric_eq, cents.numeric_eq]
    exact continues.1
  · intro a member
    rcases List.mem_append.mp member with old | new
    · exact kept.cents a old
    · rw [List.mem_singleton.mp new]
      exact onGrid_numeric 2 _

theorem performanceFee_cents (schedule : FeeScheduleRecord) (call : FeeCall) (nav : Decimal)
    (mark : Option HighWaterMarkRecord) : OnGrid 2 (performanceFee schedule call nav mark) := by
  have each : ∀ currentNav hwmNav pct hurdleAnnual days,
      OnGrid 2 (calculatePerformanceFee currentNav hwmNav pct hurdleAnnual days) := by
    intro currentNav hwmNav pct hurdleAnnual days
    unfold calculatePerformanceFee
    split
    · exact onGrid_zero
    · dsimp only
      split
      · exact onGrid_zero
      · exact onGrid_quantize 2 _ _
  cases mark with
  | none => exact each _ _ _ _ _
  | some mark => exact each _ _ _ _ _

/-- The fees of a date after all others; the performance fee is of a type of its own. -/
theorem Kept.accrueDailyFees (kept : s.Kept portfolioId shareClass)
    (own : FeeBooks.Own portfolioId shareClass call) (nav : Decimal) (ties : Ties)
    (later : s.scheduleFor call ≠ none → ∀ a ∈ s.classAccruals call,
      a.accrualDate.toordinal < call.businessDate.toordinal) :
    (s.accrueDailyFees call nav ties).1.Kept portfolioId shareClass := by
  unfold FeeTables.accrueDailyFees
  split
  · exact kept
  · rename_i schedule scheduled
    have before : ∀ a ∈ s.accruals, a.accrualDate.toordinal < call.businessDate.toordinal := by
      intro a member
      obtain ⟨portfolio, class_⟩ := kept.own a member
      refine later (by simp [scheduled]) a (List.mem_filter.mpr ⟨List.mem_filter.mpr ⟨member, ?_⟩, ?_⟩)
      · exact decide_eq_true (portfolio.trans own.1.symm)
      · exact decide_eq_true (class_.trans own.2.symm)
    have cents : OnGrid 2 (calculateDailyManagementFee nav schedule.managementFeeBps) :=
      onGrid_quantize 2 .halfUp _
    have managed : (s.insertAccrual (s.accrual call .management nav
        (calculateDailyManagementFee nav schedule.managementFeeBps) ties.management)).Kept
          portfolioId shareClass :=
      kept.insertAccrual own cents ties.management fun a member _ => before a member
    dsimp only
    split
    · -- the management fee of the date is stored by now, of another type
      refine managed.insertAccrual own (performanceFee_cents _ _ _ _) ties.performance ?_
      intro a member performance
      rcases List.mem_append.mp member with old | new
      · exact before a old
      · rw [List.mem_singleton.mp new] at performance
        cases performance
    · exact managed

/-- A crystallization changes what none of the amounts depends on. -/
theorem Kept.crystallizeAccruals (kept : s.Kept portfolioId shareClass) (call : FeeCall) :
    (s.crystallizeAccruals call).Kept portfolioId shareClass := by
  have rows := foldl_updateStatus ((s.classAccruals call).filter (·.status = .accrued)) s
  constructor
  · intro a member
    rw [FeeTables.crystallizeAccruals, rows] at member
    obtain ⟨b, inside, rfl⟩ := List.mem_map.mp member
    split
    · exact kept.own b inside
    · exact kept.own b inside
  · rw [FeeTables.crystallizeAccruals, rows]
    refine kept.chained.map fun a => ?_
    split
    · exact ⟨rfl, rfl, rfl, rfl⟩
    · exact ⟨rfl, rfl, rfl, rfl⟩
  · intro a member
    rw [FeeTables.crystallizeAccruals, rows] at member
    obtain ⟨b, inside, rfl⟩ := List.mem_map.mp member
    split
    · exact kept.cents b inside
    · exact kept.cents b inside

/-- Tables that are kept count each date once. -/
theorem Kept.countsOnce (kept : s.Kept portfolioId shareClass) :
    s.CountsOnce portfolioId shareClass := by
  constructor
  · intro feeType
    rw [kept.rowsOf_eq]
    exact kept.chained.distinct (·.accrualDate) (fun a b same => by rw [same]) feeType
  · intro a member
    rw [kept.rowsOf_eq] at member
    rw [accruedUpTo, kept.rowsOf_eq]
    exact kept.chained.totals a member
  · intro call own feeType tie
    have all : s.accruals.filter (·.portfolioId = portfolioId) = s.accruals :=
      List.filter_eq_self.mpr fun a member => decide_eq_true (kept.own a member).1
    rw [getFeeSummary, all, lookup_totals]
    -- the summary has a type exactly where the query finds a row
    cases found : s.latestByType call feeType tie with
    | none =>
      have missing := List.filter_eq_nil_iff.mp (kept.none_of_latest own found)
      refine if_neg fun occurs => ?_
      obtain ⟨a, member, same⟩ := List.mem_map.mp occurs
      exact missing a member (decide_eq_true same)
    | some a =>
      obtain ⟨-, total⟩ := kept.total_of_latest own found
      rw [kept.latestByType_eq own] at found
      obtain ⟨member, same⟩ := List.mem_filter.mp (mem_latestRows.mp (mem_of_latestRow found)).1
      rw [if_pos (List.mem_map.mpr ⟨a, member, of_decide_eq_true same⟩), Option.map_some, total]

end Steps

end FeeTables

/-! ## Runs -/

namespace FeeBooks

section Runs

variable (portfolioId shareClass : String)

/-- The step is a call for the class, or changes the schedules. -/
def StepOwn : FeeStep → Prop
  | .accrue call _ _ | .crystallize call _ => Own portfolioId shareClass call
  | .saveSchedules _ => True

instance (step : FeeStep) : Decidable (StepOwn portfolioId shareClass step) :=
  match step with
  | .accrue call _ _ | .crystallize call _ =>
    inferInstanceAs (Decidable (Own portfolioId shareClass call))
  | .saveSchedules _ => isTrue trivial

/-- What is accrued for a date comes after the accruals of all other dates. -/
def Later (s : FeeBooks) : FeeStep → Prop
  | .accrue call _ _ => s.tables.scheduleFor call ≠ none →
      ∀ a ∈ s.tables.classAccruals call,
        a.accrualDate.toordinal < call.businessDate.toordinal
  | .crystallize .. | .saveSchedules _ => True

instance (s : FeeBooks) (step : FeeStep) : Decidable (s.Later step) :=
  match step with
  | .accrue call _ _ => inferInstanceAs (Decidable (s.tables.scheduleFor call ≠ none → _))
  | .crystallize .. | .saveSchedules _ => isTrue trivial

variable {portfolioId shareClass} {s : FeeBooks}

theorem kept_step {step : FeeStep} (kept : s.tables.Kept portfolioId shareClass)
    (own : StepOwn portfolioId shareClass step) (later : s.Later step) :
    (s.step step).tables.Kept portfolioId shareClass := by
  cases step with
  | accrue call nav ties => exact kept.accrueDailyFees own nav ties later
  | crystallize call ties =>
    rw [FeeBooks.step, crystallize_eq]
    split
    · have moved := kept.crystallizeAccruals call
      exact ⟨moved.own, moved.chained, moved.cents⟩
    · exact kept
    · exact kept
  | saveSchedules schedules => exact ⟨kept.own, kept.chained, kept.cents⟩

/-- In the runs for one class that accrue each date after all others, each date is counted once. -/
theorem countsOnce_of_later {schedules : List FeeScheduleRecord} {steps : List FeeStep}
    (own : ∀ step ∈ steps, StepOwn portfolioId shareClass step)
    (later : system.Along Later ⟨{ schedules }, []⟩ steps)
    (ran : system.run ⟨{ schedules }, []⟩ steps = some s) :
    s.tables.CountsOnce portfolioId shareClass := by
  have kept : ∀ s label next, s.tables.Kept portfolioId shareClass →
      StepOwn portfolioId shareClass label ∧ Later s label → system.step s label = some next →
      next.tables.Kept portfolioId shareClass := by
    rintro s label next kept ⟨own, later⟩ ⟨⟩
    exact kept_step kept own later
  have initial : (FeeBooks.tables ⟨{ schedules }, []⟩).Kept portfolioId shareClass :=
    ⟨fun _ member => (nomatch member), chained_nil, fun _ member => (nomatch member)⟩
  exact (System.invariant_along kept ((System.along_of_forall own _).and later) ran
    initial).countsOnce

end Runs

section Dates

/-- The ends of two quarters are accrued and crystallized. -/
theorem countsOnce_twoQuarters :
    ∃ s, system.run ⟨{ schedules := [quarterly] }, []⟩
        (quarterEnd march 100000 ++ quarterEnd june 120000) = some s ∧
      s.tables.accruals.length = 3 ∧ s.tables.CountsOnce "p" "default" := by
  have own : ∀ step ∈ quarterEnd march 100000 ++ quarterEnd june 120000,
      StepOwn "p" "default" step := by decide +kernel
  have later : system.Along Later ⟨{ schedules := [quarterly] }, []⟩
      (quarterEnd march 100000 ++ quarterEnd june 120000) := by decide +kernel
  exact ⟨_, rfl, by decide +kernel, countsOnce_of_later own later rfl⟩

/-- The fees of one date are accrued twice. -/
theorem sameDate_twice :
    ∃ s, system.run ⟨{ schedules := [quarterly] }, []⟩
        [.accrue ⟨"p", "alpha", march, "default"⟩ 100000 {},
          .accrue ⟨"p", "alpha", march, "default"⟩ 100000 {}] = some s ∧
      ¬ s.tables.CountsOnce "p" "default" := by
  refine ⟨_, rfl, fun counts => ?_⟩
  have once := counts.once .management
  revert once
  decide +kernel

end Dates

end FeeBooks

end MiniHedge.FeeAccounting
