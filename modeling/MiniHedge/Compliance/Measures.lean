import MiniHedge.Compliance.Gate
import Mathlib.Algebra.Order.Field.Basic
import Mathlib.Algebra.Order.BigOperators.Group.List
import Mathlib.Tactic.Positivity

/-! What a rule reads of a portfolio.

Each limit rule compares one measure of the exposures with its limit, as a share
of NAV. The evaluators are described once by the reading of their parameters;
what follows for a rule follows from its measure.
-/

set_option autoImplicit false

namespace MiniHedge.Compliance

open MiniHedge.Python MiniHedge.Library

inductive Measure where
  | gross
  | largest
  | entity (groupBy target : String)
  | group (groupBy : String)
  deriving DecidableEq, Repr

def exposureTo (groupBy : String) (entity : Entity) (positions : List PositionInfo) : Decimal :=
  totalOf (·.entity groupBy) (·.exposure) entity positions

def Measure.amount (positions : List PositionInfo) : Measure → Decimal
  | gross => (positions.map (·.exposure)).sum
  | largest => Library.largest (positions.map (·.exposure))
  | entity groupBy target => exposureTo groupBy (.text target) positions
  | group groupBy =>
    Library.largest (positions.map fun pos => exposureTo groupBy (pos.entity groupBy) positions)

theorem exposure_nonneg (pos : PositionInfo) : 0 ≤ pos.exposure := abs_nonneg _

theorem sum_exposure_nonneg (positions : List PositionInfo) :
    0 ≤ (positions.map (·.exposure)).sum := by
  apply List.sum_nonneg
  intro amount member
  obtain ⟨pos, -, rfl⟩ := List.mem_map.mp member
  exact exposure_nonneg pos

theorem Measure.amount_nonneg (positions : List PositionInfo) (m : Measure) :
    0 ≤ m.amount positions := by
  cases m with
  | gross => exact sum_exposure_nonneg positions
  | largest => exact largest_nonneg _
  | entity groupBy target => exact sum_exposure_nonneg _
  | group groupBy => exact largest_nonneg _

theorem Measure.amount_le_gross (positions : List PositionInfo) (m : Measure) :
    m.amount positions ≤ Measure.gross.amount positions := by
  have part : ∀ chosen : List PositionInfo, chosen.Sublist positions →
      (chosen.map (·.exposure)).sum ≤ (positions.map (·.exposure)).sum := by
    intro chosen sub
    apply (sub.map _).sum_le_sum
    intro amount member
    obtain ⟨pos, -, rfl⟩ := List.mem_map.mp member
    exact exposure_nonneg pos
  cases m with
  | gross => exact le_rfl
  | largest =>
    refine largest_le_iff.mpr ⟨sum_exposure_nonneg positions, fun amount member => ?_⟩
    obtain ⟨pos, here, rfl⟩ := List.mem_map.mp member
    simpa [amount] using part [pos] (List.singleton_sublist.mpr here)
  | entity groupBy target => exact part _ List.filter_sublist
  | group groupBy =>
    refine largest_le_iff.mpr ⟨sum_exposure_nonneg positions, fun amount member => ?_⟩
    obtain ⟨pos, -, rfl⟩ := List.mem_map.mp member
    exact part _ List.filter_sublist

theorem Measure.amount_perm {first second : List PositionInfo} (perm : first.Perm second)
    (m : Measure) : m.amount first = m.amount second := by
  have exposures : ∀ groupBy entity,
      exposureTo groupBy entity first = exposureTo groupBy entity second :=
    fun groupBy entity => totalOf_perm _ _ perm entity
  cases m with
  | gross => exact (perm.map _).sum_eq
  | largest => exact largest_congr fun a => (perm.map _).mem_iff
  | entity groupBy target => exact exposures _ _
  | group groupBy =>
    simp only [amount, exposures]
    exact largest_congr fun a => (perm.map _).mem_iff

/-! ## What a rule reads -/

inductive Reading where
  | limit (measure : Measure) (maxPct : Decimal)
  | restricted (instruments : List String)
  | shorts (allowed : Bool)
  deriving DecidableEq, Repr

/-- The measure as a share of NAV is within the limit, where there is a NAV. -/
def PortfolioState.Within (state : PortfolioState) (measure : Measure) (maxPct : Decimal) : Prop :=
  state.nav ≤ 0 ∨ measure.amount state.infos / state.nav * 100 ≤ maxPct

def Reading.Passes (state : PortfolioState) : Reading → Prop
  | limit measure maxPct => state.Within measure maxPct
  | restricted instruments => ∀ entry ∈ state.positions,
      entry.1.toUpper ∉ instruments ++ state.restrictedInstruments.map String.toUpper
  | shorts allowed => allowed ∨ ∀ pos ∈ state.infos, 0 ≤ pos.quantity

def measureOf (groupBy : String) : Option String → Measure
  | some target => .entity groupBy target
  | none => .group groupBy

/-- A maximal leverage is a limit on the gross exposure in units of NAV. -/
def RuleDefinition.reading (rule : RuleDefinition) : Except Exc Reading :=
  match rule.ruleType with
  | .concentrationLimit => do return .limit .largest (← rule.maxPct)
  | .sectorLimit => do return .limit (measureOf "sector" (namedTarget rule "sector")) (← rule.maxPct)
  | .countryLimit => do
    return .limit (measureOf "country" (namedTarget rule "country")) (← rule.maxPct)
  | .restrictedList => do return .restricted (← restrictedInline rule)
  | .shortSelling => .ok (.shorts (rule.parameters.get "allow_short" (.bool false)).truthy)
  | .aggregateExposure => do
    return .limit (measureOf (rule.parameters.get "group_by" (.text "instrument_id")).str
      (valuedTarget rule "entity")) (← rule.maxPct)
  | .assetClassLimit => do
    return .limit (measureOf "asset_class" (valuedTarget rule "asset_class")) (← rule.maxPct)
  | .leverageLimit => do
    let maxLeverage ← (rule.parameters.get "max_leverage" (.number 1 "1")).asDecimal
    return .limit .gross (maxLeverage * 100)

/-- A result of the rule that passes as it should. -/
structure RuleDefinition.Judged (rule : RuleDefinition) (r : EvaluationResult) (passes : Prop) :
    Prop where
  severity : r.severity = rule.severity
  passed : r.passed = true ↔ passes

section Evaluation

variable (state : PortfolioState) (rule : RuleDefinition)

theorem percent_strictMono {nav : Decimal} (positive : 0 < nav) :
    StrictMono fun amount : Decimal => amount / nav * 100 := by
  intro a b below
  have scaled : a / nav < b / nav := div_lt_div_of_pos_right below positive
  exact mul_lt_mul_of_pos_right scaled (by norm_num)

theorem checkPercent_judged (maxPct : Decimal) (amounts : List Decimal) :
    rule.Judged (checkPercent state rule maxPct amounts)
      (state.nav ≤ 0 ∨ largest amounts / state.nav * 100 ≤ maxPct) := by
  unfold checkPercent
  by_cases none_left : state.nav ≤ 0
  · rw [if_pos none_left]
    exact ⟨rfl, by simp [none_left, RuleDefinition.result]⟩
  · rw [if_neg none_left]
    have moved := largest_map (percent_strictMono (not_le.mp none_left)) (by simp) amounts
    exact ⟨rfl, by simp [RuleDefinition.result, none_left, moved]⟩

/-- The totals by an attribute are the exposures of the entities that occur. -/
theorem largest_entityTotals (groupBy : String) (positions : List PositionInfo) :
    largest ((totals (·.entity groupBy) (·.exposure) positions).map (·.2)) =
      (Measure.group groupBy).amount positions := by
  apply largest_congr
  intro total
  rw [mem_totals, List.mem_map]
  constructor
  · rintro ⟨pos, here, rfl⟩
    exact ⟨pos, here, rfl⟩
  · rintro ⟨pos, here, rfl⟩
    exact ⟨pos, here, rfl⟩

theorem largest_entityTotal (groupBy target : String) (positions : List PositionInfo) :
    largest [((totals (·.entity groupBy) (·.exposure) positions).lookup (.text target)).getD 0] =
      (Measure.entity groupBy target).amount positions := by
  have total : ((totals (·.entity groupBy) (·.exposure) positions).lookup (.text target)).getD 0 =
      (Measure.entity groupBy target).amount positions := by
    rw [lookup_totals]
    split
    · rfl
    · rename_i missing
      have nobody : positions.filter (fun pos => pos.entity groupBy = .text target) = [] := by
        rw [List.filter_eq_nil_iff]
        intro pos here same
        exact missing (List.mem_map.mpr ⟨pos, here, of_decide_eq_true same⟩)
      simp [Measure.amount, exposureTo, totalOf, nobody]
  rw [total]
  have nonneg := Measure.amount_nonneg positions (.entity groupBy target)
  rcases nonneg.eq_or_lt with zero | above
  · simp [largest, ← zero]
  · simp [largest, above]

theorem checkGroups_judged (maxPct : Decimal) (groupBy : String) (target : Option String) :
    rule.Judged (checkGroups state rule maxPct groupBy target)
      (state.Within (measureOf groupBy target) maxPct) := by
  unfold checkGroups
  cases target with
  | none =>
    dsimp only [measureOf]
    unfold PortfolioState.Within
    rw [← largest_entityTotals]
    exact checkPercent_judged ..
  | some target =>
    dsimp only [measureOf]
    unfold PortfolioState.Within
    rw [← largest_entityTotal]
    exact checkPercent_judged ..

theorem restrictedList_judged {inlined : List String} (read : restrictedInline rule = .ok inlined) :
    ∃ r, restrictedList state rule = .ok r ∧
      rule.Judged r ((Reading.restricted inlined).Passes state) := by
  refine ⟨_, by simp [restrictedList, read, Bind.bind, Except.bind]; rfl, rfl, ?_⟩
  simp [RuleDefinition.result, Reading.Passes, List.filter_eq_nil_iff]

theorem shortSelling_judged : ∃ r, shortSelling state rule = .ok r ∧
    rule.Judged r ((Reading.shorts
      (rule.parameters.get "allow_short" (.bool false)).truthy).Passes state) := by
  unfold shortSelling
  by_cases allowed : (rule.parameters.get "allow_short" (.bool false)).truthy = true
  · rw [if_pos allowed]
    exact ⟨_, rfl, rfl, by simp [RuleDefinition.result, Reading.Passes, allowed]⟩
  · rw [if_neg allowed]
    exact ⟨_, rfl, rfl, by simp [RuleDefinition.result, Reading.Passes, allowed,
      List.filter_eq_nil_iff]⟩

theorem leverageLimit_judged {maxLeverage : Decimal}
    (read : (rule.parameters.get "max_leverage" (.number 1 "1")).asDecimal = .ok maxLeverage) :
    ∃ r, leverageLimit state rule = .ok r ∧
      rule.Judged r (state.Within .gross (maxLeverage * 100)) := by
  unfold leverageLimit
  rw [read]
  by_cases none_left : state.nav ≤ 0
  · exact ⟨rule.result true none none, by simp [none_left, Bind.bind, Except.bind]; rfl, rfl,
      by simp [RuleDefinition.result, PortfolioState.Within, none_left]⟩
  · refine ⟨rule.result (state.grossNotional / state.nav ≤ maxLeverage)
      (some (state.grossNotional / state.nav)) (some maxLeverage),
      by simp [none_left, Bind.bind, Except.bind]; rfl, rfl, ?_⟩
    have scaled : state.grossNotional / state.nav * 100 ≤ maxLeverage * 100 ↔
        state.grossNotional / state.nav ≤ maxLeverage :=
      mul_le_mul_iff_of_pos_right (by norm_num)
    have measured : Measure.gross.amount state.infos = state.grossNotional := rfl
    rw [PortfolioState.Within, measured, or_iff_right none_left, scaled]
    exact decide_eq_true_iff

/-- The evaluators, by what they read: a rule is evaluated exactly if its
parameters can be read, and passes as the reading says. -/
theorem evaluate_reading :
    match rule.reading with
    | .ok reading => ∃ r, evaluate state rule = .ok r ∧ rule.Judged r (reading.Passes state)
    | .error e => evaluate state rule = .error e := by
  unfold RuleDefinition.reading evaluate
  cases rule.ruleType with
  | concentrationLimit =>
    dsimp only
    unfold concentrationLimit
    cases rule.maxPct with
    | ok maxPct => exact ⟨_, rfl, checkPercent_judged ..⟩
    | error e => rfl
  | sectorLimit =>
    dsimp only
    unfold sectorLimit
    cases rule.maxPct with
    | ok maxPct => exact ⟨_, rfl, checkGroups_judged ..⟩
    | error e => rfl
  | countryLimit =>
    dsimp only
    unfold countryLimit
    cases rule.maxPct with
    | ok maxPct => exact ⟨_, rfl, checkGroups_judged ..⟩
    | error e => rfl
  | restrictedList =>
    dsimp only
    cases read : restrictedInline rule with
    | ok inlined => exact restrictedList_judged state rule read
    | error e => simp [restrictedList, read, Bind.bind, Except.bind]
  | shortSelling => exact shortSelling_judged state rule
  | aggregateExposure =>
    dsimp only
    unfold aggregateExposure
    cases rule.maxPct with
    | ok maxPct => exact ⟨_, rfl, checkGroups_judged ..⟩
    | error e => rfl
  | assetClassLimit =>
    dsimp only
    unfold assetClassLimit
    cases rule.maxPct with
    | ok maxPct => exact ⟨_, rfl, checkGroups_judged ..⟩
    | error e => rfl
  | leverageLimit =>
    dsimp only
    cases read : (rule.parameters.get "max_leverage" (.number 1 "1")).asDecimal with
    | ok maxLeverage => exact leverageLimit_judged state rule read
    | error e => simp [leverageLimit, read, Bind.bind, Except.bind]

theorem evaluate_ok {reading : Reading} (read : rule.reading = .ok reading) :
    ∃ r, evaluate state rule = .ok r ∧ rule.Judged r (reading.Passes state) := by
  have spec := evaluate_reading state rule
  rw [read] at spec
  exact spec

theorem reading_of_evaluate {r : EvaluationResult} (evaluated : evaluate state rule = .ok r) :
    ∃ reading, rule.reading = .ok reading ∧ rule.Judged r (reading.Passes state) := by
  have spec := evaluate_reading state rule
  cases read : rule.reading with
  | ok reading =>
    rw [read, evaluated] at spec
    obtain ⟨r', same, judged⟩ := spec
    cases same
    exact ⟨reading, rfl, judged⟩
  | error e =>
    rw [read, evaluated] at spec
    cases spec

end Evaluation

end MiniHedge.Compliance
