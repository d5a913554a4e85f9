import MiniHedge.Compliance.Measures
import MiniHedge.Library.Groups

/-! The limit on an aggregate exposure against the limits on one dimension.

Each of the four dedicated evaluators has a loop of its own. What they decide
follows from one measure of the exposures, and so does what the generic one
decides when it groups by the dimension.
-/

set_option autoImplicit false

namespace MiniHedge.Compliance

open MiniHedge.Python MiniHedge.Library

/-! ## What a result decides -/

/-- A result without the rule that it is for. -/
structure Verdict where
  passed : Bool
  currentValue : Option Decimal
  limitValue : Option Decimal
  deriving DecidableEq, Repr

def EvaluationResult.verdict (r : EvaluationResult) : Verdict :=
  ⟨r.passed, r.currentValue, r.limitValue⟩

/-- The decision on one amount. -/
def decided (nav maxPct amount : Decimal) : Verdict :=
  if nav ≤ 0 then ⟨true, none, none⟩
  else ⟨amount / nav * 100 ≤ maxPct, some (amount / nav * 100), some maxPct⟩

section Verdicts

variable (state : PortfolioState) (rule : RuleDefinition) (maxPct : Decimal)

/-- The worst percentage is that of the largest amount. -/
theorem checkPercent_verdict (amounts : List Decimal) :
    (checkPercent state rule maxPct amounts).verdict =
      decided state.nav maxPct (largest amounts) := by
  unfold checkPercent decided
  by_cases gone : state.nav ≤ 0
  · rw [if_pos gone, if_pos gone]
    rfl
  · have worst := largest_map (percent_strictMono (not_le.mp gone)) (by simp) amounts
    rw [if_neg gone, if_neg gone]
    simp only [worst]
    rfl

theorem checkGroups_verdict (groupBy : String) (target : Option String) :
    (checkGroups state rule maxPct groupBy target).verdict =
      decided state.nav maxPct ((measureOf groupBy target).amount state.infos) := by
  unfold checkGroups
  rw [checkPercent_verdict]
  cases target with
  | none => exact congrArg _ (largest_entityTotals groupBy state.infos)
  | some target => exact congrArg _ (largest_entityTotal groupBy target state.infos)

end Verdicts

/-! ## Positions under their own instruments -/

/-- Each position is stored under its own instrument, which has a name. -/
structure PortfolioState.Keyed (state : PortfolioState) : Prop where
  distinct : (state.positions.map (·.1)).Nodup
  own : ∀ entry ∈ state.positions, entry.1 = entry.2.instrumentId
  named : ∀ entry ∈ state.positions, entry.1 ≠ ""

namespace PortfolioState.Keyed

variable {state : PortfolioState}

theorem instruments (keyed : state.Keyed) : (state.infos.map (·.instrumentId)).Nodup := by
  have same : state.infos.map (·.instrumentId) = state.positions.map (·.1) := by
    rw [infos, List.map_map]
    apply List.map_congr_left
    intro entry member
    exact (keyed.own entry member).symm
  exact same ▸ keyed.distinct

theorem named_entity {name : String} (named : name ≠ "") :
    (Entity.text name).orUnknown = .text name := by
  unfold Entity.orUnknown
  split
  · rename_i empty
    exact absurd (Entity.text.inj empty) named
  · rename_i same
    cases same
  · rfl

/-- A position with a name is grouped under it. -/
theorem entities (keyed : state.Keyed) : state.infos.map (·.entity "instrument_id") =
    state.infos.map fun pos => .text pos.instrumentId := by
  apply List.map_congr_left
  intro pos member
  obtain ⟨entry, inside, rfl⟩ := List.mem_map.mp member
  exact named_entity (keyed.own entry inside ▸ keyed.named entry inside)

/-- The exposures to the instruments are those of the positions. -/
theorem group_instruments (keyed : state.Keyed) :
    (Measure.group "instrument_id").amount state.infos = Measure.largest.amount state.infos := by
  have distinct : (state.infos.map (·.entity "instrument_id")).Nodup := by
    have text : Function.Injective Entity.text := fun _ _ same => Entity.text.inj same
    rw [keyed.entities]
    simpa [Function.comp_def] using keyed.instruments.map text
  have each : (state.infos.map fun pos =>
      exposureTo "instrument_id" (pos.entity "instrument_id") state.infos) =
        state.infos.map (·.exposure) := by
    apply List.map_congr_left
    intro pos member
    exact totalOf_unique (·.entity "instrument_id") (·.exposure) distinct member
  simp only [Measure.amount, each]

end PortfolioState.Keyed

/-! ## The attributes -/

/-- What a dedicated evaluator groups by. -/
inductive Dimension where
  | instrument
  | sector
  | country
  | assetClass
  deriving DecidableEq, Repr

namespace Dimension

/-- The attribute of a position, as `group_by` names it. -/
def groupBy : Dimension → String
  | instrument => "instrument_id"
  | sector => "sector"
  | country => "country"
  | assetClass => "asset_class"

/-- The parameter with the target of the dedicated evaluator, where it has one. -/
def target : Dimension → Option String
  | instrument => none
  | sector => some "sector"
  | country => some "country"
  | assetClass => some "asset_class"

/-- The dedicated evaluator. -/
def limit : Dimension → PortfolioState → RuleDefinition → Except Exc EvaluationResult
  | instrument => concentrationLimit
  | sector => sectorLimit
  | country => countryLimit
  | assetClass => assetClassLimit

end Dimension

/-- The generic rule has the limit and the target of the dedicated one: none, or a text. -/
structure Generalizes (dimension : Dimension) (dedicated generic : RuleDefinition) : Prop where
  limit : generic.parameters.get? "max_pct" = dedicated.parameters.get? "max_pct"
  groupBy : (generic.parameters.get "group_by" (.text "instrument_id")).str = dimension.groupBy
  entity : generic.parameters.get? "entity" = dimension.target.bind dedicated.parameters.get?
  text : ∀ target, generic.parameters.get? "entity" = some target → ∃ name, target = .text name

/-- A target that is a text is read in the same way by both readings. -/
theorem namedTarget_eq {rule : RuleDefinition} {key : String}
    (text : ∀ target, rule.parameters.get? key = some target → ∃ name, target = .text name) :
    namedTarget rule key = valuedTarget rule key := by
  unfold namedTarget valuedTarget Parameters.get
  cases given : rule.parameters.get? key with
  | none => rfl
  | some target =>
    obtain ⟨name, rfl⟩ := text target given
    by_cases empty : name = ""
    · subst empty
      rfl
    · simp [Json.str, Json.truthy, empty]

section Agreement

variable {dimension : Dimension} {dedicated generic : RuleDefinition} {first second : PortfolioState}

theorem Generalizes.maxPct (generalizes : Generalizes dimension dedicated generic) :
    generic.maxPct = dedicated.maxPct := by
  unfold RuleDefinition.maxPct Parameters.get
  rw [generalizes.limit]

/-- What a dedicated evaluator decides, by the measure of its dimension. -/
theorem limit_verdict (generalizes : Generalizes dimension dedicated generic)
    (keyed : first.Keyed) :
    (dimension.limit first dedicated).map EvaluationResult.verdict =
      dedicated.maxPct.map fun maxPct => decided first.nav maxPct
        ((measureOf dimension.groupBy (valuedTarget generic "entity")).amount first.infos) := by
  have target : ∀ key, dimension.target = some key →
      valuedTarget generic "entity" = valuedTarget dedicated key ∧
        namedTarget dedicated key = valuedTarget dedicated key := by
    intro key own
    have same : generic.parameters.get? "entity" = dedicated.parameters.get? key := by
      rw [generalizes.entity, own]
      rfl
    refine ⟨by unfold valuedTarget; rw [same], namedTarget_eq fun target given => ?_⟩
    exact generalizes.text target (same.trans given)
  cases read : dedicated.maxPct with
  | error raised => cases dimension <;> simp only [Dimension.limit, concentrationLimit, sectorLimit,
      countryLimit, assetClassLimit, read] <;> rfl
  | ok maxPct =>
    cases dimension with
    | instrument =>
      have none_given : valuedTarget generic "entity" = none := by
        rw [valuedTarget, generalizes.entity]
        rfl
      simp only [Dimension.limit, concentrationLimit, read, none_given]
      refine congrArg Except.ok ((checkPercent_verdict ..).trans ?_)
      exact congrArg _ keyed.group_instruments.symm
    | sector =>
      obtain ⟨same, named⟩ := target _ rfl
      simp only [Dimension.limit, sectorLimit, read, same, named]
      exact congrArg Except.ok (checkGroups_verdict ..)
    | country =>
      obtain ⟨same, named⟩ := target _ rfl
      simp only [Dimension.limit, countryLimit, read, same, named]
      exact congrArg Except.ok (checkGroups_verdict ..)
    | assetClass =>
      obtain ⟨same, -⟩ := target _ rfl
      simp only [Dimension.limit, assetClassLimit, read, same]
      exact congrArg Except.ok (checkGroups_verdict ..)

theorem aggregateExposure_verdict (generalizes : Generalizes dimension dedicated generic) :
    (aggregateExposure second generic).map EvaluationResult.verdict =
      dedicated.maxPct.map fun maxPct => decided second.nav maxPct
        ((measureOf dimension.groupBy (valuedTarget generic "entity")).amount second.infos) := by
  unfold aggregateExposure
  rw [generalizes.maxPct, generalizes.groupBy]
  cases dedicated.maxPct with
  | error raised => rfl
  | ok maxPct => exact congrArg Except.ok (checkGroups_verdict ..)

/-- The generic evaluator decides what the dedicated one does, in whatever order the
positions are. -/
theorem generic_agrees (generalizes : Generalizes dimension dedicated generic)
    (keyed : first.Keyed) (order : second.positions.Perm first.positions)
    (nav : second.nav = first.nav) :
    (aggregateExposure second generic).map EvaluationResult.verdict =
      (dimension.limit first dedicated).map EvaluationResult.verdict := by
  have infos : second.infos.Perm first.infos := order.map _
  rw [limit_verdict generalizes keyed, aggregateExposure_verdict generalizes, nav]
  simp only [Measure.amount_perm infos]

end Agreement

/-! Two instruments of one sector and one of another, in both orders. -/

def mixed : List (String × PositionInfo) :=
  [("AAPL", ⟨"AAPL", 10, 500, "equity", "Tech", "US"⟩),
    ("XOM", ⟨"XOM", 10, 400, "equity", "Energy", "US"⟩),
    ("SAP", ⟨"SAP", -5, -100, "equity", "Tech", "DE"⟩)]

def mixedState (positions : List (String × PositionInfo)) : PortfolioState :=
  ⟨.ofNat 1, positions, 1000, []⟩

def techLimit (ruleType : RuleType) (parameters : Parameters) : RuleDefinition :=
  ⟨.ofNat 2, "tech", ruleType, .block, ("max_pct", .number 50 "50") :: parameters, none⟩

theorem generic_agrees_tech :
    (aggregateExposure (mixedState mixed.reverse) (techLimit .aggregateExposure
      [("group_by", .text "sector"), ("entity", .text "Tech")])).map EvaluationResult.verdict =
        .ok ⟨false, some 60, some 50⟩ := by
  have generalizes : Generalizes .sector (techLimit .sectorLimit [("sector", .text "Tech")])
      (techLimit .aggregateExposure [("group_by", .text "sector"), ("entity", .text "Tech")]) := by
    refine ⟨rfl, rfl, rfl, ?_⟩
    intro target given
    cases given
    exact ⟨_, rfl⟩
  have keyed : (mixedState mixed).Keyed := ⟨by decide, by decide, by decide⟩
  have order : (mixedState mixed.reverse).positions.Perm (mixedState mixed).positions :=
    List.reverse_perm mixed
  rw [generic_agrees generalizes keyed order rfl]
  decide +kernel

end MiniHedge.Compliance
