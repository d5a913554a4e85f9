import MiniHedge.Library.Mapping
import MiniHedge.Python.Json

/-! The rule evaluators of the compliance engine.

A rule is evaluated on a snapshot of a portfolio: its positions by instrument,
and its NAV. The limit evaluators pass without a check when the NAV is not
positive, and otherwise compare the largest share of it with the limit. The
message of a result is left out. `toUpper` and `toLower` change the letters of ASCII
alone, where `upper` and `lower` of the source change all letters: identifiers and
sides are taken to be ASCII.
-/

set_option autoImplicit false

namespace MiniHedge.Compliance

open MiniHedge.Python MiniHedge.Library

inductive RuleType where
  | concentrationLimit
  | sectorLimit
  | countryLimit
  | restrictedList
  | shortSelling
  | aggregateExposure
  | assetClassLimit
  | leverageLimit
  deriving DecidableEq, Repr

def RuleType.ofValue : String → Except Exc RuleType
  | "concentration_limit" => .ok .concentrationLimit
  | "sector_limit" => .ok .sectorLimit
  | "country_limit" => .ok .countryLimit
  | "restricted_list" => .ok .restrictedList
  | "short_selling" => .ok .shortSelling
  | "aggregate_exposure" => .ok .aggregateExposure
  | "asset_class_limit" => .ok .assetClassLimit
  | "leverage_limit" => .ok .leverageLimit
  | value => .error (.valueError s!"'{value}' is not a valid RuleType")

inductive Severity where
  | block
  | warning
  | breach
  deriving DecidableEq, Repr

def Severity.ofValue : String → Except Exc Severity
  | "block" => .ok .block
  | "warning" => .ok .warning
  | "breach" => .ok .breach
  | value => .error (.valueError s!"'{value}' is not a valid Severity")

structure RuleDefinition where
  id : UUID
  name : String
  ruleType : RuleType
  severity : Severity
  parameters : Parameters
  gracePeriodHours : Option Int
  deriving DecidableEq, Repr

structure EvaluationResult where
  ruleId : UUID
  ruleName : String
  passed : Bool
  severity : Severity
  currentValue : Option Decimal := none
  limitValue : Option Decimal := none
  deriving DecidableEq, Repr

structure PositionInfo where
  instrumentId : String
  quantity : Decimal
  marketValue : Decimal
  assetClass : String := ""
  sector : String := ""
  country : String := ""
  deriving DecidableEq, Repr

structure PortfolioState where
  portfolioId : UUID
  positions : List (String × PositionInfo) := []
  nav : Decimal := 0
  restrictedInstruments : List String := []
  deriving DecidableEq, Repr

/-- What positions are grouped by. -/
inductive Entity where
  | text (value : String)
  | decimal (value : Decimal)
  deriving DecidableEq, Repr

/-- `value or "Unknown"`. -/
def Entity.orUnknown : Entity → Entity
  | .text "" => .text "Unknown"
  | .decimal value => if value = 0 then .text "Unknown" else .decimal value
  | entity => entity

namespace PositionInfo

def exposure (pos : PositionInfo) : Decimal := |pos.marketValue|

/-- `getattr(pos, name, pos.instrument_id)`. -/
def getattr (name : String) (pos : PositionInfo) : Entity :=
  match name with
  | "quantity" => .decimal pos.quantity
  | "market_value" => .decimal pos.marketValue
  | "asset_class" => .text pos.assetClass
  | "sector" => .text pos.sector
  | "country" => .text pos.country
  | _ => .text pos.instrumentId

def entity (name : String) (pos : PositionInfo) : Entity := (pos.getattr name).orUnknown

end PositionInfo

namespace PortfolioState

/-- `positions.values()`. -/
def infos (state : PortfolioState) : List PositionInfo := state.positions.map (·.2)

def grossNotional (state : PortfolioState) : Decimal := (state.infos.map (·.exposure)).sum

end PortfolioState

namespace RuleDefinition

variable (rule : RuleDefinition)

def result (passed : Bool) (currentValue limitValue : Option Decimal) : EvaluationResult :=
  ⟨rule.id, rule.name, passed, rule.severity, currentValue, limitValue⟩

def maxPct : Except Exc Decimal := (rule.parameters.get "max_pct" (.number 100 "100")).asDecimal

end RuleDefinition

section Evaluators

variable (state : PortfolioState) (rule : RuleDefinition)

/-- The comparison of the largest of some amounts, in percent of NAV. -/
def checkPercent (maxPct : Decimal) (amounts : List Decimal) : EvaluationResult :=
  if state.nav ≤ 0 then rule.result true none none
  else
    let worstPct := largest (amounts.map fun amount => amount / state.nav * 100)
    rule.result (worstPct ≤ maxPct) (some worstPct) (some maxPct)

/-- The comparison of the totals by an attribute: of one entity, or of each. -/
def checkGroups (maxPct : Decimal) (groupBy : String) (target : Option String) :
    EvaluationResult :=
  let entityTotals := totals (·.entity groupBy) (·.exposure) state.infos
  checkPercent state rule maxPct <| match target with
    | some target => [(entityTotals.lookup (.text target)).getD 0]
    | none => entityTotals.map (·.2)

def concentrationLimit : Except Exc EvaluationResult := do
  let maxPct ← rule.maxPct
  return checkPercent state rule maxPct (state.infos.map (·.exposure))

/-- A target that is given as a text, where the empty one is none. -/
def namedTarget (key : String) : Option String :=
  let target := (rule.parameters.get key (.text "")).str
  if target = "" then none else some target

/-- A target that is given as any value, where a false one is none. -/
def valuedTarget (key : String) : Option String :=
  (rule.parameters.get? key).bind fun target => if target.truthy then some target.str else none

def sectorLimit : Except Exc EvaluationResult := do
  let maxPct ← rule.maxPct
  return checkGroups state rule maxPct "sector" (namedTarget rule "sector")

def countryLimit : Except Exc EvaluationResult := do
  let maxPct ← rule.maxPct
  return checkGroups state rule maxPct "country" (namedTarget rule "country")

/-- The instruments of the list in the parameters; an item that is not a text
has no `upper`. -/
def restrictedInline : Except Exc (List String) :=
  match rule.parameters.get "restricted_instruments" (.list [] "[]") with
  | .list items _ => items.mapM fun
    | some r => .ok r.toUpper
    | none => .error (.attributeError "upper")
  | _ => .ok []

def restrictedList : Except Exc EvaluationResult := do
  let inlined ← restrictedInline rule
  let restrictedSet := inlined ++ state.restrictedInstruments.map String.toUpper
  let violations := state.positions.filter fun entry => entry.1.toUpper ∈ restrictedSet
  return rule.result violations.isEmpty none none

def shortSelling : Except Exc EvaluationResult :=
  if (rule.parameters.get "allow_short" (.bool false)).truthy then .ok (rule.result true none none)
  else
    let shorts := state.infos.filter fun pos => pos.quantity < 0
    .ok (rule.result shorts.isEmpty none none)

def aggregateExposure : Except Exc EvaluationResult := do
  let maxPct ← rule.maxPct
  let groupBy := (rule.parameters.get "group_by" (.text "instrument_id")).str
  return checkGroups state rule maxPct groupBy (valuedTarget rule "entity")

def assetClassLimit : Except Exc EvaluationResult := do
  let maxPct ← rule.maxPct
  return checkGroups state rule maxPct "asset_class" (valuedTarget rule "asset_class")

def leverageLimit : Except Exc EvaluationResult := do
  let maxLeverage ← (rule.parameters.get "max_leverage" (.number 1 "1")).asDecimal
  if state.nav ≤ 0 then return rule.result true none none
  let leverage := state.grossNotional / state.nav
  return rule.result (leverage ≤ maxLeverage) (some leverage) (some maxLeverage)

/-- `EVALUATOR_REGISTRY`, which has an evaluator for every rule type. -/
def evaluate : Except Exc EvaluationResult :=
  match rule.ruleType with
  | .concentrationLimit => concentrationLimit state rule
  | .sectorLimit => sectorLimit state rule
  | .countryLimit => countryLimit state rule
  | .restrictedList => restrictedList state rule
  | .shortSelling => shortSelling state rule
  | .aggregateExposure => aggregateExposure state rule
  | .assetClassLimit => assetClassLimit state rule
  | .leverageLimit => leverageLimit state rule

end Evaluators

end MiniHedge.Compliance
