import MiniHedge.Compliance.Engine
import Mathlib.Data.List.Perm.Basic

/-! The portfolio states that rules are evaluated on, and `PreTradeGate`.

Before a trade the gate builds the state that it expects to follow; after it the
monitor builds the state from what is stored. What they read is a snapshot: the
positions of the portfolio, one for each instrument, its cash where a cash
repository is configured, and the security master.
-/

set_option autoImplicit false

namespace MiniHedge.Compliance

open MiniHedge.Python MiniHedge.Library

/-! ## What is read -/

structure Position where
  instrumentId : String
  quantity : Decimal
  marketValue : Decimal
  deriving DecidableEq, Repr

/-- The positions of a portfolio; the table is unique on the instrument. -/
structure Holdings where
  rows : List Position
  distinct : (rows.map (·.instrumentId)).Nodup
  deriving DecidableEq, Repr

structure Instrument where
  assetClass : Option String
  sector : Option String
  country : Option String
  deriving DecidableEq, Repr

structure Metadata where
  assetClass : String := ""
  sector : String := ""
  country : String := ""
  deriving DecidableEq, Repr

structure RuleRecord where
  id : String
  name : String
  ruleType : String
  severity : String
  parameters : Parameters
  isActive : Bool
  gracePeriodHours : Option Int
  deriving DecidableEq, Repr

/-- The record as a `RuleDefinition`. -/
def RuleRecord.definition (r : RuleRecord) : Except Exc RuleDefinition := do
  let id ← (Field.text r.id).asUuid
  let ruleType ← RuleType.ofValue r.ruleType
  let severity ← Severity.ofValue r.severity
  return ⟨id, r.name, ruleType, severity, r.parameters, r.gracePeriodHours⟩

/-- The repositories and services, for one portfolio: what is not configured is none. -/
structure Sources where
  listActive : Except Exc (List RuleRecord)
  positions : Except Exc Holdings
  getByTicker : Option (String → Except Exc Instrument)
  balances : Option (Except Exc (List Decimal))

namespace Sources

variable (sources : Sources)

/-- `_lookup_instrument_metadata`: a lookup that fails gives the defaults. -/
def metadata (instrumentId : String) : Metadata :=
  match sources.getByTicker with
  | none => {}
  | some getByTicker =>
    match getByTicker instrumentId with
    | .ok inst => ⟨inst.assetClass.getD "", inst.sector.getD "", inst.country.getD ""⟩
    | .error _ => {}

def cash : Except Exc Decimal :=
  match sources.balances with
  | none => .ok 0
  | some balances => do return (← balances).sum

def info (pos : Position) : PositionInfo :=
  let m := sources.metadata pos.instrumentId
  ⟨pos.instrumentId, pos.quantity, pos.marketValue, m.assetClass, m.sector, m.country⟩

/-- The dictionary of the positions by instrument. -/
def infos (positions : List Position) : List (String × PositionInfo) :=
  positions.foldl (fun d pos => setItem pos.instrumentId (sources.info pos) d) []

def stateOf (portfolioId : UUID) (positions : List (String × PositionInfo)) :
    Except Exc PortfolioState := do
  let positionValue := (positions.map fun entry => |entry.2.marketValue|).sum
  let cash ← sources.cash
  return ⟨portfolioId, positions, positionValue + cash, []⟩

/-- `PostTradeMonitor._build_actual_state`. -/
def actualState (portfolioId : UUID) (positions : List Position) : Except Exc PortfolioState :=
  sources.stateOf portfolioId (sources.infos positions)

/-- What `PostTradeMonitor._evaluate_portfolio` finds: nothing without rules or
positions. -/
def actualResults (portfolioId : UUID) : Except Exc (List EvaluationResult) := do
  let ruleRecords ← sources.listActive
  if ruleRecords.isEmpty then return []
  let rules ← ruleRecords.mapM RuleRecord.definition
  let positions ← sources.positions
  if positions.rows.isEmpty then return []
  let state ← sources.actualState portfolioId positions.rows
  rules.mapM (evaluate state)

end Sources

/-! ## The gate -/

structure TradeCheckRequest where
  portfolioId : UUID
  instrumentId : String
  side : String
  quantity : Decimal
  price : Decimal
  deriving DecidableEq, Repr

namespace TradeCheckRequest

variable (request : TradeCheckRequest)

def instrument : String := request.instrumentId.toUpper

def isBuy : Bool := request.side.toLower = "buy"

def tradeValue : Decimal := request.quantity * request.price

def sign : Decimal := if request.isBuy then 1 else -1

end TradeCheckRequest

structure ComplianceDecision where
  approved : Bool
  results : List EvaluationResult
  blockedBy : List String
  deriving DecidableEq, Repr

/-- The decision when the check itself raises. -/
def failClosed : ComplianceDecision where
  approved := false
  results := [⟨.ofNat 0, "SYSTEM", false, .block, none, none⟩]
  blockedBy := ["SYSTEM"]

namespace Sources

variable (sources : Sources) (request : TradeCheckRequest)

/-- The position in the traded instrument after the trade. -/
def traded (held : Option PositionInfo) : PositionInfo :=
  match held with
  | some existing =>
    if request.isBuy then
      { existing with
        instrumentId := request.instrument
        quantity := existing.quantity + request.quantity
        marketValue := existing.marketValue + request.tradeValue }
    else
      { existing with
        instrumentId := request.instrument
        quantity := existing.quantity - request.quantity
        marketValue := existing.marketValue - request.tradeValue }
  | none =>
    let m := sources.metadata request.instrument
    ⟨request.instrument, request.sign * request.quantity, request.sign * request.tradeValue,
      m.assetClass, m.sector, m.country⟩

/-- `PreTradeGate._build_hypothetical_state`. -/
def hypotheticalState (positions : List Position) : Except Exc PortfolioState :=
  let held := sources.infos positions
  sources.stateOf request.portfolioId
    (setItem request.instrument (sources.traded request (held.lookup request.instrument)) held)

def decision (results : List EvaluationResult) : ComplianceDecision :=
  let blockedBy := (results.filter fun r => !r.passed && r.severity = .block).map (·.ruleName)
  ⟨blockedBy.isEmpty, results, blockedBy⟩

/-- `PreTradeGate._evaluate`. -/
def evaluateRules : Except Exc ComplianceDecision := do
  let ruleRecords ← sources.listActive
  if ruleRecords.isEmpty then return ⟨true, [], []⟩
  let rules ← ruleRecords.mapM RuleRecord.definition
  let currentPositions ← sources.positions
  let state ← sources.hypotheticalState request currentPositions.rows
  let results ← rules.mapM (evaluate state)
  return decision results

def checkTrade : ComplianceDecision :=
  match sources.evaluateRules request with
  | .ok decision => decision
  | .error _ => failClosed

end Sources

end MiniHedge.Compliance
