import MiniHedge.Compliance.Gate
import MiniHedge.Library.Rows
import MiniHedge.Library.Raising
import MiniHedge.Library.StableSort
import MiniHedge.Library.Transition
import MiniHedge.Python.Decimal

/-! `PostTradeMonitor`: its handlers, on what a fund has stored.

A handler reads the active rules, the positions, the instruments, the cash and
the active violations, each in a call of its own, and then inserts or resolves a
violation for one rule after the other. Other handlers, trades, prices and rule
changes come between any two of these calls. What a handler raises is swallowed.
-/

set_option autoImplicit false

namespace MiniHedge.Compliance

open MiniHedge.Python MiniHedge.Library

/-! ## The tables -/

/-- The rules; the key of the table is a UUID. -/
structure Rules where
  rows : List RuleRecord
  distinct : (rows.map fun r => (Field.text r.id).asUuid).Nodup
  deriving DecidableEq

def Rules.listActive (rules : Rules) : List RuleRecord := rules.rows.filter (·.isActive)

structure Violation where
  id : Nat
  ruleId : UUID
  ruleName : String
  severity : Severity
  currentValue : Option Decimal
  limitValue : Option Decimal
  breachType : String
  detectedAt : Datetime
  deadlineAt : Option Datetime
  resolvedAt : Option Datetime := none
  resolvedBy : Option String := none
  resolutionType : Option String := none
  deriving DecidableEq, Repr

/-- The violations of one portfolio. Nothing but the key is unique. -/
abbrev Violations := Numbered Violation.id

namespace Violations

variable (violations : Violations)

def active : List Violation := violations.rows.filter fun v => v.resolvedAt.isNone

/-- `list_active_by_portfolio`: the latest first. -/
def listActive : List Violation := sortOn (fun v => -v.detectedAt) violations.active

def insert (record : Violation) : Violations :=
  violations.append { record with id := violations.rows.length } rfl

def resolved (now : Datetime) (v : Violation) : Violation :=
  { v with resolvedAt := some now, resolvedBy := some "system", resolutionType := some "auto" }

def resolve (id : Nat) (now : Datetime) : Violations :=
  violations.change (resolved now) (fun _ => rfl) id

end Violations

/-- What the evaluation reads besides the rules: what is not configured is none. -/
structure Portfolio where
  positions : Holdings
  balances : Option (List Decimal)
  instruments : Option (List (String × Instrument))
  deriving DecidableEq

structure Fund where
  portfolioId : UUID
  rules : Rules
  portfolio : Portfolio
  violations : Violations
  deriving DecidableEq

namespace Fund

variable (fund : Fund)

def sources : Sources where
  listActive := .ok fund.rules.listActive
  positions := .ok fund.portfolio.positions
  getByTicker := fund.portfolio.instruments.map fun known instrumentId =>
    match known.lookup instrumentId with
    | some inst => .ok inst
    | none => .error (.exception "NotFoundError" instrumentId)
  balances := fund.portfolio.balances.map .ok

def positions : List Position := fund.portfolio.positions.rows

end Fund

/-! ## A handler -/

/-- What a handler has read so far. -/
inductive Stage where
  | starting
  | loading (rules : List RuleDefinition)
  | describing (rules : List RuleDefinition) (rest : List Position)
      (described : List (String × PositionInfo))
  | listing (rules : List RuleDefinition) (state : PortfolioState)
  | evaluating (rest : List RuleDefinition) (state : PortfolioState)
      (existingByRuleId : List (UUID × Violation))
  deriving DecidableEq

structure Handler where
  isPassive : Bool
  stage : Stage := .starting
  deriving DecidableEq

/-- `{v.rule_id: v for v in existing}`. -/
def byRuleId (existing : List Violation) : List (UUID × Violation) :=
  existing.foldl (fun d v => setItem v.ruleId v d) []

def breach (isPassive : Bool) (now : Datetime) (rule : RuleDefinition) (result : EvaluationResult) :
    Violation where
  id := 0
  ruleId := rule.id
  ruleName := rule.name
  severity := rule.severity
  currentValue := result.currentValue.map (numeric 8)
  limitValue := result.limitValue.map (numeric 8)
  breachType := if isPassive then "passive" else "active"
  detectedAt := now
  deadlineAt := match rule.gracePeriodHours with
    | some hours => if hours ≠ 0 ∧ isPassive then some (now + hours * 3600000000) else none
    | none => none

/-- The violation of one rule is inserted, resolved or left. -/
def Fund.persist (fund : Fund) (isPassive : Bool) (now : Datetime)
    (existingByRuleId : List (UUID × Violation)) (rule : RuleDefinition)
    (result : EvaluationResult) : Fund :=
  match result.passed, existingByRuleId.lookup rule.id with
  | false, none =>
    { fund with violations := fund.violations.insert (breach isPassive now rule result) }
  | true, some violation =>
    { fund with violations := fund.violations.resolve violation.id now }
  | _, _ => fund

/-- The next call of `_evaluate_portfolio`; none where the handler has ended. -/
def Handler.next (h : Handler) (fund : Fund) (now : Datetime) : Fund × Option Handler :=
  match h.stage with
  | .starting =>
    if fund.rules.listActive.isEmpty then (fund, none)
    else match fund.rules.listActive.mapM RuleRecord.definition with
      | .error _ => (fund, none)
      | .ok rules => (fund, some { h with stage := .loading rules })
  | .loading rules =>
    if fund.positions.isEmpty then (fund, none)
    else (fund, some { h with stage := .describing rules fund.positions [] })
  | .describing rules (pos :: rest) described =>
    (fund, some { h with
      stage := .describing rules rest (setItem pos.instrumentId (fund.sources.info pos) described) })
  | .describing rules [] described =>
    match fund.sources.stateOf fund.portfolioId described with
    | .error _ => (fund, none)
    | .ok state => (fund, some { h with stage := .listing rules state })
  | .listing rules state =>
    (fund, some { h with stage := .evaluating rules state (byRuleId fund.violations.listActive) })
  | .evaluating [] _ _ => (fund, none)
  | .evaluating (rule :: rest) state existingByRuleId =>
    match evaluate state rule with
    | .error _ => (fund, none)
    | .ok result => (fund.persist h.isPassive now existingByRuleId rule result,
        some { h with stage := .evaluating rest state existingByRuleId })

/-! ## Runs -/

structure Call where
  now : Datetime
  ending : Ending := .returned
  deriving DecidableEq, Repr

def Handler.advance (h : Handler) (fund : Fund) (call : Call) : Fund × Option Handler :=
  match call.ending with
  | .returned => h.next fund call.now
  | .raisedBefore => (fund, none)
  | .raisedAfter => ((h.next fund call.now).1, none)

/-- A fund, the events not delivered yet (passive or not), and the handlers under way. -/
structure Watch where
  fund : Fund
  events : List Bool := []
  handlers : List Handler := []
  deriving DecidableEq

/-- What happens: a trade or a price changes the portfolio and is announced, the
rules change, an event is delivered (and stays, where it will be delivered
again), or a handler takes a turn. -/
inductive Happening where
  | portfolioChanged (portfolio : Portfolio) (isPassive : Bool)
  | rulesChanged (rules : Rules)
  | delivered (index : Nat) (again : Bool)
  | turn (index : Nat) (call : Call)
  deriving DecidableEq

def monitor : System Watch Happening where
  step s
    | .portfolioChanged portfolio isPassive =>
      some { s with fund := { s.fund with portfolio }, events := s.events ++ [isPassive] }
    | .rulesChanged rules => some { s with fund := { s.fund with rules } }
    | .delivered index again => do
      let isPassive ← s.events[index]?
      return { s with
        events := if again then s.events else s.events.eraseIdx index
        handlers := s.handlers ++ [{ isPassive }] }
    | .turn index call => do
      let h ← s.handlers[index]?
      let (fund, next) := h.advance s.fund call
      return { s with
        fund
        handlers := s.handlers.take index ++ (next.toList ++ s.handlers.drop (index + 1)) }

end MiniHedge.Compliance
