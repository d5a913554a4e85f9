import MiniHedge.Library.Mapping
import MiniHedge.Library.StableSort
import MiniHedge.Python.Decimal

/-! `RoutingEngine.route_order`, and what `create_order` makes of its slices.

The rules are those of the fund, as the query answers them. What floating point
makes of the metrics of a scorecard is part of the scorecard; the breakdown of a
score is left out. The insert of a decision may fail, which is logged.
-/

set_option autoImplicit false

namespace MiniHedge.Orders

open MiniHedge.Python MiniHedge.Library

/-! ## Brokers -/

/-- The adapters by their broker ids: every broker has its own. -/
structure BrokerRegistry (Adapter : Type) where
  brokers : List (String × Adapter)
  ids : (brokers.map (·.1)).Nodup
  own : (brokers.map (·.2)).Nodup

namespace BrokerRegistry

variable {Adapter : Type} (registry : BrokerRegistry Adapter)

def listBrokerIds : List String := registry.brokers.map (·.1)

/-- `BrokerGateway.resolve`, with the default broker of the gateway. -/
def resolve (broker : Adapter) (brokerId : Option String) : Adapter :=
  (brokerId.bind fun id => registry.brokers.lookup id).getD broker

end BrokerRegistry

/-! ## Scores and rules -/

/-- The metrics of a scorecard, normalized to numbers that are not negative. -/
structure BrokerScorecard where
  fillRate : Decimal
  slippage : Decimal
  speed : Decimal
  cost : Decimal
  fillRate_nonneg : 0 ≤ fillRate
  slippage_nonneg : 0 ≤ slippage
  speed_nonneg : 0 ≤ speed
  cost_nonneg : 0 ≤ cost

/-- `_score_broker`. -/
def scoreBroker : Option BrokerScorecard → Decimal
  | none => 1 / 2
  | some card => quantize 6 .halfEven
      (3 / 10 * card.fillRate + 1 / 4 * card.slippage + 1 / 5 * card.speed + 1 / 4 * card.cost)

structure RoutingRule where
  id : String
  preferredBrokerId : String
  minSize : Option Decimal := none
  maxSize : Option Decimal := none
  deriving DecidableEq, Repr

def RoutingRule.Matches (rule : RoutingRule) (brokerIds : List String) (quantity : Decimal) :
    Prop :=
  rule.preferredBrokerId ∈ brokerIds ∧ (∀ size ∈ rule.minSize, size ≤ quantity) ∧
    ∀ size ∈ rule.maxSize, quantity ≤ size

instance (rule : RoutingRule) (brokerIds : List String) (quantity : Decimal) :
    Decidable (rule.Matches brokerIds quantity) :=
  inferInstanceAs (Decidable (_ ∧ _ ∧ _))

/-! ## Slices -/

structure RoutingSlice where
  brokerId : String
  quantity : Decimal
  score : Option Decimal := none
  matchedRuleIds : Option (List String) := none
  reason : String := ""
  deriving DecidableEq, Repr

/-- Shares of a quantity in turn, each within what remains, and the rest to the last. -/
def shareOut {α : Type} (share : α → Decimal) : List α → Decimal → List (α × Decimal)
  | [], _ => []
  | [x], remaining => [(x, remaining)]
  | x :: y :: rest, remaining =>
    (x, min (share x) remaining) :: shareOut share (y :: rest) (remaining - min (share x) remaining)

section Split

variable (totalQuantity : Decimal) (top : List (String × Decimal))

def totalScore : Decimal := if (top.map (·.2)).sum = 0 then 1 else (top.map (·.2)).sum

/-- The share of a broker with that score, in whole units. -/
def proportion (score : Decimal) : Decimal :=
  quantize 0 .halfEven (totalQuantity * score / totalScore top)

/-- The slice of a broker and its part. -/
def partSlice (part : (String × Decimal) × Decimal) : RoutingSlice where
  brokerId := part.1.1
  quantity := part.2
  score := some part.1.2
  reason := "order split proportional to scores"

/-- `_split_order`, of the brokers to split across. -/
def splitOrder : List RoutingSlice :=
  ((shareOut (fun broker => proportion totalQuantity top broker.2) top totalQuantity).filter
    fun part => 0 < part.2).map partSlice

end Split

/-- `int(value)`. -/
def truncate (value : Decimal) : Int := if value < 0 then value.ceil else value.floor

def splitThreshold : Int := 50000

structure RoutingEngine where
  /-- `list_broker_ids()`, the keys of the registry. -/
  brokerIds : List String
  ids : brokerIds.Nodup
  splitThreshold : ℤ := 50000

namespace RoutingEngine

variable (engine : RoutingEngine) (rules : List RoutingRule) (score : String → Decimal)
  (quantity : Decimal)

/-- The brokers with their scores, the best first. -/
def scored : List (String × Decimal) :=
  sortOn (fun broker => -broker.2) (engine.brokerIds.map fun id => (id, score id))

def matchingRule : Option RoutingRule :=
  rules.find? fun rule => rule.Matches engine.brokerIds quantity

def routeOrder : List RoutingSlice :=
  match engine.brokerIds with
  | [] => [{ brokerId := "default", quantity, reason := "single broker mode" }]
  | [brokerId] => [{ brokerId, quantity, reason := "single broker mode" }]
  | _ :: _ :: _ =>
    match engine.matchingRule rules quantity with
    | some rule =>
      [{ brokerId := rule.preferredBrokerId
         quantity
         matchedRuleIds := some [rule.id]
         reason := s!"routing rule {rule.id}" }]
    | none =>
      let scored := engine.scored score
      -- a large order is split across the best three, any other goes to the best
      if engine.splitThreshold < truncate quantity ∧ 1 < scored.length then
        splitOrder quantity (scored.take 3)
      else
        scored.head?.toList.map fun best =>
          { brokerId := best.1, quantity, score := some best.2, reason := "best scorecard" }

/-- The engine of a registry. -/
def ofRegistry {Adapter : Type} (registry : BrokerRegistry Adapter) : RoutingEngine where
  brokerIds := registry.listBrokerIds
  ids := registry.ids

end RoutingEngine

section Route

variable {Adapter : Type} (registry : BrokerRegistry Adapter) (rules : List RoutingRule)
  (scorecards : String → Option BrokerScorecard) (quantity : Decimal)

def scored : List (String × Decimal) :=
  (RoutingEngine.ofRegistry registry).scored fun id => scoreBroker (scorecards id)

def matchingRule : Option RoutingRule := (RoutingEngine.ofRegistry registry).matchingRule rules quantity

/-- An order is routed by the brokers of the registry and their scorecards. -/
def routeOrder : List RoutingSlice :=
  (RoutingEngine.ofRegistry registry).routeOrder rules (fun id => scoreBroker (scorecards id)) quantity

end Route

/-! ## Decisions and submissions -/

structure RoutingDecisionRecord where
  orderId : String
  brokerId : String
  quantity : Decimal
  score : Option Decimal
  ruleIdsMatched : Option (List String)
  decisionReason : String
  deriving DecidableEq, Repr

/-- The row of a slice, as its columns keep it. -/
def RoutingSlice.record (orderId : String) (slice : RoutingSlice) : RoutingDecisionRecord where
  orderId := orderId
  brokerId := slice.brokerId
  quantity := numeric 8 slice.quantity
  score := slice.score.map (numeric 6)
  ruleIdsMatched := slice.matchedRuleIds
  decisionReason := slice.reason

/-- `_record_decision` for each slice, where the inserts succeed or fail in any way. -/
def recordDecisions (orderId : String) (saved : Nat → Bool) (slices : List RoutingSlice) :
    List RoutingDecisionRecord :=
  (slices.zipIdx.filter fun slice => saved slice.2).map fun slice => slice.1.record orderId

/-- `_resolve_broker_id`, of the slices. -/
def resolveBrokerId : List RoutingSlice → Option String
  | [slice] => some slice.brokerId
  -- several slices are submitted as one order, without a broker
  | [] | _ :: _ :: _ => none

/-- What is left in the table and what goes to the brokers, for one order. -/
structure Routed (Adapter : Type) where
  decisions : List RoutingDecisionRecord
  submissions : List (Adapter × Decimal)
  deriving DecidableEq, Repr

/-- `create_order` from the routing to the submission. -/
def routeAndSubmit {Adapter : Type} (registry : BrokerRegistry Adapter) (broker : Adapter)
    (rules : List RoutingRule) (scorecards : String → Option BrokerScorecard) (saved : Nat → Bool)
    (orderId : String) (quantity : Decimal) : Routed Adapter :=
  let slices := routeOrder registry rules scorecards quantity
  { decisions := recordDecisions orderId saved slices
    submissions := [(registry.resolve broker (resolveBrokerId slices), quantity)] }

end MiniHedge.Orders
