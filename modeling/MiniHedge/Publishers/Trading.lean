import MiniHedge.CorporateActions.Service
import MiniHedge.Orders.StateMachine
import MiniHedge.Shared.Publish

/-! The events that positions, orders, compliance, exposure, risk, attribution,
corporate actions and the alpha engine publish.

`str` is how a decimal is shown. Other values that a publisher shows with `str`
are given by their texts.
-/

set_option autoImplicit false

namespace MiniHedge.Publishers

open MiniHedge.Python MiniHedge.Shared

/-- An event as a module builds it; its identifier and its time are drawn. -/
structure Publication where
  topic : String
  eventType : String
  data : Parameters
  actorId : Option String := none
  actorType : Option String := none
  fundSlug : Option String := none
  deriving DecidableEq, Repr

def Publication.event (p : Publication) (eventId timestamp : String) : Shared.BaseEvent where
  eventId := eventId
  eventType := p.eventType
  timestamp := timestamp
  data := p.data
  actorId := p.actorId
  actorType := p.actorType
  fundSlug := p.fundSlug

def sharedTopic (base : String) : String := "shared." ++ base

def fundTopic (fundSlug base : String) : String := Positions.fundTopic fundSlug base

def whole (i : Int) : Json := .number i (toString i)

/-- A list of texts. -/
def texts (items : List String) : Json :=
  .list (items.map some) ("[" ++ ", ".intercalate (items.map fun item => s!"'{item}'") ++ "]")

section Positions

open MiniHedge.Positions

variable (str : Decimal → String)

def shown : Field → Json
  | .text value => .text value
  | .decimal value => .text (str value)

def ofMessage (message : Positions.Message) : Publication where
  topic := message.topic
  eventType := message.event.eventType
  data := message.event.data.map fun (key, field) => (key, shown str field)
  actorId := message.event.actorId
  actorType := message.event.actorType
  fundSlug := message.event.fundSlug

def handleTrade (context : RequestContext) (trade : Trade) : Publication where
  topic := topicFor context.fundSlug "trades.executed"
  eventType := trade.eventType.value
  data := [("portfolio_id", .text trade.portfolioId.str), ("instrument_id", .text trade.instrumentId),
    ("side", .text trade.side.value), ("quantity", .text (str trade.quantity)),
    ("price", .text (str trade.price)), ("trade_id", .text trade.tradeId.str),
    ("currency", .text trade.currency)]
  actorId := context.actorId
  actorType := context.actorType
  fundSlug := context.fundSlug

structure PnLMarkToMarketData where
  portfolioId : UUID
  instrumentId : String
  marketPrice : Decimal
  marketValue : Decimal
  unrealizedPnl : Decimal
  pnlChange : Decimal
  currency : String
  deriving DecidableEq, Repr

def handlePriceUpdate (fundSlug : String) (data : PnLMarkToMarketData) : Publication where
  topic := fundTopic fundSlug "pnl.updated"
  eventType := PositionEventType.pnlMarkToMarket.value
  data := [("portfolio_id", .text data.portfolioId.str), ("instrument_id", .text data.instrumentId),
    ("market_price", .text (str data.marketPrice)), ("market_value", .text (str data.marketValue)),
    ("unrealized_pnl", .text (str data.unrealizedPnl)), ("pnl_change", .text (str data.pnlChange)),
    ("currency", .text data.currency)]
  actorId := some "system"
  actorType := some "system"
  fundSlug := some fundSlug

end Positions

section Orders

open MiniHedge.Orders

/-- What the order publisher reads of an order. -/
structure PublishedOrder where
  id : String
  portfolioId : String
  instrumentId : String
  side : OrderSide
  orderType : String
  quantity : Decimal
  limitPrice : Option Decimal
  state : OrderState
  deriving DecidableEq, Repr

variable (str : Decimal → String) (order : PublishedOrder) (fundSlug : String)

def orderCreatedData : Parameters :=
  [("order_id", .text order.id), ("portfolio_id", .text order.portfolioId),
    ("instrument_id", .text order.instrumentId), ("side", .text order.side.value),
    ("order_type", .text order.orderType), ("quantity", .text (str order.quantity)),
    ("state", .text order.state.value)]

def orderFilledData (fillQuantity fillPrice : Decimal) : Parameters :=
  [("order_id", .text order.id), ("portfolio_id", .text order.portfolioId),
    ("instrument_id", .text order.instrumentId), ("side", .text order.side.value),
    ("fill_quantity", .text (str fillQuantity)), ("fill_price", .text (str fillPrice)),
    ("state", .text order.state.value)]

def tradeExecutedData (quantity price : Decimal) (tradeId : String) : Parameters :=
  [("portfolio_id", .text order.portfolioId), ("instrument_id", .text order.instrumentId),
    ("side", .text order.side.value), ("quantity", .text (str quantity)),
    ("price", .text (str price)), ("trade_id", .text tradeId), ("currency", .text "USD")]

/-- Its callers pass `ORDER_CREATED`. -/
def publishCreated : Publication where
  topic := fundTopic fundSlug "orders.created"
  eventType := "order.created"
  data := orderCreatedData str order
  fundSlug := some fundSlug

/-- A limit price of zero counts as none. -/
def publishTradeDecision (approved : Bool) : Publication where
  topic := fundTopic fundSlug (if approved then "trades.approved" else "trades.rejected")
  eventType := if approved then "trade.approved" else "trade.rejected"
  data := tradeExecutedData str order order.quantity (order.limitPrice.getD 0) order.id
  fundSlug := some fundSlug

def publishTradeExecuted (tradeId : String) (fillQuantity fillPrice : Decimal) : Publication where
  topic := fundTopic fundSlug "trades.executed"
  eventType := if order.side = .buy then "trade.buy" else "trade.sell"
  data := tradeExecutedData str order fillQuantity fillPrice tradeId
  fundSlug := some fundSlug

def publishFilled (fillQuantity fillPrice : Decimal) : Publication where
  topic := fundTopic fundSlug "orders.filled"
  eventType := "order.filled"
  data := orderFilledData str order fillQuantity fillPrice
  fundSlug := some fundSlug

/-- For one leg of a block. -/
def allocateFills (allocationId portfolioId instrumentId tradeId : String) (side : OrderSide)
    (fillQty avgPrice : Decimal) : Publication where
  topic := fundTopic fundSlug "trades.executed"
  eventType := if side = .buy then "trade.buy" else "trade.sell"
  data := [("portfolio_id", .text portfolioId), ("instrument_id", .text instrumentId),
    ("side", .text side.value), ("quantity", .text (str fillQty)), ("price", .text (str avgPrice)),
    ("trade_id", .text tradeId), ("currency", .text "USD"),
    ("block_allocation_id", .text allocationId)]
  fundSlug := some fundSlug

end Orders

section Oversight

variable (str : Decimal → String) (fundSlug portfolioId : String)

/-- The compliance service publishes its decisions too. -/
def Compliance.publishTradeDecision (instrumentId side : String) (quantity price : Decimal)
    (approved : Bool) (blockedBy : List String) : Publication where
  topic := fundTopic fundSlug (if approved then "trades.approved" else "trades.rejected")
  eventType := if approved then "trade.approved" else "trade.rejected"
  data := [("portfolio_id", .text portfolioId), ("instrument_id", .text instrumentId),
    ("side", .text side), ("quantity", .text (str quantity)), ("price", .text (str price)),
    ("approved", .bool approved), ("blocked_by", texts blockedBy)]
  fundSlug := some fundSlug

/-- What the post-trade monitor reads of a violation. -/
structure PublishedViolation where
  id : String
  ruleId : String
  ruleName : String
  severity : String
  breachType : String
  message : String
  currentValue : Option Decimal
  limitValue : Option Decimal
  deadlineAt : Option String
  deriving DecidableEq, Repr

def strOrNone : Option Decimal → String
  | some value => str value
  | none => "None"

def publishViolation (record : PublishedViolation) : Publication where
  topic := fundTopic fundSlug "compliance.violations"
  eventType := "compliance.violation"
  data := [("violation_id", .text record.id), ("portfolio_id", .text portfolioId),
    ("rule_id", .text record.ruleId), ("rule_name", .text record.ruleName),
    ("severity", .text record.severity), ("breach_type", .text record.breachType),
    ("message", .text record.message), ("current_value", .text (strOrNone str record.currentValue)),
    ("limit_value", .text (strOrNone str record.limitValue)),
    ("deadline_at", BaseEvent.textOrNull record.deadlineAt)]
  fundSlug := some fundSlug

/-- `str(value or 0)`. -/
def strOrZero (value : Option Decimal) : String :=
  match value.filter (· ≠ 0) with
  | some value => str value
  | none => "0"

def publishViolationResolved (record : PublishedViolation) : Publication where
  topic := fundTopic fundSlug "compliance.violations"
  eventType := "compliance.violation.resolved"
  data := [("violation_id", .text record.id), ("portfolio_id", .text portfolioId),
    ("rule_id", .text record.ruleId), ("rule_name", .text record.ruleName),
    ("severity", .text record.severity), ("message", .text s!"Auto-resolved: {record.ruleName}"),
    ("current_value", .text (strOrZero str record.currentValue)),
    ("limit_value", .text (strOrZero str record.limitValue))]
  fundSlug := some fundSlug

def publishExposureEvent (grossExposure netExposure longExposure shortExposure : Decimal) :
    Publication where
  topic := fundTopic fundSlug "exposures.updated"
  eventType := "exposure.updated"
  data := [("portfolio_id", .text portfolioId), ("gross_exposure", .text (str grossExposure)),
    ("net_exposure", .text (str netExposure)), ("long_exposure", .text (str longExposure)),
    ("short_exposure", .text (str shortExposure))]
  fundSlug := some fundSlug

def publishRiskEvent (nav var951d var991d expectedShortfall95 : Decimal) : Publication where
  topic := fundTopic fundSlug "risk.updated"
  eventType := "risk.updated"
  data := [("portfolio_id", .text portfolioId), ("nav", .text (str nav)),
    ("var_95_1d", .text (str var951d)), ("var_99_1d", .text (str var991d)),
    ("expected_shortfall_95", .text (str expectedShortfall95))]
  fundSlug := some fundSlug

def publishLimitBreach (nav var951d : Decimal) (varPct limitPct : String) : Publication where
  topic := fundTopic fundSlug "risk.limit_breached"
  eventType := "risk.limit_breached"
  data := [("portfolio_id", .text portfolioId), ("var_95_1d", .text (str var951d)),
    ("nav", .text (str nav)), ("var_pct_of_nav", .text varPct), ("limit_pct", .text limitPct),
    ("breach_type", .text "var_95_1d")]
  fundSlug := some fundSlug

/-- The attribution service publishes under the event's type as its topic. -/
def publishAttributionEvent (eventType : String) (data : Parameters) : Publication where
  topic := fundTopic fundSlug eventType
  eventType := eventType
  data := data
  fundSlug := some fundSlug

variable (periodStart periodEnd : String)

def calculateBrinsonFachler (activeReturn totalAllocation totalSelection : Decimal) : Publication :=
  publishAttributionEvent fundSlug "attribution.daily_calculated"
    [("portfolio_id", .text portfolioId), ("period_start", .text periodStart),
      ("period_end", .text periodEnd), ("active_return", .text (str activeReturn)),
      ("total_allocation", .text (str totalAllocation)),
      ("total_selection", .text (str totalSelection))]

def calculateCumulative (periods : Nat) (cumulativeActiveReturn : Decimal) : Publication :=
  publishAttributionEvent fundSlug "attribution.cumulative_updated"
    [("portfolio_id", .text portfolioId), ("period_start", .text periodStart),
      ("period_end", .text periodEnd), ("periods", whole periods),
      ("cumulative_active_return", .text (str cumulativeActiveReturn))]

/-- The intents are shown as the list of dictionaries that they are sent as. -/
def publishIntentsEvent (objective : String) (intentCount : Nat) (intents : String) :
    Publication where
  topic := fundTopic fundSlug "order_intents.generated"
  eventType := "order_intents.generated"
  data := [("portfolio_id", .text portfolioId), ("objective", .text objective),
    ("intent_count", whole intentCount),
    ("intents", .list (List.replicate intentCount none) intents)]
  fundSlug := some fundSlug

end Oversight

end MiniHedge.Publishers
