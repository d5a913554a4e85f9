import MiniHedge.Positions.Projector
import Mathlib.Data.List.Infix

/-! The trade handler: every trade and corporate action is one command that is
loaded, applied, appended and projected in one transaction.

`attempt` is the body of the retry loop for a call that runs alone. An attempt
that raises rolls its transaction back, so the database is part of the result
only when it commits.
-/

set_option autoImplicit false

namespace MiniHedge.Positions

open MiniHedge.Python

/-! ## Messages -/

structure BaseEvent where
  eventType : String
  data : Dict
  actorId : Option String := none
  actorType : Option String := none
  fundSlug : Option String := none
  deriving DecidableEq, Repr

structure Message where
  topic : String
  event : BaseEvent
  deriving DecidableEq, Repr

structure RequestContext where
  fundSlug : Option String
  actorId : Option String
  actorType : Option String
  deriving DecidableEq, Repr

def fundTopic (fundSlug base : String) : String := "fund-" ++ fundSlug ++ "." ++ base

theorem fundTopic_inj {fundSlug first second : String} :
    fundTopic fundSlug first = fundTopic fundSlug second ↔ first = second := by
  constructor
  · intro same
    have texts := congrArg String.toList same
    simp only [fundTopic, String.toList_append, List.append_assoc, List.append_cancel_left_eq]
      at texts
    exact String.toList_inj.mp texts
  · rintro rfl
    rfl

/-- A missing or empty slug counts as none. -/
def truthy (text : Option String) : Option String := text.filter (· ≠ "")

def topicFor (fundSlug : Option String) (base : String) : String :=
  match truthy fundSlug with
  | some slug => fundTopic slug base
  | none => base

namespace DownstreamEvent

def baseTopic : DownstreamEvent → String
  | .positionChanged _ _ => "positions.changed"
  | .pnlRealized _ _ => "pnl.updated"

def eventType : DownstreamEvent → PositionEventType
  | .positionChanged t _ => t
  | .pnlRealized t _ => t

def serializedData : DownstreamEvent → Dict
  | .positionChanged _ d =>
    [("portfolio_id", .text d.portfolioId.str), ("instrument_id", .text d.instrumentId),
      ("quantity", .decimal d.quantity), ("avg_cost", .decimal d.avgCost),
      ("cost_basis", .decimal d.costBasis), ("currency", .text d.currency)]
  | .pnlRealized _ d =>
    [("portfolio_id", .text d.portfolioId.str), ("instrument_id", .text d.instrumentId),
      ("realized_pnl", .decimal d.realizedPnl), ("price", .decimal d.price),
      ("currency", .text d.currency)]

end DownstreamEvent

def publishDownstream (fundSlug actorId actorType : Option String)
    (downstream : List DownstreamEvent) : List Message :=
  downstream.map fun event => {
    topic := topicFor fundSlug event.baseTopic
    event := {
      eventType := event.eventType.value
      data := event.serializedData
      actorId, actorType, fundSlug } }

/-! ## One transaction -/

/-- What `_apply_trade` and `_apply_corporate_action` prepare before their loops. -/
structure Command where
  portfolioId : UUID
  instrumentId : String
  event : TradeEvent
  currency : String
  idempotencyKey : Option String
  deriving DecidableEq, Repr

namespace Command

def aggregateId (c : Command) : String := Positions.aggregateId c.portfolioId c.instrumentId

def metadata (c : Command) : Dict :=
  match c.idempotencyKey with
  | some key => [("idempotency_key", .text key)]
  | none => []

def record (c : Command) (sequenceNumber : Nat) (createdAt : Datetime) : PositionEventRecord where
  aggregateId := c.aggregateId
  sequenceNumber := sequenceNumber
  eventType := c.event.eventType.value
  eventVersion := 1
  eventData := EventStore.serialize c.event
  metadata := c.metadata
  createdAt := createdAt

def duplicate (c : Command) (db : Database) : Bool := c.idempotencyKey.any db.hasIdempotencyKey

/-- Load the aggregate and apply the event to it. -/
def load (c : Command) (stored : List TradeEvent) :
    Except Exc (PositionAggregate × List DownstreamEvent) := do
  let position ← PositionAggregate.fromEvents c.portfolioId c.instrumentId stored
  position.apply c.event

end Command

def attempt (db : Database) (createdAt : Datetime) (c : Command) :
    Except Exc (Database × Option (List DownstreamEvent)) := do
  if c.duplicate db then return (db, none)
  let stored ← db.getByAggregate c.aggregateId
  let (position, downstream) ← c.load stored
  let appended ← db.insertEvent (c.record (db.nextSequence c.aggregateId) createdAt)
  let next ← (db.write appended).project position c.currency
  return (next, some downstream)

def maxRetries : Nat := 3

/-- The retry loop, with the instants at which its transactions start by the
number of attempts that are left after them. -/
def submitWith (db : Database) (starts : Nat → Datetime) (c : Command) :
    Nat → Except Exc (Database × Option (List DownstreamEvent))
  | 0 => attempt db (starts 0) c
  | left + 1 =>
    match attempt db (starts (left + 1)) c with
    | .error .integrityError => submitWith db starts c left
    | result => result

def submit (db : Database) (starts : Nat → Datetime) (c : Command) :
    Except Exc (Database × Option (List DownstreamEvent)) :=
  submitWith db starts c (maxRetries - 1)

/-- The clock of the handler and the starts of its transactions. -/
structure Clock where
  now : Datetime
  starts : Nat → Datetime

structure Trade where
  portfolioId : UUID
  instrumentId : String
  side : TradeSide
  quantity : Decimal
  price : Decimal
  currency : String
  tradeId : UUID
  deriving DecidableEq, Repr

namespace Trade

def At (portfolioId : UUID) (instrumentId : String) (trade : Trade) : Prop :=
  trade.portfolioId = portfolioId ∧ trade.instrumentId = instrumentId

instance (portfolioId : UUID) (instrumentId : String) (trade : Trade) :
    Decidable (trade.At portfolioId instrumentId) :=
  inferInstanceAs (Decidable (_ ∧ _))

def eventType (trade : Trade) : PositionEventType :=
  if trade.side = .buy then .tradeBuy else .tradeSell

def data (trade : Trade) : TradeEventData where
  portfolioId := trade.portfolioId
  instrumentId := trade.instrumentId
  side := trade.side
  quantity := trade.quantity
  price := trade.price
  tradeId := trade.tradeId
  currency := trade.currency

def command (trade : Trade) (now : Datetime) (idempotencyKey : Option String) : Command where
  portfolioId := trade.portfolioId
  instrumentId := trade.instrumentId
  event := ⟨trade.eventType, now, .trade trade.data⟩
  currency := trade.currency
  idempotencyKey := truthy idempotencyKey

end Trade

def applyTrade (db : Database) (clock : Clock) (trade : Trade) (idempotencyKey : Option String) :
    Except Exc (Database × Option (List DownstreamEvent)) :=
  submit db clock.starts (trade.command clock.now idempotencyKey)

/-- What `_apply_corporate_action` reads from an event's payload. -/
structure CorporateActionFields where
  portfolioId : UUID
  instrumentId : String
  actionId : UUID
  currency : String
  quantity : Decimal
  deriving DecidableEq, Repr

/-- `fresh` is the `uuid4` taken when the event names no action. -/
def corporateActionFields (fresh : UUID) (data : Dict) : Except Exc CorporateActionFields := do
  let portfolioId ← data.uuid "portfolio_id"
  let instrumentId ← data.text "instrument_id"
  let actionId ← ((data.get "action_id").getD (.text fresh.str)).asUuid
  let currency ← data.textOr "currency" "USD"
  let quantity ← data.decimalOr "quantity" 0
  return { portfolioId, instrumentId, actionId, currency, quantity }

namespace CorporateActionFields

def key (fields : CorporateActionFields) : String :=
  "ca-" ++ fields.actionId.str ++ "-" ++ fields.portfolioId.str ++ "-" ++ fields.instrumentId

def split (fields : CorporateActionFields) : CorporateActionEventData where
  portfolioId := fields.portfolioId
  instrumentId := fields.instrumentId
  currency := fields.currency
  actionId := fields.actionId
  splitRatio := if 0 < fields.quantity then fields.quantity else 1

def dividend (fields : CorporateActionFields) : CorporateActionEventData where
  portfolioId := fields.portfolioId
  instrumentId := fields.instrumentId
  currency := fields.currency
  actionId := fields.actionId
  dividendAmount := fields.quantity

def event (fields : CorporateActionFields) (now : Datetime) (eventType : String) : TradeEvent :=
  if "split".toList <:+: eventType.toList then ⟨.stockSplit, now, .corporateAction fields.split⟩
  else ⟨.dividendPaid, now, .corporateAction fields.dividend⟩

def command (fields : CorporateActionFields) (now : Datetime) (eventType : String) : Command where
  portfolioId := fields.portfolioId
  instrumentId := fields.instrumentId
  event := fields.event now eventType
  currency := fields.currency
  idempotencyKey := some fields.key

end CorporateActionFields

def applyCorporateAction (db : Database) (clock : Clock) (fresh : UUID) (event : BaseEvent) :
    Except Exc (Database × Option (List DownstreamEvent)) := do
  let fields ← corporateActionFields fresh event.data
  submit db clock.starts (fields.command clock.now event.eventType)

/-! ## Entry points -/

def tradeExecuted (context : RequestContext) (trade : Trade) : Message where
  topic := topicFor context.fundSlug "trades.executed"
  event := {
    eventType := trade.eventType.value
    data := [("portfolio_id", .text trade.portfolioId.str),
      ("instrument_id", .text trade.instrumentId), ("side", .text trade.side.value),
      ("quantity", .decimal trade.quantity), ("price", .decimal trade.price),
      ("trade_id", .text trade.tradeId.str), ("currency", .text trade.currency)]
    actorId := context.actorId
    actorType := context.actorType
    fundSlug := context.fundSlug }

/-- The direct path; the trade carries the `uuid4` drawn for it. -/
def handleTrade (db : Database) (clock : Clock) (context : RequestContext) (trade : Trade)
    (idempotencyKey : Option String) : Except Exc (Database × List Message) := do
  match ← applyTrade db clock trade idempotencyKey with
  | (next, none) => return (next, [])
  | (next, some downstream) =>
    return (next, tradeExecuted context trade ::
      publishDownstream context.fundSlug context.actorId context.actorType downstream)

/-- The trade that a `trades.executed` payload names. -/
def tradeOfEvent (fresh : UUID) (data : Dict) : Except Exc Trade := do
  let sideText ← data.text "side"
  let side := if sideText = "buy" then TradeSide.buy else .sell
  let tradeId ← match data.get "trade_id" with
    | some field => field.asUuid
    | none => .ok fresh
  let portfolioId ← data.uuid "portfolio_id"
  let instrumentId ← data.text "instrument_id"
  let quantity ← data.decimal "quantity"
  let price ← data.decimal "price"
  let currency ← data.textOr "currency" "USD"
  return { portfolioId, instrumentId, side, quantity, price, currency, tradeId }

/-- The subscriber path. -/
def handleTradeEvent (db : Database) (clock : Clock) (fresh : UUID) (event : BaseEvent) :
    Except Exc (Database × List Message) := do
  if truthy event.fundSlug = none then return (db, [])
  let (next, downstream) ←
    if event.data.get "source" = some (.text "corporate_action") then
      applyCorporateAction db clock fresh event
    else do
      let trade ← tradeOfEvent fresh event.data
      applyTrade db clock trade (some trade.tradeId.str)
  match downstream with
  | none => return (next, [])
  | some downstream =>
    return (next, publishDownstream event.fundSlug event.actorId event.actorType downstream)

end MiniHedge.Positions
