import MiniHedge.Library.Transition
import MiniHedge.MockExchange.OrderBook
import Mathlib.Data.Int.Log

/-! The execution engine of the mock exchange: orders, their fill tasks and cancels.

A fill task sleeps for the latency of the broker and then runs to its end without
another await, so that it is a step of its own; what it draws at random and the
quote that it finds are in `Wake`. The estimate of the impact model is a parameter.
An order's place in the list is its exchange id. Times, latencies, logs and the
trade tape are left out.
-/

set_option autoImplicit false

namespace MiniHedge.MockExchange

open MiniHedge.Python MiniHedge.Library

inductive OrderStatus where
  | acknowledged
  | partiallyFilled
  | filled
  | rejected
  | cancelled
  deriving DecidableEq, Repr

inductive OrderType where
  | market
  | limit
  deriving DecidableEq, Repr

structure Fill where
  fillId : String
  quantity : Decimal
  price : Decimal
  deriving DecidableEq, Repr

structure OrderRequest where
  clientOrderId : String
  instrumentId : String
  side : Side
  orderType : OrderType
  quantity : Decimal
  limitPrice : Option Decimal := none
  brokerId : String := "GS"
  deriving DecidableEq, Repr

structure OrderState extends OrderRequest where
  exchangeOrderId : ℕ
  status : OrderStatus
  arrivalPrice : Option Decimal := none
  fills : List Fill := []
  deriving DecidableEq, Repr

namespace OrderState

variable (order : OrderState)

def filledQuantity : Decimal := (order.fills.map (·.quantity)).sum

def avgFillPrice : Option Decimal :=
  if order.fills = [] ∨ order.filledQuantity = 0 then none
  else some (quantize 4 .halfEven
    ((order.fills.map fun f => f.price * f.quantity).sum / order.filledQuantity))

/-- `cancel_order`: whether it is cancelled, and what becomes of it. -/
def cancel : Bool × OrderState :=
  match order.status with
  | .filled | .rejected | .cancelled => (false, order)
  | .acknowledged | .partiallyFilled => (true, { order with status := .cancelled })

end OrderState

structure BrokerProfile where
  commissionBps : ℚ
  fillRate : ℚ
  rejectRate : ℚ
  spreadMarkupBps : Decimal
  sectorSpecializations : List String := []
  specializationBonusBps : Decimal := 0
  maxParticipationRate : ℚ := 3 / 20
  deriving DecidableEq, Repr

structure InstrumentInfo where
  exchange : String
  sector : String
  annualVolatility : ℚ := 1 / 4
  avgDailyVolume : Int := 10000000
  deriving DecidableEq, Repr

structure ExecutionConfig where
  rejectRate : ℚ := 0
  partialFillRate : ℚ := 0
  tradingHoursEnabled : Bool := true

structure FillReport where
  exchangeOrderId : ℕ
  clientOrderId : String
  instrumentId : String
  side : Side
  status : OrderStatus
  fillId : String
  fillQuantity : Decimal
  fillPrice : Decimal
  filledQuantity : Decimal
  avgFillPrice : Option Decimal
  brokerId : String
  arrivalPrice : Option Decimal
  commissionBps : ℚ
  spreadCostBps : Option ℚ
  deriving DecidableEq, Repr

inductive ExecutionReport where
  | rejected (exchangeOrderId : ℕ) (clientOrderId instrumentId : String) (side : Side)
      (rejectReason brokerId : String)
  | fill (report : FillReport)
  deriving DecidableEq, Repr

/-- The double nearest to a number of the usual sizes. -/
def double (x : ℚ) : ℚ :=
  let ulp : ℚ := 2 ^ (Int.log 2 |x| - 52)
  Rounding.halfEven.round (x / ulp) * ulp

/-- `int(x)`. -/
def toInt (x : ℚ) : Int := if x < 0 then x.ceil else x.floor

/-- What a fill task meets when it wakes, apart from the book: `random.random()`, the share
`random.uniform(0.3, 0.8)` of a partial fill, the slippage without a book, the quote, and `uuid4`. -/
structure Wake where
  draw : ℚ
  share : Decimal := 1 / 2
  slippage : Decimal := 0
  quote : Option Decimal := none
  fillId : String := "fill"

structure ExecutionEngine where
  instruments : String → Option InstrumentInfo := fun _ => none
  brokers : String → Option BrokerProfile := fun _ => none
  config : ExecutionConfig := {}
  /-- `estimate_impact(..).permanent_bps`. -/
  permanentBps : Int → InstrumentInfo → Side → Decimal := fun _ _ _ => 0

def Side.direction : Side → Decimal
  | .buy => 1
  | .sell => -1

/-- What a fill task leaves when it ends. -/
structure Filled where
  order : OrderState
  book : Option SimulatedOrderBook
  ticks : List TradeTick
  report : FillReport

def fallbackPrice (order : OrderState) (w : Wake) : Decimal :=
  let basePrice := (order.limitPrice.or w.quote).getD 100
  quantize 2 .halfEven (basePrice * (1 + w.slippage))

namespace ExecutionEngine

variable (engine : ExecutionEngine)

def fillQuantity (order : OrderState) (w : Wake) : Decimal :=
  let broker := engine.brokers order.brokerId
  let fillRate := match broker with
    | some profile => profile.fillRate
    | none => double (1 - engine.config.partialFillRate)
  let fillQty :=
    if fillRate < w.draw then max (quantize 0 .halfEven (order.quantity * w.share)) 1
    else order.quantity
  match broker, engine.instruments order.instrumentId with
  | some profile, some instrument =>
    if 0 < instrument.avgDailyVolume then
      let maxQty : Decimal := toInt (double (profile.maxParticipationRate * instrument.avgDailyVolume))
      if maxQty < fillQty then maxQty else fillQty
    else fillQty
  | _, _ => fillQty

/-- The broker's markup on the spread, or its bonus in a sector of its own. -/
def markedUp (instrumentId : String) (side : Side) (broker : Option BrokerProfile)
    (vwapPrice : Decimal) : Decimal :=
  match broker with
  | none => vwapPrice
  | some profile =>
    if profile.spreadMarkupBps = 0 then vwapPrice
    else
      let bonus := match engine.instruments instrumentId with
        | some instrument =>
          if instrument.sector ∈ profile.sectorSpecializations then profile.specializationBonusBps else 0
        | none => 0
      let markup := profile.spreadMarkupBps - bonus
      let adjustment := side.direction * markup / 10000
      quantize 4 .halfEven (vwapPrice * (1 + adjustment))

def executeViaBook (book : SimulatedOrderBook) (order : OrderState) (quantity : Decimal) :
    Decimal × List TradeTick × SimulatedOrderBook :=
  let qty := toInt quantity
  let (ticks, left) := match order.orderType, order.limitPrice with
    | .limit, some limitPrice =>
      let (ticks, _, left) := book.executeLimitOrder order.side limitPrice qty
      (ticks, left)
    | _, _ => book.executeMarketOrder order.side qty
  -- no liquidity: the mid of the book, whatever the limit is
  if ticks = [] then (book.mid, [], left)
  else
    let totalValue := (ticks.map fun t => t.price * (t.quantity : ℚ)).sum
    let totalQty : ℚ := ((ticks.map (·.quantity)).sum : ℕ)
    let vwapPrice := quantize 4 .halfEven (totalValue / totalQty)
    (engine.markedUp book.instrumentId order.side (engine.brokers order.brokerId) vwapPrice, ticks, left)

/-- The permanent impact of an order moves the book. -/
def moved (order : OrderState) (fillQty : Decimal) (book : SimulatedOrderBook) : SimulatedOrderBook :=
  match engine.instruments order.instrumentId with
  | none => book
  | some instrument =>
    let bps := engine.permanentBps (toInt fillQty) instrument order.side
    if 0 < toInt fillQty ∧ 1 / 10 < bps then
      book.updateMid (book.mid * (1 + order.side.direction * (bps / 10000)))
    else book

/-- `_do_fill`, from where it wakes. The status that the order has by then is not looked at. -/
def doFill (order : OrderState) (book : Option SimulatedOrderBook) (w : Wake) : Filled :=
  let fillQty := engine.fillQuantity order w
  let (fillPrice, ticks, book) := match book with
    | some book =>
      let (price, ticks, left) := engine.executeViaBook book order fillQty
      (price, ticks, some (engine.moved order fillQty left))
    | none => (fallbackPrice order w, [], none)
  let order : OrderState := { order with
    fills := order.fills ++ [{ fillId := w.fillId, quantity := fillQty, price := fillPrice }] }
  let order : OrderState := { order with
    status := if order.quantity ≤ order.filledQuantity then .filled else .partiallyFilled }
  let nonzero : Option Decimal → Option Decimal := Option.filter (· ≠ 0)
  { order, book, ticks
    report := {
      exchangeOrderId := order.exchangeOrderId
      clientOrderId := order.clientOrderId
      instrumentId := order.instrumentId
      side := order.side
      status := order.status
      fillId := w.fillId
      fillQuantity := fillQty
      fillPrice
      filledQuantity := order.filledQuantity
      avgFillPrice := nonzero order.avgFillPrice
      brokerId := order.brokerId
      arrivalPrice := nonzero order.arrivalPrice
      commissionBps := ((engine.brokers order.brokerId).map (·.commissionBps)).getD 5
      spreadCostBps := (order.arrivalPrice.filter (0 < ·)).map fun arrival =>
        order.side.direction * (fillPrice - arrival) / arrival * 10000 } }

end ExecutionEngine

/-! ## The exchange -/

inductive FillTask where
  | unscheduled
  | sleeping
  | ended
  deriving DecidableEq, Repr

structure Exchange where
  books : String → Option SimulatedOrderBook := fun _ => none
  orders : List (OrderState × FillTask) := []
  reports : List ExecutionReport := []

namespace ExecutionEngine

variable (engine : ExecutionEngine)

/-- `submit_order`, with whether the market is open, the quote and the random draw: the order, the
task that it schedules, and the report of a rejection. -/
def submitOrder (s : Exchange) (request : OrderRequest) (isMarketOpen : Bool) (quote : Option Decimal)
    (draw : ℚ) : (OrderState × FillTask) × Option ExecutionReport :=
  let exchangeOrderId := s.orders.length
  match engine.instruments request.instrumentId with
  | some instrument =>
    if engine.config.tradingHoursEnabled ∧ ¬ isMarketOpen then
      (({ toOrderRequest := request, exchangeOrderId, status := .rejected }, .unscheduled),
        some (.rejected exchangeOrderId request.clientOrderId request.instrumentId request.side
          s!"{instrument.exchange} is closed" request.brokerId))
    else (accepted exchangeOrderId, none)
  | none => (accepted exchangeOrderId, none)
where
  accepted (exchangeOrderId : ℕ) : OrderState × FillTask :=
    let arrivalPrice := match s.books request.instrumentId with
      | some book => some book.mid
      | none => quote
    let rejectRate := match engine.brokers request.brokerId with
      | some profile => max engine.config.rejectRate profile.rejectRate
      | none => engine.config.rejectRate
    if draw < rejectRate then
      ({ toOrderRequest := request, exchangeOrderId, status := .rejected, arrivalPrice }, .unscheduled)
    else
      ({ toOrderRequest := request, exchangeOrderId, status := .acknowledged, arrivalPrice }, .sleeping)

end ExecutionEngine

/-- A fill that wakes is reported unless the producer is missing or raises. One that fails has
not come to append its fill; the book may have been walked. -/
inductive ExchangeEvent where
  | submits (request : OrderRequest) (isMarketOpen : Bool) (quote : Option Decimal) (draw : ℚ)
      (published : Bool)
  | wakes (k : ℕ) (w : Wake) (published : Bool)
  | fails (k : ℕ) (books : String → Option SimulatedOrderBook)
  | cancels (k : ℕ)
  | moves (books : String → Option SimulatedOrderBook)

def exchange (engine : ExecutionEngine) : System Exchange ExchangeEvent where
  step s
    | .submits request isMarketOpen quote draw published =>
      let (order, report) := engine.submitOrder s request isMarketOpen quote draw
      some { s with
        orders := s.orders ++ [order]
        reports := s.reports ++ if published then report.toList else [] }
    | .wakes k w published =>
      match s.orders[k]? with
      | some (order, .sleeping) =>
        let filled := engine.doFill order (s.books order.instrumentId) w
        some {
          books := Function.update s.books order.instrumentId filled.book
          orders := s.orders.set k (filled.order, .ended)
          reports := s.reports ++ if published then [.fill filled.report] else [] }
      | _ => none
    | .fails k books =>
      match s.orders[k]? with
      | some (order, .sleeping) => some { s with books, orders := s.orders.set k (order, .ended) }
      | _ => none
    | .cancels k =>
      match s.orders[k]? with
      | some (order, task) => some { s with orders := s.orders.set k (order.cancel.2, task) }
      | none => some s
    | .moves books => some { s with books }

end MiniHedge.MockExchange
