import MiniHedge.Python.Values

/-! Position events, as the aggregate, the event store and the handlers exchange them. -/

set_option autoImplicit false

namespace MiniHedge.Positions

open MiniHedge.Python

inductive TradeSide where
  | buy
  | sell
  deriving DecidableEq, Repr

def TradeSide.value : TradeSide → String
  | .buy => "buy"
  | .sell => "sell"

/-- `TradeSide(text)`. -/
def TradeSide.ofValue (text : String) : Except Exc TradeSide :=
  if text = "buy" then .ok .buy
  else if text = "sell" then .ok .sell
  else .error (.valueError s!"'{text}' is not a valid TradeSide")

@[simp] theorem TradeSide.ofValue_value (side : TradeSide) : ofValue side.value = .ok side := by
  cases side <;> rfl

inductive PositionEventType where
  | tradeBuy
  | tradeSell
  | stockSplit
  | dividendPaid
  | positionChanged
  | pnlRealized
  | pnlMarkToMarket
  deriving DecidableEq, Repr

def PositionEventType.value : PositionEventType → String
  | .tradeBuy => "trade.buy"
  | .tradeSell => "trade.sell"
  | .stockSplit => "stock.split"
  | .dividendPaid => "dividend.paid"
  | .positionChanged => "position.changed"
  | .pnlRealized => "pnl.realized"
  | .pnlMarkToMarket => "pnl.mark_to_market"

/-- `PositionEventType(text)`. -/
def PositionEventType.ofValue (text : String) : Except Exc PositionEventType :=
  match [tradeBuy, tradeSell, stockSplit, dividendPaid, positionChanged, pnlRealized,
      pnlMarkToMarket].find? (fun t => t.value = text) with
  | some t => .ok t
  | none => .error (.valueError s!"'{text}' is not a valid PositionEventType")

@[simp] theorem PositionEventType.ofValue_value (t : PositionEventType) :
    ofValue t.value = .ok t := by
  cases t <;> rfl

theorem PositionEventType.value_of_ofValue {text : String} {t : PositionEventType}
    (read : ofValue text = .ok t) : text = t.value := by
  simp only [ofValue] at read
  split at read
  · rename_i found
    cases read
    have same : t.value = text := by simpa using List.find?_some found
    exact same.symm
  · cases read

structure TradeEventData where
  portfolioId : UUID
  instrumentId : String
  side : TradeSide
  quantity : Decimal
  price : Decimal
  tradeId : UUID
  currency : String
  deriving DecidableEq, Repr

structure CorporateActionEventData where
  portfolioId : UUID
  instrumentId : String
  currency : String
  actionId : UUID
  splitRatio : Decimal := 1
  dividendAmount : Decimal := 0
  deriving DecidableEq, Repr

inductive EventData where
  | trade (data : TradeEventData)
  | corporateAction (data : CorporateActionEventData)
  deriving DecidableEq, Repr

namespace EventData

def typeName : EventData → String
  | .trade _ => "TradeEventData"
  | .corporateAction _ => "CorporateActionEventData"

def portfolioId : EventData → UUID
  | .trade d => d.portfolioId
  | .corporateAction d => d.portfolioId

def instrumentId : EventData → String
  | .trade d => d.instrumentId
  | .corporateAction d => d.instrumentId

def currency : EventData → String
  | .trade d => d.currency
  | .corporateAction d => d.currency

end EventData

structure TradeEvent where
  eventType : PositionEventType
  timestamp : Datetime
  data : EventData
  deriving DecidableEq, Repr

structure PositionChangedData where
  portfolioId : UUID
  instrumentId : String
  quantity : Decimal
  avgCost : Decimal
  costBasis : Decimal
  currency : String
  deriving DecidableEq, Repr

structure PnLRealizedData where
  portfolioId : UUID
  instrumentId : String
  realizedPnl : Decimal
  price : Decimal
  currency : String
  deriving DecidableEq, Repr

inductive DownstreamEvent where
  | positionChanged (eventType : PositionEventType) (data : PositionChangedData)
  | pnlRealized (eventType : PositionEventType) (data : PnLRealizedData)
  deriving DecidableEq, Repr

end MiniHedge.Positions
