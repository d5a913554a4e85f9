import MiniHedge.Positions.Interfaces
import MiniHedge.Library.StableSort
import Mathlib.Data.Prod.Lex

/-! The event-sourced position aggregate.

A sell walks the lots in `(acquired_at, lot_id)` order and changes them where
they stand, so each lot is paired with its place in the list before sorting and
returned to that place afterwards.
-/

set_option autoImplicit false

namespace MiniHedge.Positions

open MiniHedge.Python MiniHedge.Library

structure LotState where
  lotId : UUID
  quantity : Decimal
  originalQuantity : Decimal
  price : Decimal
  acquiredAt : Datetime
  tradeId : UUID
  deriving DecidableEq, Repr

abbrev LotKey := Datetime ×ₗ UUID

def LotState.key (lot : LotState) : LotKey := toLex (lot.acquiredAt, lot.lotId)

structure PositionAggregate where
  portfolioId : UUID
  instrumentId : String
  quantity : Decimal := 0
  costBasis : Decimal := 0
  realizedPnl : Decimal := 0
  currency : String := "USD"
  lots : List LotState := []
  version : Nat := 0
  deriving DecidableEq, Repr

/-! ## Lot matching -/

/-- `sorted(self.lots, key=lambda x: (x.acquired_at, x.lot_id))`, each lot with its place. -/
def fifoOrder (lots : List LotState) : List (LotState × Nat) :=
  sortOn (fun entry => entry.1.key) lots.zipIdx

/-- `self.lots` after its lots were changed through the sorted list. -/
def inPlace (entries : List (LotState × Nat)) : List LotState :=
  (sortOn Prod.snd entries).map Prod.fst

structure Matching where
  remaining : Decimal
  realized : Decimal
  lots : List (LotState × Nat)
  deriving DecidableEq, Repr

def matchLots (price : Decimal) : Decimal → Decimal → List (LotState × Nat) → Matching
  | remaining, realized, [] => ⟨remaining, realized, []⟩
  | remaining, realized, (lot, place) :: rest =>
    if remaining ≤ 0 ∨ lot.quantity ≤ 0 then ⟨remaining, realized, (lot, place) :: rest⟩
    else
      let soldFromLot := min remaining lot.quantity
      let later := matchLots price (remaining - soldFromLot)
        (realized + soldFromLot * (price - lot.price)) rest
      { later with lots := ({ lot with quantity := lot.quantity - soldFromLot }, place) :: later.lots }

namespace PositionAggregate

def avgCost (a : PositionAggregate) : Decimal :=
  if a.quantity = 0 then 0 else a.costBasis / |a.quantity|

def positionChangedEvent (a : PositionAggregate) : DownstreamEvent :=
  .positionChanged .positionChanged
    { portfolioId := a.portfolioId, instrumentId := a.instrumentId, quantity := a.quantity,
      avgCost := a.avgCost, costBasis := a.costBasis, currency := a.currency }

def pnlRealizedEvent (a : PositionAggregate) (amount price : Decimal) : DownstreamEvent :=
  .pnlRealized .pnlRealized
    { portfolioId := a.portfolioId, instrumentId := a.instrumentId, realizedPnl := amount,
      price := price, currency := a.currency }

/-! ## One event -/

def buy (a : PositionAggregate) (timestamp : Datetime) (d : TradeEventData) : PositionAggregate :=
  { a with
    currency := d.currency
    quantity := a.quantity + d.quantity
    costBasis := a.costBasis + d.quantity * d.price
    lots := a.lots ++ [{
      lotId := UUID.uuid5 d.tradeId "lot"
      quantity := d.quantity
      originalQuantity := d.quantity
      price := d.price
      acquiredAt := timestamp
      tradeId := d.tradeId }]
    version := a.version + 1 }

def applyBuy (a : PositionAggregate) (event : TradeEvent) :
    Except Exc (PositionAggregate × List DownstreamEvent) :=
  match event.data with
  | .corporateAction _ => .error (.attributeError "quantity")
  | .trade d =>
    let next := a.buy event.timestamp d
    .ok (next, [next.positionChangedEvent])

def matching (a : PositionAggregate) (d : TradeEventData) : Matching :=
  matchLots d.price d.quantity 0 (fifoOrder a.lots)

def lotsAfterSell (a : PositionAggregate) (timestamp : Datetime) (d : TradeEventData) :
    List LotState :=
  let m := a.matching d
  let remainingLots := (inPlace m.lots).filter fun lot => 0 < lot.quantity
  if 0 < m.remaining then
    remainingLots ++ [{
      lotId := UUID.uuid5 d.tradeId "short"
      quantity := -m.remaining
      originalQuantity := -m.remaining
      price := d.price
      acquiredAt := timestamp
      tradeId := d.tradeId }]
  else remainingLots

def sell (a : PositionAggregate) (timestamp : Datetime) (d : TradeEventData) : PositionAggregate :=
  let lots := a.lotsAfterSell timestamp d
  { a with
    currency := d.currency
    lots := lots
    quantity := a.quantity - d.quantity
    costBasis := (lots.map fun lot => |lot.quantity| * lot.price).sum
    realizedPnl := a.realizedPnl + (a.matching d).realized
    version := a.version + 1 }

def applySell (a : PositionAggregate) (event : TradeEvent) :
    Except Exc (PositionAggregate × List DownstreamEvent) :=
  match event.data with
  | .corporateAction _ => .error (.attributeError "quantity")
  | .trade d =>
    let next := a.sell event.timestamp d
    .ok (next, [next.positionChangedEvent, next.pnlRealizedEvent (a.matching d).realized d.price])

def splitLot (ratio : Decimal) (lot : LotState) : Except Exc LotState := do
  let price ← divide lot.price ratio
  return { lot with
    quantity := lot.quantity * ratio
    originalQuantity := lot.originalQuantity * ratio
    price := price }

def applySplit (a : PositionAggregate) (event : TradeEvent) :
    Except Exc (PositionAggregate × List DownstreamEvent) :=
  match event.data with
  | .trade _ => .error (.typeError
      s!"Expected CorporateActionEventData, got {event.data.typeName}")
  | .corporateAction d => do
    let lots ← a.lots.mapM (splitLot d.splitRatio)
    let next := { a with
      currency := d.currency
      lots := lots
      quantity := a.quantity * d.splitRatio
      version := a.version + 1 }
    return (next, [next.positionChangedEvent])

def dividend (a : PositionAggregate) (d : CorporateActionEventData) : PositionAggregate :=
  { a with
    currency := d.currency
    realizedPnl := a.realizedPnl + d.dividendAmount
    version := a.version + 1 }

def applyDividend (a : PositionAggregate) (event : TradeEvent) :
    Except Exc (PositionAggregate × List DownstreamEvent) :=
  match event.data with
  | .trade _ => .error (.typeError
      s!"Expected CorporateActionEventData, got {event.data.typeName}")
  | .corporateAction d =>
    let next := a.dividend d
    .ok (next, [next.positionChangedEvent, next.pnlRealizedEvent d.dividendAmount 0])

def apply (a : PositionAggregate) (event : TradeEvent) :
    Except Exc (PositionAggregate × List DownstreamEvent) :=
  match event.eventType with
  | .tradeBuy => a.applyBuy event
  | .tradeSell => a.applySell event
  | .stockSplit => a.applySplit event
  | .dividendPaid => a.applyDividend event
  | _ => .ok (a, [])

/-! ## A history of events -/

def checkOwner (portfolioId : UUID) (instrumentId : String) (event : TradeEvent) : Except Exc Unit :=
  if event.data.portfolioId ≠ portfolioId ∨ event.data.instrumentId ≠ instrumentId then
    .error (.valueError (s!"Event {event.eventType.value} belongs to " ++
      s!"{event.data.portfolioId.str}:{event.data.instrumentId}, " ++
      s!"expected {portfolioId.str}:{instrumentId}"))
  else .ok ()

def foldEvents (portfolioId : UUID) (instrumentId : String) (a : PositionAggregate) :
    List TradeEvent → Except Exc PositionAggregate
  | [] => .ok a
  | event :: rest => do
    checkOwner portfolioId instrumentId event
    let (next, _) ← a.apply event
    foldEvents portfolioId instrumentId next rest

def empty (portfolioId : UUID) (instrumentId : String) : PositionAggregate :=
  { portfolioId := portfolioId, instrumentId := instrumentId }

def fromEvents (portfolioId : UUID) (instrumentId : String) (events : List TradeEvent) :
    Except Exc PositionAggregate :=
  foldEvents portfolioId instrumentId (empty portfolioId instrumentId) events

/-! ## Events that apply

On an event whose payload fits its type, `apply` is the total step `after`, and
a history of such events folds to its iteration.
-/

def scaleLot (ratio : Decimal) (lot : LotState) : LotState :=
  { lot with
    quantity := lot.quantity * ratio
    originalQuantity := lot.originalQuantity * ratio
    price := lot.price / ratio }

def split (a : PositionAggregate) (d : CorporateActionEventData) : PositionAggregate :=
  { a with
    currency := d.currency
    lots := a.lots.map (scaleLot d.splitRatio)
    quantity := a.quantity * d.splitRatio
    version := a.version + 1 }

def after (a : PositionAggregate) (event : TradeEvent) : PositionAggregate :=
  match event.eventType, event.data with
  | .tradeBuy, .trade d => a.buy event.timestamp d
  | .tradeSell, .trade d => a.sell event.timestamp d
  | .stockSplit, .corporateAction d => a.split d
  | .dividendPaid, .corporateAction d => a.dividend d
  | _, _ => a

@[simp] theorem after_buy (a : PositionAggregate) (t : Datetime) (d : TradeEventData) :
    a.after ⟨.tradeBuy, t, .trade d⟩ = a.buy t d := rfl

@[simp] theorem after_sell (a : PositionAggregate) (t : Datetime) (d : TradeEventData) :
    a.after ⟨.tradeSell, t, .trade d⟩ = a.sell t d := rfl

@[simp] theorem after_split (a : PositionAggregate) (t : Datetime) (d : CorporateActionEventData) :
    a.after ⟨.stockSplit, t, .corporateAction d⟩ = a.split d := rfl

@[simp] theorem after_dividend (a : PositionAggregate) (t : Datetime)
    (d : CorporateActionEventData) :
    a.after ⟨.dividendPaid, t, .corporateAction d⟩ = a.dividend d := rfl

end PositionAggregate

namespace TradeEvent

inductive Applicable : TradeEvent → Prop where
  | buy (t : Datetime) (d : TradeEventData) : Applicable ⟨.tradeBuy, t, .trade d⟩
  | sell (t : Datetime) (d : TradeEventData) : Applicable ⟨.tradeSell, t, .trade d⟩
  | split (t : Datetime) (d : CorporateActionEventData) (nonzero : d.splitRatio ≠ 0) :
      Applicable ⟨.stockSplit, t, .corporateAction d⟩
  | dividend (t : Datetime) (d : CorporateActionEventData) :
      Applicable ⟨.dividendPaid, t, .corporateAction d⟩

def OwnedBy (portfolioId : UUID) (instrumentId : String) (event : TradeEvent) : Prop :=
  event.data.portfolioId = portfolioId ∧ event.data.instrumentId = instrumentId

instance (portfolioId : UUID) (instrumentId : String) (event : TradeEvent) :
    Decidable (event.OwnedBy portfolioId instrumentId) :=
  inferInstanceAs (Decidable (_ ∧ _))

end TradeEvent

namespace PositionAggregate

theorem mapM_splitLot {ratio : Decimal} (nonzero : ratio ≠ 0) (lots : List LotState) :
    lots.mapM (splitLot ratio) = .ok (lots.map (scaleLot ratio)) := by
  induction lots with
  | nil => rfl
  | cons lot lots ih =>
    rw [List.mapM_cons, ih, splitLot, divide_ok nonzero]
    rfl

theorem apply_applicable (a : PositionAggregate) {event : TradeEvent}
    (applicable : event.Applicable) :
    ∃ downstream, a.apply event = .ok (a.after event, downstream) := by
  cases applicable with
  | buy t d => exact ⟨_, rfl⟩
  | sell t d => exact ⟨_, rfl⟩
  | split t d nonzero =>
    refine ⟨[(a.split d).positionChangedEvent], ?_⟩
    simp only [apply, applySplit, mapM_splitLot nonzero, after_split]
    rfl
  | dividend t d => exact ⟨_, rfl⟩

theorem checkOwner_owned {portfolioId : UUID} {instrumentId : String} {event : TradeEvent}
    (owned : event.OwnedBy portfolioId instrumentId) :
    checkOwner portfolioId instrumentId event = .ok () := by
  simp [checkOwner, owned.1, owned.2]

theorem foldEvents_cons {portfolioId : UUID} {instrumentId : String} {event : TradeEvent}
    (owned : event.OwnedBy portfolioId instrumentId) (applicable : event.Applicable)
    (a : PositionAggregate) (rest : List TradeEvent) :
    foldEvents portfolioId instrumentId a (event :: rest) =
      foldEvents portfolioId instrumentId (a.after event) rest := by
  obtain ⟨downstream, applied⟩ := apply_applicable a applicable
  rw [foldEvents, checkOwner_owned owned, applied]
  rfl

theorem foldEvents_ok {portfolioId : UUID} {instrumentId : String} {events : List TradeEvent}
    (owned : ∀ event ∈ events, event.OwnedBy portfolioId instrumentId)
    (applicable : ∀ event ∈ events, event.Applicable) (a : PositionAggregate) :
    foldEvents portfolioId instrumentId a events = .ok (events.foldl after a) := by
  induction events generalizing a with
  | nil => rfl
  | cons event rest ih =>
    rw [foldEvents_cons (owned event (by simp)) (applicable event (by simp)), List.foldl_cons]
    exact ih (fun e member => owned e (by simp [member]))
      (fun e member => applicable e (by simp [member])) _

theorem fromEvents_ok {portfolioId : UUID} {instrumentId : String} {events : List TradeEvent}
    (owned : ∀ event ∈ events, event.OwnedBy portfolioId instrumentId)
    (applicable : ∀ event ∈ events, event.Applicable) :
    fromEvents portfolioId instrumentId events =
      .ok (events.foldl after (empty portfolioId instrumentId)) :=
  foldEvents_ok owned applicable _

end PositionAggregate

end MiniHedge.Positions
