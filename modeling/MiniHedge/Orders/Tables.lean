import MiniHedge.Orders.StateMachine
import MiniHedge.Positions.TradeHandler
import MiniHedge.Python.Decimal
import Mathlib.Algebra.BigOperators.Group.List.Basic
import Mathlib.Logic.Function.Basic

/-! The `orders` and `order_fills` tables of every fund's schema, the broker and
the event bus, with the writes that reach them and what each write leaves.

Orders are never deleted, so the foreign key of a fill whose order has been read
always holds; the primary key of the fills is checked.
-/

set_option autoImplicit false

namespace MiniHedge.Orders

open MiniHedge.Python MiniHedge.Positions

structure OrderRecord where
  id : UUID
  portfolioId : UUID
  instrumentId : String
  side : OrderSide
  quantity : Decimal
  filledQuantity : Decimal := 0
  avgFillPrice : Option Decimal := none
  state : OrderState
  rejectionReason : Option String := none
  parentOrderId : Option UUID := none
  isParent : Bool := false
  brokerId : Option String := none
  notOwnParent : parentOrderId ≠ some id := by simp
  deriving DecidableEq

namespace OrderRecord

def remaining (o : OrderRecord) : Decimal := o.quantity - o.filledQuantity

/-- What has been paid according to the totals. -/
def cost (o : OrderRecord) : Decimal := o.avgFillPrice.getD 0 * o.filledQuantity

end OrderRecord

/-- The columns that `update_state` sets: those not given keep their value. -/
structure Update where
  state : OrderState
  rejectionReason : Option String := none
  filledQuantity : Option Decimal := none
  avgFillPrice : Option Decimal := none
  brokerId : Option String := none
  deriving DecidableEq, Repr

/-- The average is computed, and left as a `Numeric(18, 8)` keeps it. Quantities and prices
come with no more places than their columns have. -/
def Update.set (u : Update) (o : OrderRecord) : OrderRecord :=
  { o with
    state := u.state
    rejectionReason := u.rejectionReason.or o.rejectionReason
    filledQuantity := u.filledQuantity.getD o.filledQuantity
    avgFillPrice := (u.avgFillPrice.map (numeric 8)).or o.avgFillPrice
    brokerId := u.brokerId.or o.brokerId }

namespace Update

variable (u : Update) (o : OrderRecord)

@[simp] theorem set_id : (u.set o).id = o.id := rfl

@[simp] theorem set_quantity : (u.set o).quantity = o.quantity := rfl

@[simp] theorem set_parentOrderId : (u.set o).parentOrderId = o.parentOrderId := rfl

/-- An update that leaves the totals as they are. -/
def KeepsTotals : Prop := u.filledQuantity = none ∧ u.avgFillPrice = none

variable {u}

theorem KeepsTotals.filledQuantity (keeps : u.KeepsTotals) :
    (u.set o).filledQuantity = o.filledQuantity := by
  simp [Update.set, keeps.1]

theorem KeepsTotals.cost (keeps : u.KeepsTotals) : (u.set o).cost = o.cost := by
  simp [OrderRecord.cost, Update.set, keeps.1, keeps.2]

end Update

structure OrderFillRecord where
  id : UUID
  orderId : UUID
  quantity : Decimal
  price : Decimal
  brokerId : Option String
  filledAt : Datetime
  deriving DecidableEq, Repr

def OrderFillRecord.cost (f : OrderFillRecord) : Decimal := f.quantity * f.price

/-- The tables of one fund; orders are listed as they were created. -/
structure Schema where
  orders : List OrderRecord := []
  fills : List OrderFillRecord := []
  deriving DecidableEq

namespace Schema

def getById (s : Schema) (id : UUID) : Option OrderRecord := s.orders.find? (·.id = id)

def getChildren (s : Schema) (parentOrderId : UUID) : List OrderRecord :=
  s.orders.filter (·.parentOrderId = some parentOrderId)

def activeStates : List OrderState :=
  [.draft, .pendingCompliance, .approved, .sent, .working, .partiallyFilled]

def getActiveChildren (s : Schema) (parentOrderId : UUID) : List OrderRecord :=
  (s.getChildren parentOrderId).filter (·.state ∈ activeStates)

def updateState (s : Schema) (id : UUID) (u : Update) : Schema :=
  { s with orders := s.orders.map fun o => if o.id = id then u.set o else o }

def insert (s : Schema) (o : OrderRecord) : Except Exc Schema :=
  if s.orders.any (·.id = o.id) then .error .integrityError
  else .ok { s with orders := s.orders ++ [o] }

def insertFill (s : Schema) (fill : OrderFillRecord) : Except Exc Schema :=
  if s.fills.any (·.id = fill.id) then .error .integrityError
  else .ok { s with fills := s.fills ++ [fill] }

theorem id_of_getById {s : Schema} {id : UUID} {o : OrderRecord} (found : s.getById id = some o) :
    o.id = id := by
  simpa using List.find?_some found

theorem parentOrderId_of_getChildren {s : Schema} {id : UUID} {o : OrderRecord}
    (member : o ∈ s.getChildren id) : o.parentOrderId = some id := by
  simpa using (List.mem_filter.mp member).2

theorem getById_updateState (s : Schema) (id key : UUID) (u : Update) :
    (s.updateState key u).getById id =
      (s.getById id).map fun o => if o.id = key then u.set o else o := by
  have same : ∀ o : OrderRecord, (if o.id = key then u.set o else o).id = o.id := by
    intro o
    split <;> rfl
  simp only [getById, updateState, List.find?_map]
  congr 2
  funext o
  rw [Function.comp_apply, same]

end Schema

structure World where
  schemas : String → Schema
  /-- The client order ids that the broker has accepted. -/
  accepted : List String := []
  published : List Message := []

namespace World

def order (w : World) (fundSlug : String) (id : UUID) : Option OrderRecord :=
  (w.schemas fundSlug).getById id

def fillsOf (w : World) (fundSlug : String) (id : UUID) : List OrderFillRecord :=
  (w.schemas fundSlug).fills.filter (·.orderId = id)

def set (w : World) (fundSlug : String) (s : Schema) : World :=
  { w with schemas := Function.update w.schemas fundSlug s }

def updateState (w : World) (fundSlug : String) (id : UUID) (u : Update) : World :=
  w.set fundSlug ((w.schemas fundSlug).updateState id u)

def insert (w : World) (fundSlug : String) (o : OrderRecord) : Except Exc World :=
  ((w.schemas fundSlug).insert o).map (w.set fundSlug)

def insertFill (w : World) (fundSlug : String) (fill : OrderFillRecord) : Except Exc World :=
  ((w.schemas fundSlug).insertFill fill).map (w.set fundSlug)

def publish (w : World) (m : Message) : World := { w with published := w.published ++ [m] }

def accept (w : World) (clientOrderId : String) : World :=
  { w with accepted := w.accepted ++ [clientOrderId] }

section Reads

variable {w w' : World} (fundSlug slug : String) (id key : UUID) (u : Update) (m : Message)
  (clientOrderId : String)

@[simp] theorem order_publish : (w.publish m).order fundSlug id = w.order fundSlug id := rfl

@[simp] theorem fillsOf_publish : (w.publish m).fillsOf fundSlug id = w.fillsOf fundSlug id := rfl

@[simp] theorem order_accept :
    (w.accept clientOrderId).order fundSlug id = w.order fundSlug id := rfl

@[simp] theorem fillsOf_accept :
    (w.accept clientOrderId).fillsOf fundSlug id = w.fillsOf fundSlug id := rfl

@[simp] theorem fillsOf_updateState :
    (w.updateState slug key u).fillsOf fundSlug id = w.fillsOf fundSlug id := by
  by_cases same : fundSlug = slug
  · subst same
    simp [fillsOf, updateState, set, Schema.updateState]
  · simp [fillsOf, updateState, set, Function.update_of_ne same]

variable {fundSlug id}

theorem id_of_order {o : OrderRecord} (found : w.order fundSlug id = some o) : o.id = id :=
  Schema.id_of_getById found

theorem order_updateState_own :
    (w.updateState fundSlug id u).order fundSlug id = (w.order fundSlug id).map u.set := by
  simp only [order, updateState, set, Function.update_self, Schema.getById_updateState]
  refine Option.map_congr fun o found => ?_
  rw [if_pos (Schema.id_of_getById found)]

variable {slug key}

theorem order_updateState_other (other : ¬ (slug = fundSlug ∧ key = id)) :
    (w.updateState slug key u).order fundSlug id = w.order fundSlug id := by
  by_cases same : fundSlug = slug
  · subst same
    simp only [order, updateState, set, Function.update_self, Schema.getById_updateState]
    refine (Option.map_congr fun o found => if_neg fun hit => other ⟨rfl, ?_⟩).trans Option.map_id'
    rw [← hit, Schema.id_of_getById found]
  · simp [order, updateState, set, Function.update_of_ne same]

variable {fill : OrderFillRecord}

theorem insertFill_cases (inserted : w.insertFill slug fill = .ok w') :
    (∀ f ∈ (w.schemas slug).fills, f.id ≠ fill.id) ∧
      w' = w.set slug { w.schemas slug with fills := (w.schemas slug).fills ++ [fill] } := by
  simp only [insertFill, Schema.insertFill] at inserted
  split at inserted
  · cases inserted
  · rename_i new
    cases inserted
    exact ⟨by simpa using new, rfl⟩

theorem order_insertFill (inserted : w.insertFill slug fill = .ok w') (fundSlug : String)
    (id : UUID) : w'.order fundSlug id = w.order fundSlug id := by
  obtain ⟨-, rfl⟩ := insertFill_cases inserted
  by_cases same : fundSlug = slug
  · subst same
    simp [order, set, Schema.getById]
  · simp [order, set, Function.update_of_ne same]

theorem order_insert {o : OrderRecord} (inserted : w.insert slug o = .ok w') (fundSlug : String)
    (id : UUID) : w'.order fundSlug id =
      (w.order fundSlug id).or (if slug = fundSlug ∧ o.id = id then some o else none) := by
  simp only [insert, Schema.insert] at inserted
  split at inserted
  · cases inserted
  · cases inserted
    by_cases same : fundSlug = slug
    · subst same
      by_cases own : o.id = id <;> simp [order, set, Schema.getById, own]
    · simp [order, set, Function.update_of_ne same, Ne.symm same]

theorem fillsOf_insertFill (inserted : w.insertFill slug fill = .ok w') (fundSlug : String)
    (id : UUID) : w'.fillsOf fundSlug id =
      w.fillsOf fundSlug id ++ if slug = fundSlug ∧ fill.orderId = id then [fill] else [] := by
  obtain ⟨-, rfl⟩ := insertFill_cases inserted
  by_cases same : fundSlug = slug
  · subst same
    by_cases own : fill.orderId = id <;> simp [fillsOf, set, own]
  · simp [fillsOf, set, Function.update_of_ne same, Ne.symm same]

end Reads

end World

/-! ## Published events -/

def tradeExecuted (fundSlug : String) (o : OrderRecord) (tradeId : UUID)
    (fillQuantity fillPrice : Decimal) : Message where
  topic := fundTopic fundSlug "trades.executed"
  event := {
    eventType := if o.side.value = "buy" then "trade.buy" else "trade.sell"
    data := [("portfolio_id", .text o.portfolioId.str), ("instrument_id", .text o.instrumentId),
      ("side", .text o.side.value), ("quantity", .decimal fillQuantity),
      ("price", .decimal fillPrice), ("trade_id", .text tradeId.str), ("currency", .text "USD")]
    fundSlug := some fundSlug }

def orderFilled (fundSlug : String) (o : OrderRecord) (fillQuantity fillPrice : Decimal) :
    Message where
  topic := fundTopic fundSlug "orders.filled"
  event := {
    eventType := "order.filled"
    data := [("order_id", .text o.id.str), ("portfolio_id", .text o.portfolioId.str),
      ("instrument_id", .text o.instrumentId), ("side", .text o.side.value),
      ("fill_quantity", .decimal fillQuantity), ("fill_price", .decimal fillPrice),
      ("state", .text o.state.value)]
    fundSlug := some fundSlug }

end MiniHedge.Orders
