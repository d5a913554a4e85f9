import MiniHedge.Library.Apportionment
import MiniHedge.Library.Transition
import MiniHedge.Python.Decimal
import MiniHedge.Orders.SingleFill
import Mathlib.Data.List.MinMax

/-! Block trades: one execution order for the legs of several funds.

A block is executed by an order of the fund with the largest leg. Its fills are
processed like those of any other order, and `allocate_fills` distributes what
the order has filled so far over the legs and publishes a trade for each.
-/

set_option autoImplicit false

namespace MiniHedge.Orders

open MiniHedge.Python MiniHedge.Positions MiniHedge.Library

/-! ## Requests and records -/

inductive AllocationState where
  | draft
  | pendingCompliance
  | approved
  | rejected
  | executing
  | allocated
  | cancelled
  deriving DecidableEq, Repr

inductive AlgoType where
  | twap
  | vwap
  | iceberg
  deriving DecidableEq, Repr

structure AllocationLegRequest where
  fundSlug : String
  portfolioId : UUID
  targetPct : Decimal
  deriving DecidableEq, Repr

structure CreateBlockAllocationRequest where
  instrumentId : String
  side : OrderSide
  totalQuantity : Decimal
  limitPrice : Option Decimal := none
  algoType : Option AlgoType := none
  legs : List AllocationLegRequest
  deriving DecidableEq, Repr

structure BlockAllocationRecord where
  id : UUID
  instrumentId : String
  side : OrderSide
  totalQuantity : Decimal
  filledQuantity : Decimal := 0
  avgFillPrice : Option Decimal := none
  state : AllocationState := .draft
  limitPrice : Option Decimal := none
  algoType : Option AlgoType := none
  executionFundSlug : Option String := none
  executionOrderId : Option UUID := none
  deriving DecidableEq, Repr

structure AllocationLegRecord where
  id : UUID
  blockAllocationId : UUID
  fundSlug : String
  portfolioId : UUID
  targetPct : Decimal
  targetQuantity : Decimal
  filledQuantity : Decimal := 0
  avgFillPrice : Option Decimal := none
  state : AllocationState := .pendingCompliance
  deriving DecidableEq, Repr

structure TradeCheckRequest where
  portfolioId : UUID
  instrumentId : String
  side : OrderSide
  quantity : Decimal
  price : Decimal
  deriving DecidableEq, Repr

namespace CreateBlockAllocationRequest

variable (request : CreateBlockAllocationRequest)

def check : Except Exc Unit :=
  let totalPct := (request.legs.map (·.targetPct)).sum
  if 1 / 10000 < |totalPct - 1| then
    .error (.valueError s!"Allocation legs must sum to 100%, got {totalPct}")
  else if request.legs = [] then .error (.valueError "At least one allocation leg is required")
  else .ok ()

/-- The last leg gets the remainder. -/
def targetQuantities : List Decimal :=
  apportion (fun leg => quantize 8 .halfEven (request.totalQuantity * leg.targetPct))
    request.totalQuantity 0 request.legs

def record (id : UUID) : BlockAllocationRecord where
  id := id
  instrumentId := request.instrumentId
  side := request.side
  totalQuantity := request.totalQuantity
  limitPrice := request.limitPrice
  algoType := request.algoType

/-- The share of a leg is stored with six places. -/
def createLegs (allocationId : UUID) (legIds : Nat → UUID) : List AllocationLegRecord :=
  (request.legs.zip request.targetQuantities).mapIdx fun i (leg, targetQuantity) =>
    { id := legIds i
      blockAllocationId := allocationId
      fundSlug := leg.fundSlug
      portfolioId := leg.portfolioId
      targetPct := numeric 6 leg.targetPct
      targetQuantity := targetQuantity }

def tradeCheck (leg : AllocationLegRecord) : TradeCheckRequest where
  portfolioId := leg.portfolioId
  instrumentId := request.instrumentId
  side := request.side
  quantity := leg.targetQuantity
  price := (request.limitPrice.filter (· ≠ 0)).getD 100

/-- The order of the execution fund, as `_persist_new_order` inserts it. -/
def executionOrder (leg : AllocationLegRecord) (id : UUID) : OrderRecord where
  id := id
  portfolioId := leg.portfolioId
  instrumentId := request.instrumentId
  side := request.side
  quantity := request.totalQuantity
  state := .draft
  isParent := request.algoType.isSome

variable {request}

/-- Shares that sum to one belong to some leg: the second test never fails. -/
theorem legs_of_check (checked : request.check = .ok ()) : request.legs ≠ [] := by
  intro empty
  simp only [check, empty] at checked
  split at checked <;> cases checked

theorem sum_targetQuantities (nonempty : request.legs ≠ []) :
    request.targetQuantities.sum = request.totalQuantity := by
  rw [targetQuantities, sum_apportion _ _ _ nonempty, sub_zero]

theorem length_createLegs (allocationId : UUID) (legIds : Nat → UUID) :
    (request.createLegs allocationId legIds).length = request.legs.length := by
  simp [createLegs, targetQuantities, length_apportion]

theorem unfilled_createLegs {allocationId : UUID} {legIds : Nat → UUID}
    {leg : AllocationLegRecord} (member : leg ∈ request.createLegs allocationId legIds) :
    leg.filledQuantity = 0 := by
  obtain ⟨i, inside, rfl⟩ := List.mem_mapIdx.mp member
  rfl

end CreateBlockAllocationRequest

/-! ## The block -/

/-- A trade event of the block, and the leg that it was published for: none for
those of the execution order itself. -/
structure BlockTrade where
  leg : Option UUID
  message : Message
  deriving DecidableEq, Repr

namespace BlockTrade

def tradeId (t : BlockTrade) : Option Field := t.message.event.data.get "trade_id"

def quantity (t : BlockTrade) : Decimal :=
  match t.message.event.data.get "quantity" with
  | some (.decimal quantity) => quantity
  | _ => 0

end BlockTrade

/-- The tables, and what has been published for the block so far. -/
structure Block where
  world : World
  allocation : BlockAllocationRecord
  legs : List AllocationLegRecord
  trades : List BlockTrade := []

/-- Where the execution order of a block is. -/
structure Placement where
  fundSlug : String
  orderId : UUID
  deriving DecidableEq, Repr

/-- What `create_block_allocation` draws. -/
structure BlockIds where
  allocation : UUID
  legs : Nat → UUID
  order : UUID

/-- `create_block_allocation` up to the insert of the execution order, of which
there is none when a leg is not approved. -/
def createBlockAllocation (gateway : TradeCheckRequest → Bool) (w : World)
    (request : CreateBlockAllocationRequest) (ids : BlockIds) :
    Except Exc (Block × Option Placement) := do
  request.check
  let legs := request.createLegs ids.allocation ids.legs
  let allocation := request.record ids.allocation
  if ¬ (legs.map (·.id)).Nodup then throw .integrityError
  let checked := legs.map fun leg =>
    { leg with state := if gateway (request.tradeCheck leg) then .approved else .rejected }
  if ¬ ∀ leg ∈ legs, gateway (request.tradeCheck leg) then
    return (⟨w, { allocation with state := .rejected }, checked, []⟩, none)
  match checked.argmax (·.targetQuantity) with
  | none => throw (.valueError "max() iterable argument is empty")
  | some executionLeg =>
    let placed ← w.insert executionLeg.fundSlug (request.executionOrder executionLeg ids.order)
    return (⟨placed, { allocation with state := .approved }, checked, []⟩,
      some ⟨executionLeg.fundSlug, ids.order⟩)

/-! ## `allocate_fills` -/

def allocatedTrade (allocation : BlockAllocationRecord) (leg : AllocationLegRecord)
    (fillQty avgPrice : Decimal) (tradeId : UUID) : Message where
  topic := fundTopic leg.fundSlug "trades.executed"
  event := {
    eventType := if allocation.side.value = "buy" then "trade.buy" else "trade.sell"
    data := [("portfolio_id", .text leg.portfolioId.str),
      ("instrument_id", .text allocation.instrumentId), ("side", .text allocation.side.value),
      ("quantity", .decimal fillQty), ("price", .decimal avgPrice),
      ("trade_id", .text tradeId.str), ("currency", .text "USD"),
      ("block_allocation_id", .text allocation.id.str)]
    fundSlug := some leg.fundSlug }

/-- What one leg gets of the fills, and the `uuid4` of its trade. -/
structure LegFill where
  leg : AllocationLegRecord
  fillQty : Decimal
  tradeId : UUID
  deriving DecidableEq, Repr

def AllocationLegRecord.fill (leg : AllocationLegRecord) (fillQty avgPrice : Decimal) :
    AllocationLegRecord :=
  { leg with filledQuantity := fillQty, avgFillPrice := some avgPrice, state := .allocated }

namespace Block

/-- The row that `allocate_fills` finds of the execution order. -/
def execOrder (b : Block) : Option OrderRecord :=
  b.allocation.executionOrderId.bind fun id =>
    b.allocation.executionFundSlug.bind fun fundSlug => b.world.order fundSlug id

def legFills (b : Block) (totalFilled : Decimal) (draws : List UUID) : List LegFill :=
  (b.legs.zip ((apportion (fun leg : AllocationLegRecord =>
    quantize 8 .halfEven (totalFilled * leg.targetPct)) totalFilled 0 b.legs).zip draws)).map
      fun (leg, fillQty, tradeId) => { leg, fillQty, tradeId }

/-- The body of the second loop of `allocate_fills`. -/
def fillLeg (avgPrice : Decimal) (b : Block) (fill : LegFill) : Block :=
  if fill.fillQty ≤ 0 then b
  else
    let message := allocatedTrade b.allocation fill.leg fill.fillQty avgPrice fill.tradeId
    { b with
      legs := b.legs.map fun leg =>
        if leg.id = fill.leg.id then leg.fill fill.fillQty avgPrice else leg
      world := b.world.publish message
      trades := b.trades ++ [⟨some fill.leg.id, message⟩] }

def allocateFills (b : Block) (draws : List UUID) : Block :=
  match b.execOrder with
  | none => b
  | some execOrder =>
    if execOrder.filledQuantity ≤ 0 then b
    else
      let avgPrice := execOrder.avgFillPrice.getD 0
      let filled := (b.legFills execOrder.filledQuantity draws).foldl (fillLeg avgPrice) b
      { filled with
        allocation := { filled.allocation with
          state := .allocated
          filledQuantity := execOrder.filledQuantity
          avgFillPrice := some avgPrice } }

/-! ## Runs -/

/-- `uuid4` returns no identifier that a trade of the block bears. -/
def New (b : Block) (draws : List UUID) : Prop :=
  draws.Nodup ∧ ∀ draw ∈ draws, ∀ t ∈ b.trades, t.tradeId ≠ some (.text draw.str)

instance (b : Block) (draws : List UUID) : Decidable (b.New draws) :=
  inferInstanceAs (Decidable (_ ∧ _))

end Block

inductive BlockStep where
  /-- The block is linked to its execution order. -/
  | executing
  /-- A fill of the execution order, or of a child of it when it is an algo parent. -/
  | fill (orderId : UUID) (price quantity : Decimal) (brokerId : Option String)
      (filledAt : Option Datetime) (input : Input)
  | createChild (draw : UUID) (quantity : Decimal)
  /-- Any other write to an order: a transition, with what goes with it. -/
  | writeState (fundSlug : String) (orderId : UUID) (state : OrderState)
      (rejectionReason brokerId : Option String)
  | allocateFills (draws : List UUID)

namespace Block

variable (e : Placement)

/-- The fills that the broker sends for the block: an algo parent is not
submitted itself. -/
def Executes (o : OrderRecord) : Prop :=
  (o.id = e.orderId ∧ o.isParent = false) ∨ o.parentOrderId = some e.orderId

instance (o : OrderRecord) : Decidable (Executes e o) := inferInstanceAs (Decidable (_ ∨ _))

def processFill (b : Block) (f : Fill) (input : Input) : Block :=
  let w := (Orders.processFill b.world f input).1
  { b with
    world := w
    trades := b.trades ++ ((w.published.drop b.world.published.length).filter
      (·.topic = fundTopic f.fundSlug "trades.executed")).map fun message => ⟨none, message⟩ }

def step (b : Block) : BlockStep → Option Block
  | .executing =>
    some { b with allocation := { b.allocation with
      state := .executing
      executionFundSlug := some e.fundSlug
      executionOrderId := some e.orderId } }
  | .fill orderId price quantity brokerId filledAt input =>
    match b.world.order e.fundSlug orderId with
    | none => none
    | some order =>
      if Executes e order ∧ b.New [input.draw] then
        some (b.processFill { order, price, quantity, fundSlug := e.fundSlug, brokerId, filledAt }
          input)
      else none
  | .createChild draw quantity =>
    match b.world.order e.fundSlug e.orderId with
    | none => none
    | some parent =>
      if new : parent.isParent ∧ e.orderId ≠ draw then
        match b.world.insert e.fundSlug (childOf parent ⟨e.fundSlug, e.orderId, quantity⟩ draw new.2) with
        | .error _ => none
        | .ok w => some { b with world := w }
      else none
  | .writeState fundSlug orderId state rejectionReason brokerId =>
    some { b with
      world := b.world.updateState fundSlug orderId { state, rejectionReason, brokerId } }
  | .allocateFills draws =>
    if draws.length = b.legs.length ∧ b.New draws then some (b.allocateFills draws) else none

def system : System Block BlockStep where
  step := step e

/-! ## What is conserved -/

/-- The trades of the block by distinct trade id. -/
def distinctTrades (b : Block) : List BlockTrade :=
  b.trades.pwFilter fun s t => s.tradeId ≠ t.tradeId

/-- The shares that the trades of the block have moved. -/
def executedQuantity (b : Block) : Decimal := (b.distinctTrades.map (·.quantity)).sum

/-- The shares of the trades that were published for a leg. -/
def legQuantity (b : Block) (leg : AllocationLegRecord) : Decimal :=
  ((b.distinctTrades.filter (·.leg = some leg.id)).map (·.quantity)).sum

/-- The trades of the block are those of the execution order, and each leg has
been filled with its own. -/
def Conserved (b : Block) : Prop :=
  (∃ order, b.world.order e.fundSlug e.orderId = some order ∧
    b.executedQuantity = order.filledQuantity) ∧
  ∀ leg ∈ b.legs, b.legQuantity leg = leg.filledQuantity

/-- The call finds nothing to allocate. -/
def Unallocated (b : Block) : BlockStep → Prop
  | .allocateFills _ => ∀ order ∈ b.execOrder, order.filledQuantity ≤ 0
  | _ => True

/-- An algo parent takes the state that follows from its children once the fill
has moved one of them. -/
def Taken (b : Block) : BlockStep → Prop
  | .fill orderId price quantity brokerId filledAt _ =>
    ∀ child ∈ b.world.order e.fundSlug orderId, child.parentOrderId = some e.orderId →
      ∀ parent ∈ b.world.order e.fundSlug e.orderId,
        parent.state.Accepts ((b.world.childrenOf e.fundSlug e.orderId).map fun o =>
          if o.id = orderId then
            Fill.targetState ⟨child, price, quantity, e.fundSlug, brokerId, filledAt⟩
          else o.state)
  | _ => True

instance (b : Block) : (label : BlockStep) → Decidable (b.Unallocated label)
  | .allocateFills _ => inferInstanceAs (Decidable (∀ order ∈ b.execOrder, _))
  | .executing | .fill .. | .createChild .. | .writeState .. => inferInstanceAs (Decidable True)

instance (b : Block) : (label : BlockStep) → Decidable (Taken e b label)
  | .fill .. => inferInstanceAs (Decidable (∀ child ∈ b.world.order _ _, _))
  | .executing | .allocateFills _ | .createChild .. | .writeState .. =>
    inferInstanceAs (Decidable True)

end Block

end MiniHedge.Orders
