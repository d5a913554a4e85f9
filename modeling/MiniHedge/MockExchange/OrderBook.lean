import MiniHedge.Library.Ladder
import MiniHedge.Python.Decimal

/-! The simulated order book of one instrument.

A side is kept in the order in which it is walked, best price first, and nothing
depends on the order of the dictionaries. The levels that the book makes, those of
the ambient flow and what a limit order leaves resting are never empty. The spread
in basis points, a product of floats, is given; times are left out.
-/

set_option autoImplicit false

namespace MiniHedge.MockExchange

open MiniHedge.Python MiniHedge.Library

inductive Side where
  | buy
  | sell
  deriving DecidableEq, Repr

structure TradeTick where
  instrumentId : String
  price : Decimal
  quantity : ℕ
  side : Side
  deriving DecidableEq, Repr

/-- The nearest multiple of the tick size, which is not zero where a price is rounded. -/
def roundToTick (tickSize price : Decimal) : Decimal := quantize 0 .halfUp (price / tickSize) * tickSize

/-- Bids are ordered from the highest price down. -/
structure SimulatedOrderBook where
  instrumentId : String
  tickSize : Decimal
  spreadBps : Decimal
  baseDepth : ℕ
  someDepth : 0 < baseDepth
  bids : Ladder Decimalᵒᵈ := .empty
  asks : Ladder Decimal := .empty
  mid : Decimal := 100

namespace SimulatedOrderBook

variable (b : SimulatedOrderBook)

def roundPrice (price : Decimal) : Decimal := roundToTick b.tickSize price

def calculateSpread : Decimal := b.roundPrice (b.mid * (b.spreadBps / 10000))

def updateMid (newMid : Decimal) : SimulatedOrderBook :=
  let b := { b with mid := newMid }
  let halfSpread := b.calculateSpread / 2
  let newBestBid := b.roundPrice (newMid - halfSpread)
  let newBestAsk := b.roundPrice (newMid + halfSpread)
  let depthRange := b.tickSize * 20
  let bids := b.bids.filter fun p =>
    OrderDual.ofDual p ≤ newBestBid ∧ newBestBid - depthRange ≤ OrderDual.ofDual p
  let asks := b.asks.filter fun p => newBestAsk ≤ p ∧ p ≤ newBestAsk + depthRange
  { b with
    bids := if .toDual newBestBid ∈ bids.levels.map (·.1) then bids
      else bids.add (.toDual newBestBid) b.baseDepth b.someDepth
    asks := if newBestAsk ∈ asks.levels.map (·.1) then asks
      else asks.add newBestAsk b.baseDepth b.someDepth }

def addLiquidity (side : Side) (price : Decimal) (quantity : ℕ) (some_more : 0 < quantity) :
    SimulatedOrderBook :=
  match side with
  | .buy => { b with bids := b.bids.add (.toDual (b.roundPrice price)) quantity some_more }
  | .sell => { b with asks := b.asks.add (b.roundPrice price) quantity some_more }

/-- The loop that both kinds of order go through. A quantity that is not positive takes nothing. -/
def take (side : Side) (stops : Decimal → Bool) (quantity : Int) :
    List TradeTick × SimulatedOrderBook :=
  match side with
  | .buy =>
    ((walk stops quantity.toNat b.asks.levels).taken.map fun (price, filled) =>
        ⟨b.instrumentId, price, filled, side⟩,
      { b with asks := b.asks.after stops quantity.toNat })
  | .sell =>
    let stops := fun p => stops (OrderDual.ofDual p)
    ((walk stops quantity.toNat b.bids.levels).taken.map fun (price, filled) =>
        ⟨b.instrumentId, OrderDual.ofDual price, filled, side⟩,
      { b with bids := b.bids.after stops quantity.toNat })

def executeMarketOrder (side : Side) (quantity : Int) : List TradeTick × SimulatedOrderBook :=
  b.take side (fun _ => false) quantity

/-- The price at which an order with that limit stops, is worse than the limit. -/
def worse (side : Side) (limit price : Decimal) : Bool :=
  match side with
  | .buy => limit < price
  | .sell => price < limit

def executeLimitOrder (side : Side) (price : Decimal) (quantity : Int) :
    List TradeTick × Int × SimulatedOrderBook :=
  let price := b.roundPrice price
  let (ticks, left) := b.take side (worse side price) quantity
  let remaining := quantity - (ticks.map (·.quantity)).sum
  -- what does not cross the spread rests on the order's own side
  if rests : 0 < remaining then
    (ticks, remaining, left.addLiquidity side price remaining.toNat (by omega))
  else (ticks, remaining, left)

/-! ## What is on offer, and what is taken of it -/

/-- The units that an order of the side can take, the best of them first. -/
def offered (side : Side) : List Decimal :=
  match side with
  | .buy => units b.asks.levels
  | .sell => (units b.bids.levels).map OrderDual.ofDual

/-- The units at which ticks were executed. -/
def executed (ticks : List TradeTick) : List Decimal := units (ticks.map fun t => (t.price, t.quantity))

theorem length_executed (ticks : List TradeTick) :
    (executed ticks).length = (ticks.map (·.quantity)).sum := by
  simp [executed, Function.comp_def]

theorem sum_executed (ticks : List TradeTick) :
    (executed ticks).sum = (ticks.map fun t => t.price * (t.quantity : ℚ)).sum := by
  simp [executed, sum_units, Function.comp_def]

/-- What stops an order stops it at every worse price. -/
def StopsWorse (side : Side) (stops : Decimal → Bool) : Prop :=
  ∀ p q, (match side with | .buy => p ≤ q | .sell => q ≤ p) → stops p → stops q

theorem worse_stops (side : Side) (limit : Decimal) : StopsWorse side (worse side limit) := by
  intro p q order beyond
  cases side with
  | buy => exact decide_eq_true ((of_decide_eq_true beyond).trans_le order)
  | sell => exact decide_eq_true (lt_of_le_of_lt order (of_decide_eq_true beyond))

theorem executed_take {side : Side} {stops : Decimal → Bool} (worse : StopsWorse side stops)
    (quantity : Int) :
    executed (b.take side stops quantity).1 =
      ((b.offered side).filter fun price => !stops price).take quantity.toNat := by
  cases side with
  | buy =>
    rw [offered, ← b.asks.units_walk worse]
    simp [executed, take, Function.comp_def]
  | sell =>
    have beyond : ∀ p q : Decimalᵒᵈ, p ≤ q → stops (OrderDual.ofDual p) → stops (OrderDual.ofDual q) :=
      fun _ _ order => worse _ _ order
    simp only [executed, take, offered, List.map_map, Function.comp_def]
    rw [units_map, b.bids.units_walk beyond, List.map_take, List.filter_map]
    rfl

theorem ticks_positive {side : Side} {stops : Decimal → Bool} {quantity : Int} :
    ∀ t ∈ (b.take side stops quantity).1, 0 < t.quantity := by
  cases side with
  | buy =>
    intro t member
    obtain ⟨level, inside, rfl⟩ := List.mem_map.mp member
    exact taken_positive b.asks.positive level inside
  | sell =>
    intro t member
    obtain ⟨level, inside, rfl⟩ := List.mem_map.mp member
    exact taken_positive b.bids.positive level inside

theorem executed_eq_nil {ticks : List TradeTick} (positive : ∀ t ∈ ticks, 0 < t.quantity) :
    executed ticks = [] ↔ ticks = [] := by
  rw [executed, units_eq_nil, List.map_eq_nil_iff]
  intro level member
  obtain ⟨t, inside, rfl⟩ := List.mem_map.mp member
  exact positive t inside

theorem executed_marketOrder (side : Side) (quantity : Int) :
    executed (b.executeMarketOrder side quantity).1 = (b.offered side).take quantity.toNat := by
  have never : StopsWorse side fun _ => false := by
    intro p q _ stop
    cases stop
  rw [executeMarketOrder, executed_take b never]
  simp

theorem limitOrder_ticks (side : Side) (price : Decimal) (quantity : Int) :
    (b.executeLimitOrder side price quantity).1 =
      (b.take side (worse side (b.roundPrice price)) quantity).1 := by
  unfold executeLimitOrder
  dsimp only
  split <;> rfl

theorem executed_limitOrder (side : Side) (price : Decimal) (quantity : Int) :
    executed (b.executeLimitOrder side price quantity).1 =
      ((b.offered side).filter fun p => !worse side (b.roundPrice price) p).take quantity.toNat := by
  rw [limitOrder_ticks, executed_take b (worse_stops side _)]

end SimulatedOrderBook

end MiniHedge.MockExchange
