import MiniHedge.Library.StableSort
import MiniHedge.Library.Sweep
import MiniHedge.MockExchange.OrderBook

/-! The execution of orders against the two dictionaries of a simulated book.

Prices are held in any order, and an order walks a sorted snapshot of the keys while it
consumes the dictionary. Every side of the book that an order leaves is described by
`Executed`; the ladders of `SimulatedOrderBook` are what the dictionaries represent.
Times are left out.
-/

set_option autoImplicit false

namespace MiniHedge.MockExchange

open MiniHedge.Python MiniHedge.Library

inductive Aggressor where
  | buyer
  | seller
  deriving DecidableEq, Repr

structure BookTick where
  instrumentId : String
  price : Decimal
  quantity : ℤ
  side : Side
  isAmbient : Bool := false
  aggressor : Aggressor
  deriving DecidableEq, Repr

/-- `{price: quantity}` for each side; the tick size is not zero where a price is rounded. -/
structure PriceBook where
  instrumentId : String
  tickSize : Decimal
  bids : Dict Decimal ℤ
  asks : Dict Decimal ℤ

namespace PriceBook

variable (b : PriceBook)

def roundPrice (price : Decimal) : Decimal := roundToTick b.tickSize price

def addLiquidity (side : Side) (price : Decimal) (quantity : ℤ) : PriceBook :=
  let price := b.roundPrice price
  match side with
  | .buy => { b with bids := b.bids.set price (b.bids.depth price + quantity) }
  | .sell => { b with asks := b.asks.set price (b.asks.depth price + quantity) }

/-- The dictionary that an order of the side consumes. -/
def opposite (side : Side) : Dict Decimal ℤ :=
  match side with
  | .buy => b.asks
  | .sell => b.bids

/-- The dictionary in which an order of the side rests. -/
def own (side : Side) : Dict Decimal ℤ :=
  match side with
  | .buy => b.bids
  | .sell => b.asks

def withOpposite (side : Side) (levels : Dict Decimal ℤ) : PriceBook :=
  match side with
  | .buy => { b with asks := levels }
  | .sell => { b with bids := levels }

/-- `sorted(book.keys())`, in reverse for a sell order. -/
def priceSort (side : Side) (levels : Dict Decimal ℤ) : List Decimal :=
  match side with
  | .buy => sortOn id levels.keys
  | .sell => sortOn OrderDual.toDual levels.keys

def tick (side : Side) (level : Decimal × ℤ) : BookTick where
  instrumentId := b.instrumentId
  price := level.1
  quantity := level.2
  side := side
  aggressor := match side with | .buy => .buyer | .sell => .seller

def executeMarketOrder (side : Side) (quantity : ℤ) : List BookTick × PriceBook :=
  let book := b.opposite side
  let swept := sweep (fun _ => false) (priceSort side book) book quantity
  (swept.taken.map (b.tick side), b.withOpposite side swept.left)

def executeLimitOrder (side : Side) (price : Decimal) (quantity : ℤ) :
    List BookTick × ℤ × PriceBook :=
  let price := b.roundPrice price
  let book := b.opposite side
  let swept := sweep (SimulatedOrderBook.worse side price) (priceSort side book) book quantity
  let left := b.withOpposite side swept.left
  (swept.taken.map (b.tick side), swept.remaining,
    if 0 < swept.remaining then left.addLiquidity side price swept.remaining else left)

/-! ## What an execution leaves -/

def LevelsPositive : Prop := b.bids.Positive ∧ b.asks.Positive

instance : Decidable b.LevelsPositive := inferInstanceAs (Decidable (_ ∧ _))

/-- An order of the side would rather trade at the first price than at the second. -/
def Better (side : Side) (p q : Decimal) : Prop :=
  match side with
  | .buy => p < q
  | .sell => q < p

/-- What the ticks at a price come to. -/
def tickTotal (ticks : List BookTick) (price : Decimal) : ℤ := totalOf (·.price) (·.quantity) price ticks

/-- Ticks of an order that leave so much unfilled, on the way from one state of the dictionary to
another; the order may trade at the prices `within` its limit alone. -/
structure Executed (side : Side) (quantity : ℤ) (within : Decimal → Prop) (before : Dict Decimal ℤ)
    (ticks : List BookTick) (unfilled : ℤ) (after : Dict Decimal ℤ) : Prop where
  some_each : ∀ t ∈ ticks, 0 < t.quantity
  whole : (ticks.map (·.quantity)).sum + unfilled = quantity
  unfilled_nonneg : 0 ≤ unfilled
  depth : ∀ price, after.depth price = before.depth price - tickTotal ticks price
  bestFirst : ticks.Pairwise fun s t => Better side s.price t.price
  noneBetter : ∀ t ∈ ticks, ∀ price, Better side price t.price → price ∉ after.keys
  within_limit : ∀ t ∈ ticks, within t.price
  exhausted : 0 < unfilled → ∀ price ∈ after.keys, ¬ within price
  levels : after.Positive

theorem Better.asymm {side : Side} (p q : Decimal) (better : Better side p q) : ¬ Better side q p := by
  cases side with
  | buy => exact lt_asymm (α := Decimal) better
  | sell => exact lt_asymm (α := Decimal) better

theorem mem_priceSort {side : Side} {levels : Dict Decimal ℤ} {price : Decimal} :
    price ∈ priceSort side levels ↔ price ∈ levels.keys := by
  cases side with
  | buy => exact mem_sortOn _
  | sell => exact mem_sortOn _

theorem priceSort_ordered (side : Side) (levels : Dict Decimal ℤ) :
    (priceSort side levels).Pairwise (Better side) := by
  have distinct : levels.keys.Pairwise (· ≠ ·) := levels.distinct
  cases side with
  | buy =>
    apply (sortOn_pairwise id distinct).imp
    rintro p q (less | ⟨same, other⟩)
    · exact less
    · exact absurd same other
  | sell =>
    apply (sortOn_pairwise OrderDual.toDual distinct).imp
    rintro p q (less | ⟨same, other⟩)
    · exact less
    · exact absurd same other

theorem executed_sweep (side : Side) {levels : Dict Decimal ℤ} (positive : levels.Positive)
    {stops : Decimal → Bool} (worse : SimulatedOrderBook.StopsWorse side stops) {quantity : ℤ}
    (some_asked : 0 < quantity) :
    Executed side quantity (fun price => ¬ stops price) levels
      ((sweep stops (priceSort side levels) levels quantity).taken.map (b.tick side))
      (sweep stops (priceSort side levels) levels quantity).remaining
      (sweep stops (priceSort side levels) levels quantity).left := by
  have ordered := priceSort_ordered side levels
  have distinct : (priceSort side levels).Nodup := by
    apply ordered.imp
    rintro p q better rfl
    exact Better.asymm p p better better
  have held : ∀ price ∈ priceSort side levels, price ∈ levels.keys := fun _ => mem_priceSort.mp
  have beyond : (priceSort side levels).Pairwise fun p q => stops p → stops q := by
    apply ordered.imp
    intro p q better
    apply worse
    cases side with
    | buy => exact le_of_lt (α := Decimal) better
    | sell => exact le_of_lt (α := Decimal) better
  -- a price that is held afterwards has been there all along
  have kept : ∀ {price}, price ∈ (sweep stops (priceSort side levels) levels quantity).left.keys →
      price ∈ priceSort side levels := by
    intro price inside
    by_contra other
    rw [Dict.mem_keys, sweep_frame other, ← Dict.mem_keys, ← mem_priceSort] at inside
    exact other inside
  constructor
  case some_each =>
    rw [List.forall_mem_map]
    exact sweep_positive quantity positive distinct held
  case whole =>
    rw [List.map_map]
    exact sweep_sum _ _ _
  case unfilled_nonneg => exact sweep_remaining some_asked.le
  case depth =>
    intro price
    rw [sweep_depth, tickTotal, totalOf, totalOf, List.filter_map, List.map_map]
    rfl
  case bestFirst =>
    rw [List.pairwise_map]
    exact List.pairwise_map.mp (ordered.sublist (sweep_prices _ _ _))
  case noneBetter =>
    rw [List.forall_mem_map]
    intro level taken price better inside
    exact sweep_best quantity positive distinct held Better.asymm ordered (kept inside) level taken
      better inside
  case within_limit =>
    rw [List.forall_mem_map]
    exact sweep_within _ _ _
  case exhausted =>
    intro unfilled price inside going
    exact sweep_exhausts quantity positive distinct held beyond (kept inside) going unfilled inside
  case levels => exact sweep_left positive quantity

/-! ## The book after an order -/

theorem withOpposite_opposite (side : Side) (levels : Dict Decimal ℤ) :
    (b.withOpposite side levels).opposite side = levels := by
  cases side <;> rfl

theorem withOpposite_own (side : Side) (levels : Dict Decimal ℤ) :
    (b.withOpposite side levels).own side = b.own side := by
  cases side <;> rfl

theorem addLiquidity_opposite (side : Side) (price : Decimal) (quantity : ℤ) :
    (b.addLiquidity side price quantity).opposite side = b.opposite side := by
  cases side <;> rfl

theorem addLiquidity_own (side : Side) (price : Decimal) (quantity : ℤ) :
    (b.addLiquidity side price quantity).own side =
      (b.own side).set (b.roundPrice price) ((b.own side).depth (b.roundPrice price) + quantity) := by
  cases side <;> rfl

/-- A rounded price is rounded to itself. -/
theorem roundPrice_roundPrice (price : Decimal) : b.roundPrice (b.roundPrice price) = b.roundPrice price := by
  unfold roundPrice roundToTick
  by_cases tick : b.tickSize = 0
  · simp [tick]
  · rw [mul_div_cancel_right₀ _ tick]
    have grid : OnGrid 0 (quantize 0 .halfUp (price / b.tickSize)) := onGrid_quantize 0 _ _
    rw [show quantize 0 .halfUp (quantize 0 .halfUp (price / b.tickSize)) = _ from grid.numeric_eq]

variable {b}

theorem LevelsPositive.opposite (positive : b.LevelsPositive) (side : Side) :
    (b.opposite side).Positive := by
  cases side with
  | buy => exact positive.2
  | sell => exact positive.1

theorem LevelsPositive.own (positive : b.LevelsPositive) (side : Side) : (b.own side).Positive := by
  cases side with
  | buy => exact positive.1
  | sell => exact positive.2

theorem worse_iff {side : Side} {limit price : Decimal} :
    SimulatedOrderBook.worse side limit price ↔ Better side limit price := by
  cases side <;> simp [SimulatedOrderBook.worse, Better]

theorem executed_limitOrder (positive : b.LevelsPositive) (side : Side) (price : Decimal)
    {quantity : ℤ} (some_asked : 0 < quantity) :
    Executed side quantity (fun p => ¬ Better side (b.roundPrice price) p) (b.opposite side)
      (b.executeLimitOrder side price quantity).1 (b.executeLimitOrder side price quantity).2.1
      ((b.executeLimitOrder side price quantity).2.2.opposite side) := by
  have swept := executed_sweep b side (positive.opposite side)
    (SimulatedOrderBook.worse_stops side (b.roundPrice price)) some_asked
  simp only [worse_iff] at swept
  have opposite : (b.executeLimitOrder side price quantity).2.2.opposite side =
      (sweep (SimulatedOrderBook.worse side (b.roundPrice price)) (priceSort side (b.opposite side))
        (b.opposite side) quantity).left := by
    unfold executeLimitOrder
    dsimp only
    split
    · rw [addLiquidity_opposite, withOpposite_opposite]
    · rw [withOpposite_opposite]
  rw [opposite]
  exact swept

theorem executed_marketOrder (positive : b.LevelsPositive) (side : Side) {quantity : ℤ}
    (some_asked : 0 < quantity) :
    ∃ unfilled, Executed side quantity (fun _ => True) (b.opposite side)
      (b.executeMarketOrder side quantity).1 unfilled
      ((b.executeMarketOrder side quantity).2.opposite side) := by
  have never : SimulatedOrderBook.StopsWorse side fun _ => false := fun _ _ _ stop => nomatch stop
  have swept := executed_sweep b side (positive.opposite side) never some_asked
  simp only [Bool.false_eq_true, not_false_eq_true] at swept
  unfold executeMarketOrder
  dsimp only
  rw [withOpposite_opposite]
  exact ⟨_, swept⟩

/-- What a limit order leaves unfilled rests at its rounded price, and nothing else is added. -/
theorem limitOrder_own (side : Side) (price : Decimal) (quantity : ℤ) :
    (b.executeLimitOrder side price quantity).2.2.own side =
      if 0 < (b.executeLimitOrder side price quantity).2.1 then
        (b.own side).set (b.roundPrice price)
          ((b.own side).depth (b.roundPrice price) + (b.executeLimitOrder side price quantity).2.1)
      else b.own side := by
  unfold executeLimitOrder
  dsimp only
  split
  · -- the remainder is rounded again where it is added
    have round : ∀ levels, (b.withOpposite side levels).roundPrice (b.roundPrice price) =
        b.roundPrice price := by
      intro levels
      refine Eq.trans ?_ (b.roundPrice_roundPrice price)
      cases side <;> rfl
    rw [addLiquidity_own, withOpposite_own, round]
  · rw [withOpposite_own]

/-- Both kinds of orders are executed soundly against every book. -/
theorem execution_sound (b : PriceBook) (positive : b.LevelsPositive) (side : Side) (quantity : ℤ)
    (some_asked : 0 < quantity) :
    ((∃ unfilled, Executed side quantity (fun _ => True) (b.opposite side)
        (b.executeMarketOrder side quantity).1 unfilled
        ((b.executeMarketOrder side quantity).2.opposite side)) ∧
      (b.executeMarketOrder side quantity).2.own side = b.own side) ∧
    ∀ price,
      Executed side quantity (fun p => ¬ Better side (b.roundPrice price) p) (b.opposite side)
        (b.executeLimitOrder side price quantity).1 (b.executeLimitOrder side price quantity).2.1
        ((b.executeLimitOrder side price quantity).2.2.opposite side) ∧
      (∀ p, ((b.executeLimitOrder side price quantity).2.2.own side).depth p =
        (b.own side).depth p +
          if p = b.roundPrice price then (b.executeLimitOrder side price quantity).2.1 else 0) ∧
      ((b.executeLimitOrder side price quantity).2.2.own side).Positive := by
  refine ⟨⟨executed_marketOrder positive side some_asked, ?_⟩, fun price => ?_⟩
  · rw [executeMarketOrder, withOpposite_own]
  · have executed := executed_limitOrder positive side price some_asked
    have own := positive.own side
    refine ⟨executed, fun p => ?_, ?_⟩
    · rw [limitOrder_own]
      split
      · simp only [Dict.depth, Dict.get?_set]
        by_cases same : p = b.roundPrice price
        · simp [same]
        · simp [same]
      · -- nothing is left, and nothing rests
        have none : (b.executeLimitOrder side price quantity).2.1 = 0 :=
          le_antisymm (not_lt.mp ‹_›) executed.unfilled_nonneg
        simp [none]
    · rw [limitOrder_own]
      split
      · rename_i rests
        apply own.set
        have held := own.depth_nonneg (b.roundPrice price)
        omega
      · exact own

/-- A book with two levels on a side, of which a limit order reaches the first. -/
def twoLevels : PriceBook where
  instrumentId := "AAPL"
  tickSize := 1 / 100
  bids := ⟨[(99, 40)], by decide⟩
  asks := ⟨[(102, 50), (101, 30)], by decide +kernel⟩

theorem execution_sound_twoLevels :
    (twoLevels.executeLimitOrder .buy 101 100).2.1 = 70 ∧
      Executed .buy 100 (fun p => ¬ Better .buy (twoLevels.roundPrice 101) p) (twoLevels.opposite .buy)
        (twoLevels.executeLimitOrder .buy 101 100).1 (twoLevels.executeLimitOrder .buy 101 100).2.1
        ((twoLevels.executeLimitOrder .buy 101 100).2.2.opposite .buy) :=
  ⟨by decide +kernel, ((execution_sound twoLevels (by decide) .buy 100 (by decide)).2 101).1⟩

end PriceBook

end MiniHedge.MockExchange
