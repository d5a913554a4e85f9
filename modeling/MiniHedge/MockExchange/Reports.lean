import MiniHedge.MockExchange.Engine

/-! Whether the fill that the exchange reports is the one that its book made.

The quantity is settled before the book is walked, and the book may hold less of
it, or none at the limit; the price is rounded and marked up after the walk. Taken
together the units on offer say what a walk executes, and so when a report is true.
-/

set_option autoImplicit false

namespace MiniHedge.MockExchange

open MiniHedge.Python MiniHedge.Library

/-! ## What is to hold -/

def Side.NoWorse : Side → Decimal → Decimal → Prop
  | .buy, limit, price => price ≤ limit
  | .sell, limit, price => limit ≤ price

instance (side : Side) (limit price : Decimal) : Decidable (side.NoWorse limit price) :=
  match side with
  | .buy => inferInstanceAs (Decidable (price ≤ limit))
  | .sell => inferInstanceAs (Decidable (limit ≤ price))

/-- A limit order does better than some price, or as well. A market order has no limit. -/
def OrderState.KeepsLimit (order : OrderState) (price : Decimal) : Prop :=
  order.orderType = .limit → ∀ limit ∈ order.limitPrice, order.side.NoWorse limit price

instance (order : OrderState) (price : Decimal) : Decidable (order.KeepsLimit price) :=
  inferInstanceAs (Decidable (_ → _))

structure Truthful (order : OrderState) (f : Filled) : Prop where
  quantity : f.report.fillQuantity = (f.ticks.map (·.quantity)).sum
  covered : f.report.status = .filled → order.quantity ≤ (f.ticks.map (·.quantity)).sum
  price : order.KeepsLimit f.report.fillPrice

/-! ## The condition -/

/-- The units that the order can take, the best of them first. -/
def available (order : OrderState) : Option SimulatedOrderBook → List Decimal
  | none => []
  | some book =>
    match order.orderType, order.limitPrice with
    | .limit, some limit =>
      (book.offered order.side).filter fun price =>
        !SimulatedOrderBook.worse order.side (book.roundPrice limit) price
    | _, _ => book.offered order.side

/-- A number rounds to more than n units, with a tie to the even one. -/
def RoundsAbove (x : ℚ) (n : ℤ) : Prop := n + 1 / 2 < x ∨ x = n + 1 / 2 ∧ n % 2 ≠ 0

instance (x : ℚ) (n : ℤ) : Decidable (RoundsAbove x n) := inferInstanceAs (Decidable (_ ∨ _))

namespace ExecutionEngine

variable (engine : ExecutionEngine) (order : OrderState)

/-- How often the broker fills all of an order. -/
def fillRate : ℚ :=
  match engine.brokers order.brokerId with
  | some profile => profile.fillRate
  | none => double (1 - engine.config.partialFillRate)

/-- How many units the broker takes part with, where the volume of the instrument is known. -/
def participationLimit : Option ℤ :=
  match engine.brokers order.brokerId, engine.instruments order.instrumentId with
  | some profile, some instrument =>
    if 0 < instrument.avgDailyVolume then
      some (toInt (double (profile.maxParticipationRate * instrument.avgDailyVolume)))
    else none
  | _, _ => none

/-- What the broker charges on top of a price, as a share of it. -/
def markup (instrumentId : String) : Option Decimal :=
  (engine.brokers order.brokerId).bind fun profile =>
    if profile.spreadMarkupBps = 0 then none
    else
      let bonus := match engine.instruments instrumentId with
        | some instrument =>
          if instrument.sector ∈ profile.sectorSpecializations then profile.specializationBonusBps else 0
        | none => 0
      some (order.side.direction * (profile.spreadMarkupBps - bonus) / 10000)

/-- So many units are to be filled: all of an order for whole units, or the share that is drawn, to
the nearest unit and one at least; and no more than the broker takes part with. -/
inductive Works (w : Wake) (n : ℕ) : Prop where
  | whole : w.draw ≤ engine.fillRate order → order.quantity = n →
      (∀ most ∈ engine.participationLimit order, (n : ℤ) ≤ most) → Works w n
  | share : engine.fillRate order < w.draw → 1 ≤ n → ¬ RoundsAbove (order.quantity * w.share) n →
      (n = 1 ∨ RoundsAbove (order.quantity * w.share) (n - 1)) →
      (∀ most ∈ engine.participationLimit order, (n : ℤ) ≤ most) → Works w n
  | limited : engine.participationLimit order = some (n : ℤ) →
      (w.draw ≤ engine.fillRate order → (n : ℚ) < order.quantity) →
      (engine.fillRate order < w.draw → n = 0 ∨ RoundsAbove (order.quantity * w.share) n) → Works w n

/-- What rounding to four places, the markup and rounding again add to an average price. -/
def addedTo (instrumentId : String) (average : Decimal) : Decimal :=
  let rounded := average + roundingError (average * 10 ^ 4) / 10 ^ 4
  rounded - average +
    match engine.markup order instrumentId with
    | none => 0
    | some share => share * rounded + roundingError (rounded * (1 + share) * 10 ^ 4) / 10 ^ 4

/-- For a limit order: what is added to the average of the best so many prices is no more than they
are better than the limit. Of no units, the mid of the book is within the limit; and without a book
the slippage takes a price to its better side. -/
def LeavesRoom (book : Option SimulatedOrderBook) (w : Wake) (n : ℕ) : Prop :=
  order.orderType = .limit → ∀ limit ∈ order.limitPrice,
    match book with
    | none =>
      order.side.direction *
        (limit * w.slippage + roundingError (limit * (1 + w.slippage) * 10 ^ 2) / 10 ^ 2) ≤ 0
    | some b =>
      if n = 0 then order.side.direction * (b.mid - limit) ≤ 0
      else
        let average := ((available order book).take n).sum / n
        order.side.direction * engine.addedTo order b.instrumentId average ≤
          order.side.direction * (limit - average)

end ExecutionEngine

/-- The units that are to be filled are offered to the order, and their prices leave room for what
is added. -/
def Covers (engine : ExecutionEngine) (order : OrderState) (book : Option SimulatedOrderBook)
    (w : Wake) : Prop :=
  ∃ n : ℕ, engine.Works order w n ∧ n ≤ (available order book).length ∧ engine.LeavesRoom order book w n

/-! ## What is executed -/

/-- The price of a fill that takes those units. -/
def priceOf (engine : ExecutionEngine) (order : OrderState) (book : Option SimulatedOrderBook)
    (w : Wake) (taken : List Decimal) : Decimal :=
  match book with
  | none => fallbackPrice order w
  | some book =>
    if taken = [] then book.mid
    else engine.markedUp book.instrumentId order.side (engine.brokers order.brokerId)
      (quantize 4 .halfEven (taken.sum / taken.length))

section Execution

open SimulatedOrderBook

variable (engine : ExecutionEngine) (order : OrderState) (w : Wake)

/-- What becomes of the ticks of either kind of order. -/
theorem ticks_price (book left : SimulatedOrderBook) {ticks : List TradeTick} {taken : List Decimal}
    (positive : ∀ t ∈ ticks, 0 < t.quantity) (same : executed ticks = taken) :
    let traded := if ticks = [] then (book.mid, [], left)
      else (engine.markedUp book.instrumentId order.side (engine.brokers order.brokerId)
        (quantize 4 .halfEven ((ticks.map fun t => t.price * (t.quantity : ℚ)).sum /
          (((ticks.map (·.quantity)).sum : ℕ) : ℚ))), ticks, left)
    executed traded.2.1 = taken ∧ traded.1 = priceOf engine order (some book) w taken := by
  subst same
  have none_taken := executed_eq_nil positive
  dsimp only
  split
  · rename_i empty
    subst empty
    exact ⟨rfl, rfl⟩
  · rename_i some_ticks
    refine ⟨rfl, ?_⟩
    rw [priceOf, if_neg (none_taken.not.mpr some_ticks), sum_executed, length_executed]

theorem executeViaBook_eq (book : SimulatedOrderBook) (quantity : Decimal) :
    let traded := engine.executeViaBook book order quantity
    executed traded.2.1 = (available order (some book)).take (toInt quantity).toNat ∧
      traded.1 = priceOf engine order (some book) w
        ((available order (some book)).take (toInt quantity).toNat) := by
  have market := ticks_price engine order w book
    (book.executeMarketOrder order.side (toInt quantity)).2 (ticks_positive book)
    (executed_marketOrder book order.side (toInt quantity))
  unfold ExecutionEngine.executeViaBook available
  cases order.orderType with
  | market => exact market
  | limit =>
    cases order.limitPrice with
    | none => exact market
    | some limit =>
      have positive : ∀ t ∈ (book.executeLimitOrder order.side limit (toInt quantity)).1, 0 < t.quantity := by
        rw [limitOrder_ticks]
        exact ticks_positive book
      exact ticks_price engine order w book (book.executeLimitOrder order.side limit (toInt quantity)).2.2
        positive (executed_limitOrder book order.side limit (toInt quantity))

/-- The fill of a task: its quantity is the one that the broker works, whatever is executed. -/
theorem doFill_report (book : Option SimulatedOrderBook) :
    let f := engine.doFill order book w
    f.report.fillQuantity = engine.fillQuantity order w ∧
      executed f.ticks = (available order book).take (toInt (engine.fillQuantity order w)).toNat ∧
      f.report.fillPrice = priceOf engine order book w
        ((available order book).take (toInt (engine.fillQuantity order w)).toNat) := by
  cases book with
  | none => simp [ExecutionEngine.doFill, priceOf, available, executed]
  | some book =>
    obtain ⟨ticks, price⟩ := executeViaBook_eq engine order w book (engine.fillQuantity order w)
    exact ⟨rfl, ticks, price⟩

/-- The first fill of an order fills it if its quantity is all of the order's. -/
theorem doFill_status (book : Option SimulatedOrderBook) (unfilled : order.fills = []) :
    (engine.doFill order book w).report.status = .filled ↔
      order.quantity ≤ engine.fillQuantity order w := by
  simp only [ExecutionEngine.doFill, OrderState.filledQuantity, unfilled, List.nil_append,
    List.map_singleton, List.sum_singleton]
  split <;> simp_all

end Execution

theorem toInt_natCast (n : ℕ) : toInt n = n := by
  have nonneg : ¬ (n : ℚ) < 0 := not_lt.mpr n.cast_nonneg
  rw [toInt, if_neg nonneg]
  exact Int.floor_natCast (R := ℚ) n

/-! ## What is to be filled -/

theorem lt_round_iff (x : ℚ) (n : ℤ) : n < Rounding.halfEven.round x ↔ RoundsAbove x n := by
  have below : (x.floor : ℚ) ≤ x := Int.floor_le x
  have above : x < x.floor + 1 := Int.lt_floor_add_one x
  have cast_lt : ∀ {a b : ℤ}, a < b → (a : ℚ) + 1 ≤ b := fun less => by exact_mod_cast less
  have cast_le : ∀ {a b : ℤ}, a ≤ b → (a : ℚ) ≤ b := fun le => by exact_mod_cast le
  unfold Rounding.round RoundsAbove
  rcases lt_trichotomy n x.floor with less | rfl | more
  · -- whichever way it is rounded
    have next := cast_lt less
    have exceeds : (n : ℚ) + 1 / 2 < x := by linarith
    simp only [exceeds, true_or, iff_true]
    have rounded := (floor_le_round .halfEven x).1
    unfold Rounding.round at rounded
    exact less.trans_le rounded
  · rcases lt_trichotomy (x - x.floor) (1 / 2) with small | tie | large
    · rw [if_pos small]
      refine iff_of_false (lt_irrefl _) ?_
      rintro (exceeds | ⟨same, -⟩)
      · linarith
      · linarith
    · have same : x = x.floor + 1 / 2 := by linarith
      rw [if_neg (not_lt.mpr tie.ge), if_neg (not_lt.mpr tie.le)]
      unfold Rounding.tie
      dsimp only
      split
      · rename_i even
        refine iff_of_false (lt_irrefl _) ?_
        rintro (exceeds | ⟨-, odd⟩)
        · linarith
        · exact odd even
      · rename_i odd
        exact iff_of_true (Int.lt_succ _) (.inr ⟨same, odd⟩)
    · rw [if_neg (not_lt.mpr large.le), if_pos large]
      exact iff_of_true (Int.lt_succ _) (.inl (by linarith))
  · have next := cast_le (Int.add_one_le_of_lt more)
    push_cast at next
    have under : x < n + 1 / 2 := by linarith
    simp only [not_lt.mpr under.le, under.ne, false_and, or_self, iff_false, not_lt]
    have rounded := (floor_le_round .halfEven x).2
    unfold Rounding.round at rounded
    omega

theorem asked_iff (x : ℚ) (n : ℕ) : max (quantize 0 .halfEven x) 1 = n ↔
    1 ≤ n ∧ ¬ RoundsAbove x n ∧ (n = 1 ∨ RoundsAbove x (n - 1)) := by
  have units : quantize 0 .halfEven x = Rounding.halfEven.round x := by simp [quantize]
  rw [units, ← lt_round_iff, ← lt_round_iff, not_lt]
  have whole : max (Rounding.halfEven.round x : ℚ) 1 = ((max (Rounding.halfEven.round x) 1 : ℤ) : ℚ) := by
    push_cast
    rfl
  rw [whole]
  constructor
  · intro same
    have same : max (Rounding.halfEven.round x) 1 = (n : ℤ) := by exact_mod_cast same
    omega
  · intro same
    have same : max (Rounding.halfEven.round x) 1 = (n : ℤ) := by omega
    exact_mod_cast same

theorem lt_asked_iff (x : ℚ) (n : ℕ) : (n : ℚ) < max (quantize 0 .halfEven x) 1 ↔ n = 0 ∨ RoundsAbove x n := by
  have units : quantize 0 .halfEven x = Rounding.halfEven.round x := by simp [quantize]
  rw [units, ← lt_round_iff, lt_max_iff, or_comm]
  refine or_congr ?_ (by exact_mod_cast Iff.rfl)
  exact_mod_cast Nat.lt_one_iff

section Covering

variable (engine : ExecutionEngine) (order : OrderState) (w : Wake)

theorem fillQuantity_eq : engine.fillQuantity order w =
    let asked := if engine.fillRate order < w.draw then max (quantize 0 .halfEven (order.quantity * w.share)) 1
      else order.quantity
    match engine.participationLimit order with
    | some most => if (most : ℚ) < asked then (most : ℚ) else asked
    | none => asked := by
  unfold ExecutionEngine.fillQuantity ExecutionEngine.participationLimit ExecutionEngine.fillRate
  cases engine.brokers order.brokerId with
  | none => rfl
  | some profile =>
    cases engine.instruments order.instrumentId with
    | none => rfl
    | some instrument =>
      by_cases traded : 0 < instrument.avgDailyVolume
      · simp only [traded, if_true]
      · simp only [traded, if_false]

/-- The quantity of a fill is so many units exactly if these are to be filled. -/
theorem fillQuantity_iff (n : ℕ) : engine.fillQuantity order w = n ↔ engine.Works order w n := by
  have capped : ∀ (asked : ℚ) (most : ℤ), (if (most : ℚ) < asked then (most : ℚ) else asked) = n ↔
      asked = n ∧ (n : ℤ) ≤ most ∨ most = n ∧ (n : ℚ) < asked := by
    intro asked most
    split
    · rename_i more
      constructor
      · intro same
        have same : most = n := by exact_mod_cast same
        exact .inr ⟨same, by rw [same] at more; exact_mod_cast more⟩
      · rintro (⟨rfl, within⟩ | ⟨rfl, -⟩)
        · exact absurd more (not_lt.mpr (by exact_mod_cast within))
        · norm_cast
    · rename_i within
      constructor
      · rintro rfl
        exact .inl ⟨rfl, by exact_mod_cast not_lt.mp within⟩
      · rintro (⟨rfl, -⟩ | ⟨rfl, more⟩)
        · rfl
        · exact absurd (by exact_mod_cast more) within
  have participation : engine.fillQuantity order w = n ↔
      (if engine.fillRate order < w.draw then max (quantize 0 .halfEven (order.quantity * w.share)) 1
          else order.quantity) = n ∧ (∀ most ∈ engine.participationLimit order, (n : ℤ) ≤ most) ∨
        engine.participationLimit order = some (n : ℤ) ∧
          (n : ℚ) < if engine.fillRate order < w.draw then max (quantize 0 .halfEven (order.quantity * w.share)) 1
            else order.quantity := by
    rw [fillQuantity_eq]
    dsimp only
    cases engine.participationLimit order with
    | none => simp
    | some most => simpa using capped _ most
  rw [participation]
  by_cases drawn : engine.fillRate order < w.draw
  · rw [if_pos drawn, asked_iff, lt_asked_iff]
    constructor
    · rintro (⟨⟨least, most, near⟩, within⟩ | ⟨limit, exceeds⟩)
      · exact .share drawn least most near within
      · exact .limited limit (fun full => absurd drawn (not_lt.mpr full)) fun _ => exceeds
    · rintro (⟨full, -, -⟩ | ⟨-, least, most, near, within⟩ | ⟨limit, -, exceeds⟩)
      · exact absurd drawn (not_lt.mpr full)
      · exact .inl ⟨⟨least, most, near⟩, within⟩
      · exact .inr ⟨limit, exceeds drawn⟩
  · rw [if_neg drawn]
    have full := not_lt.mp drawn
    constructor
    · rintro (⟨same, within⟩ | ⟨limit, exceeds⟩)
      · exact .whole full same within
      · exact .limited limit (fun _ => exceeds) fun share => absurd share drawn
    · rintro (⟨-, same, within⟩ | ⟨share, -, -, -, -⟩ | ⟨limit, exceeds, -⟩)
      · exact .inl ⟨same, within⟩
      · exact absurd share drawn
      · exact .inr ⟨limit, exceeds full⟩

theorem noWorse_iff (side : Side) (limit price : Decimal) :
    side.NoWorse limit price ↔ side.direction * (price - limit) ≤ 0 := by
  cases side with
  | buy => simp [Side.NoWorse, Side.direction]
  | sell => simp [Side.NoWorse, Side.direction]

/-- Rounding and markup add to the average what they add. -/
theorem markedUp_added (instrumentId : String) (average : Decimal) :
    engine.markedUp instrumentId order.side (engine.brokers order.brokerId) (quantize 4 .halfEven average) =
      average + engine.addedTo order instrumentId average := by
  rw [ExecutionEngine.addedTo, ← quantize_halfEven]
  unfold ExecutionEngine.markedUp ExecutionEngine.markup
  cases engine.brokers order.brokerId with
  | none => simp
  | some profile =>
    dsimp only [Option.bind_some]
    split
    · simp
    · rw [quantize_halfEven 4 (quantize 4 .halfEven average * _)]
      cases engine.instruments instrumentId <;> ring

theorem priceOf_keeps_iff (book : Option SimulatedOrderBook) {n : ℕ} (enough : n ≤ (available order book).length) :
    order.KeepsLimit (priceOf engine order book w ((available order book).take n)) ↔
      engine.LeavesRoom order book w n := by
  unfold OrderState.KeepsLimit ExecutionEngine.LeavesRoom
  refine forall_congr' fun _ => forall_congr' fun limit => forall_congr' fun given => ?_
  rw [noWorse_iff]
  cases book with
  | none =>
    have own : order.limitPrice = some limit := given
    simp only [priceOf, fallbackPrice, own, Option.some_or, Option.getD_some, quantize_halfEven]
    rw [show limit * (1 + w.slippage) + roundingError (limit * (1 + w.slippage) * 10 ^ 2) / 10 ^ 2 - limit =
      limit * w.slippage + roundingError (limit * (1 + w.slippage) * 10 ^ 2) / 10 ^ 2 by ring]
  | some b =>
    have count : ((available order (some b)).take n).length = n := by rw [List.length_take, min_eq_left enough]
    have none_taken : (available order (some b)).take n = [] ↔ n = 0 := by
      rw [← List.length_eq_zero_iff, count]
    simp only [priceOf, none_taken, count]
    split
    · rfl
    · rw [markedUp_added]
      constructor
      · intro within
        linarith only [within]
      · intro room
        linarith only [room]

end Covering

/-- A report is true exactly if the units that are to be filled are whole, the book offers them to the
order, and their prices leave room for rounding and markup. -/
theorem truthful_iff_covers (engine : ExecutionEngine) (order : OrderState) (unfilled : order.fills = [])
    (book : Option SimulatedOrderBook) (w : Wake) :
    Truthful order (engine.doFill order book w) ↔ Covers engine order book w := by
  obtain ⟨quantity, ticks, price⟩ := doFill_report engine order w book
  have total := congrArg List.length ticks
  rw [SimulatedOrderBook.length_executed, List.length_take] at total
  constructor
  · intro truthful
    have reported := truthful.quantity
    rw [quantity, total] at reported
    have whole := toInt_natCast (min (toInt (engine.fillQuantity order w)).toNat (available order book).length)
    rw [← reported] at whole
    have enough := min_le_right (toInt (engine.fillQuantity order w)).toNat (available order book).length
    refine ⟨_, (fillQuantity_iff engine order w _).mp reported, enough,
      (priceOf_keeps_iff engine order w book enough).mp ?_⟩
    have within := truthful.price
    rw [price] at within
    have same : (toInt (engine.fillQuantity order w)).toNat =
        min (toInt (engine.fillQuantity order w)).toNat (available order book).length := by omega
    rwa [← same]
  · rintro ⟨n, works, enough, room⟩
    have worked := (fillQuantity_iff engine order w n).mpr works
    have whole : (toInt (engine.fillQuantity order w)).toNat = n := by rw [worked, toInt_natCast]; rfl
    rw [whole] at total price
    rw [min_eq_left enough] at total
    constructor
    · rw [quantity, worked, total]
    · intro filled
      rw [total, ← worked]
      exact (doFill_status engine order w book unfilled).mp filled
    · rw [price]
      exact (priceOf_keeps_iff engine order w book enough).mpr room

/-! ## An order that the book covers, and one that finds nothing at its limit -/

def goldman : BrokerProfile where
  commissionBps := 3
  fillRate := 19 / 20
  rejectRate := 1 / 200
  spreadMarkupBps := 1 / 2
  sectorSpecializations := ["Financials", "Technology"]
  specializationBonusBps := 3 / 2

def goldmanOnly : ExecutionEngine := { brokers := fun id => if id = "GS" then some goldman else none }

/-- 500 shares are offered at 100.05. -/
def spreadBook : SimulatedOrderBook where
  instrumentId := "AAPL"
  tickSize := 1 / 100
  spreadBps := 10
  baseDepth := 500
  someDepth := by decide
  bids := Ladder.empty.add (.toDual (9995 / 100)) 500 (by decide)
  asks := Ladder.empty.add (10005 / 100) 500 (by decide)

def limitBuy (limit : Decimal) : OrderState where
  clientOrderId := "c1"
  instrumentId := "AAPL"
  side := .buy
  orderType := .limit
  quantity := 300
  limitPrice := some limit
  exchangeOrderId := 0
  status := .acknowledged
  arrivalPrice := some 100

theorem crossing_truthful :
    Truthful (limitBuy 101) (goldmanOnly.doFill (limitBuy 101) (some spreadBook) { draw := 1 / 2 }) :=
  (truthful_iff_covers goldmanOnly (limitBuy 101) rfl (some spreadBook) { draw := 1 / 2 }).mpr
    ⟨300, .whole (by decide +kernel) (by decide +kernel) (by simp [ExecutionEngine.participationLimit, goldmanOnly]),
      by decide +kernel, by
        rintro - limit ⟨⟩
        decide +kernel⟩

/-- With a limit of 99 nothing is executed; all 300 shares are reported filled, at 100. -/
theorem uncrossed_not_truthful : ¬ ∀ engine order book w, order.fills = [] →
    Truthful order (ExecutionEngine.doFill engine order book w) := by
  intro truthful
  have covered := (truthful goldmanOnly (limitBuy 99) (some spreadBook) { draw := 1 / 2 } rfl).covered
  revert covered
  decide +kernel

end MiniHedge.MockExchange
