import MiniHedge.MockExchange.BookExecution
import Mathlib.Algebra.BigOperators.Ring.Finset

/-! The two dictionaries of a book against the ladders that the engine trades on.

A ladder book keeps the levels in the order in which they are walked. It is
represented by any dictionaries with the same levels, and orders keep it so.
-/

set_option autoImplicit false

namespace MiniHedge.MockExchange

open MiniHedge.Python MiniHedge.Library

/-- The levels that an order of the side meets, the best first. -/
def SimulatedOrderBook.met (book : SimulatedOrderBook) (side : Side) : List (Decimal × ℕ) :=
  match side with
  | .buy => book.asks.levels
  | .sell => book.bids.levels.map fun level => (OrderDual.ofDual level.1, level.2)

/-- A tick without what only the dictionaries' book records. -/
def BookTick.trade (t : BookTick) : TradeTick := ⟨t.instrumentId, t.price, t.quantity.toNat, t.side⟩

namespace PriceBook

/-- Both sides of the book have the levels of the ladders. -/
structure Represents (b : PriceBook) (book : SimulatedOrderBook) : Prop where
  instrumentId : b.instrumentId = book.instrumentId
  tickSize : b.tickSize = book.tickSize
  levels : ∀ side price, (b.opposite side).get? price =
    ((book.met side).lookup price).map fun quantity : ℕ => (quantity : ℤ)

section Levels

variable (book : SimulatedOrderBook)

theorem met_ordered (side : Side) :
    ((book.met side).map (·.1)).Pairwise (Better side) := by
  rw [List.pairwise_map]
  cases side with
  | buy => exact book.asks.sorted
  | sell =>
    rw [SimulatedOrderBook.met, List.pairwise_map]
    exact book.bids.sorted

theorem met_distinct (side : Side) : ((book.met side).map (·.1)).Nodup := by
  apply (met_ordered book side).imp
  rintro p q better rfl
  exact Better.asymm p p better better

theorem walk_ofDual (stops : Decimal → Bool) (n : ℕ) (levels : List (Decimalᵒᵈ × ℕ)) :
    walk stops n (levels.map fun level => (OrderDual.ofDual level.1, level.2)) =
      ⟨(walk (fun p => stops (OrderDual.ofDual p)) n levels).taken.map
          fun level => (OrderDual.ofDual level.1, level.2),
        (walk (fun p => stops (OrderDual.ofDual p)) n levels).left.map
          fun level => (OrderDual.ofDual level.1, level.2)⟩ := by
  induction levels generalizing n with
  | nil => rfl
  | cons level rest ih =>
    rw [List.map_cons, walk, walk]
    split
    · rfl
    · simp only [ih, List.map_cons]
      split
      · rfl
      · rfl

/-- The loop on the ladders is a walk through the levels that the order meets. -/
theorem take_walk (side : Side) (stops : Decimal → Bool) (n : ℤ) :
    (book.take side stops n).1 = (walk stops n.toNat (book.met side)).taken.map
        (fun level => ⟨book.instrumentId, level.1, level.2, side⟩) ∧
      (book.take side stops n).2.met side = (walk stops n.toNat (book.met side)).left := by
  cases side with
  | buy => exact ⟨rfl, rfl⟩
  | sell =>
    simp only [SimulatedOrderBook.met, walk_ofDual, List.map_map]
    exact ⟨rfl, rfl⟩

/-- The other side of the ladders stays as it is. -/
theorem take_other {side other : Side} (different : other ≠ side) (stops : Decimal → Bool) (n : ℤ) :
    (book.take side stops n).2.met other = book.met other := by
  cases side with
  | buy =>
    cases other with
    | buy => exact absurd rfl different
    | sell => rfl
  | sell =>
    cases other with
    | buy => rfl
    | sell => exact absurd rfl different

theorem lookup_ofDual (price : Decimal) (levels : List (Decimalᵒᵈ × ℕ)) :
    (levels.map fun level => (OrderDual.ofDual level.1, level.2)).lookup price =
      levels.lookup (OrderDual.toDual price) := by
  induction levels with
  | nil => rfl
  | cons level rest ih =>
    rw [List.map_cons, lookup_cons_ite, lookup_cons_ite, ih]
    rfl

end Levels

section Orders

variable {b : PriceBook} {book : SimulatedOrderBook} (represents : b.Represents book)

include represents

theorem Represents.holds (side : Side) : (b.opposite side).Holds (book.met side) := by
  intro level member
  rw [represents.levels, (mem_iff_lookup (met_distinct book side)).mp member]
  rfl

/-- The snapshot of the sorted keys is the ladder's. -/
theorem Represents.priceSort_eq (side : Side) :
    priceSort side (b.opposite side) = (book.met side).map (·.1) := by
  have same : ∀ price, price ∈ priceSort side (b.opposite side) ↔
      price ∈ (book.met side).map (·.1) := by
    intro price
    rw [mem_priceSort, Dict.mem_keys, represents.levels, List.mem_map]
    constructor
    · rintro ⟨value, found⟩
      obtain ⟨quantity, held, -⟩ := Option.map_eq_some_iff.mp found
      exact ⟨_, (mem_iff_lookup (met_distinct book side)).mpr held, rfl⟩
    · rintro ⟨level, member, rfl⟩
      rw [(mem_iff_lookup (met_distinct book side)).mp member]
      exact ⟨_, rfl⟩
  have ordered := priceSort_ordered side (b.opposite side)
  have distinct : (priceSort side (b.opposite side)).Nodup := by
    apply ordered.imp
    rintro p q better rfl
    exact Better.asymm p p better better
  have perm := (List.perm_ext_iff_of_nodup distinct (met_distinct book side)).mpr same
  exact perm.eq_of_pairwise (fun p q _ _ better worse => (Better.asymm p q better worse).elim)
    ordered (met_ordered book side)

theorem Represents.opposite_positive (side : Side) : (b.opposite side).Positive := by
  rw [Dict.positive_iff]
  intro price value found
  rw [represents.levels] at found
  obtain ⟨quantity, held, rfl⟩ := Option.map_eq_some_iff.mp found
  have member := (mem_iff_lookup (met_distinct book side)).mpr held
  cases side with
  | buy => exact Int.natCast_pos.mpr (book.asks.positive _ member)
  | sell =>
    obtain ⟨level, inside, same⟩ := List.mem_map.mp member
    have some_held := book.bids.positive level inside
    rw [(Prod.mk.inj same).2] at some_held
    exact Int.natCast_pos.mpr some_held

/-- A ladder has no empty level, so that every order on the dictionaries is executed soundly. -/
theorem Represents.levelsPositive : b.LevelsPositive :=
  ⟨represents.opposite_positive .sell, represents.opposite_positive .buy⟩

/-- An order takes from the dictionary what it takes from the ladder, and leaves the same levels. -/
theorem Represents.sweep_eq (side : Side) (stops : Decimal → Bool) (quantity : ℤ) :
    ((sweep stops (priceSort side (b.opposite side)) (b.opposite side) quantity).taken.map
        (b.tick side)).map BookTick.trade = (book.take side stops quantity).1 ∧
      ∀ price,
        (sweep stops (priceSort side (b.opposite side)) (b.opposite side) quantity).left.get? price =
          (((book.take side stops quantity).2.met side).lookup price).map fun left : ℕ => (left : ℤ) := by
  have asked := sweep_toNat stops (priceSort side (b.opposite side)) (b.opposite side) quantity
  obtain ⟨taken, left⟩ := sweep_walk stops (met_distinct book side) (represents.holds side)
    quantity.toNat
  obtain ⟨ticks, after⟩ := take_walk book side stops quantity
  rw [asked.1, asked.2, represents.priceSort_eq, taken, ticks, after]
  constructor
  · rw [List.map_map, List.map_map]
    apply List.map_congr_left
    intro level _
    simp [BookTick.trade, tick, represents.instrumentId]
  · intro price
    by_cases inside : price ∈ (book.met side).map (·.1)
    · exact left price inside
    · -- a price without a level is not reached, and gets none
      have absent : ∀ {levels : List (Decimal × ℕ)}, (levels.map (·.1)).Sublist ((book.met side).map (·.1)) →
          levels.lookup price = none := by
        intro levels fewer
        rw [List.lookup_eq_none_iff]
        intro level member
        have reached := fewer.subset (List.mem_map_of_mem member)
        simpa using fun same : price = level.1 => inside (same ▸ reached)
      rw [sweep_frame inside, represents.levels, absent (List.Sublist.refl _), absent (keys_left _ _)]

theorem Represents.remaining (side : Side) (stops : Decimal → Bool) (quantity : ℤ) :
    (sweep stops (priceSort side (b.opposite side)) (b.opposite side) quantity).remaining =
      quantity - ((book.take side stops quantity).1.map (·.quantity)).sum := by
  have whole := @sweep_sum _ _ stops (priceSort side (b.opposite side)) (b.opposite side) quantity
  have asked := sweep_toNat stops (priceSort side (b.opposite side)) (b.opposite side) quantity
  have taken := (sweep_walk stops (met_distinct book side) (represents.holds side)
    quantity.toNat).1
  have sums : ((sweep stops (priceSort side (b.opposite side)) (b.opposite side) quantity).taken.map
      (·.2)).sum = (((book.take side stops quantity).1.map (·.quantity)).sum : ℕ) := by
    rw [asked.1, represents.priceSort_eq, taken, (take_walk book side stops quantity).1,
      Nat.cast_list_sum, List.map_map, List.map_map, List.map_map]
    rfl
  omega

/-- The book after an order has consumed one side of it. -/
theorem Represents.taken (side : Side) (stops : Decimal → Bool) (quantity : ℤ) :
    (b.withOpposite side
        (sweep stops (priceSort side (b.opposite side)) (b.opposite side) quantity).left).Represents
      (book.take side stops quantity).2 where
  instrumentId := by cases side <;> exact represents.instrumentId
  tickSize := by cases side <;> exact represents.tickSize
  levels other price := by
    by_cases same : other = side
    · subst same
      rw [withOpposite_opposite]
      exact (represents.sweep_eq other stops quantity).2 price
    · rw [take_other book same, ← represents.levels]
      cases side with
      | buy =>
        cases other with
        | buy => exact absurd rfl same
        | sell => rfl
      | sell =>
        cases other with
        | buy => rfl
        | sell => exact absurd rfl same

theorem Represents.addLiquidity (side : Side) (price : Decimal) (quantity : ℕ) (some_more : 0 < quantity) :
    (b.addLiquidity side price quantity).Represents (book.addLiquidity side price quantity some_more) := by
  have round : b.roundPrice price = book.roundPrice price := by
    rw [roundPrice, represents.tickSize]
    rfl
  have bids : ∀ price, b.bids.get? price =
      (book.bids.levels.lookup (OrderDual.toDual price)).map fun quantity : ℕ => (quantity : ℤ) := by
    intro price
    rw [← lookup_ofDual]
    exact represents.levels .sell price
  -- what is at a price already is the same number on both sides of the equations
  have more : ∀ held : Option ℕ, (held.map fun quantity : ℕ => (quantity : ℤ)).getD 0 + (quantity : ℤ) =
      ((held.getD 0 + quantity : ℕ) : ℤ) := by
    intro held
    cases held with
    | none => simp
    | some held => simp
  cases side with
  | buy =>
    refine ⟨represents.instrumentId, represents.tickSize, fun other p => ?_⟩
    cases other with
    | buy => exact represents.levels .buy p
    | sell =>
      show (b.bids.set (b.roundPrice price) (b.bids.depth (b.roundPrice price) + quantity)).get? p =
        (List.lookup p (List.map _ (Ladder.insertLevel _ quantity book.bids.levels))).map _
      rw [lookup_ofDual, lookup_insertLevel _ _ book.bids.sorted, Dict.get?_set, Dict.depth, bids, bids,
        more, round]
      by_cases own : p = book.roundPrice price
      · rw [if_pos own, if_pos (congrArg OrderDual.toDual own)]
        rfl
      · rw [if_neg own, if_neg fun same => own (OrderDual.toDual.injective same)]
  | sell =>
    refine ⟨represents.instrumentId, represents.tickSize, fun other p => ?_⟩
    cases other with
    | sell => exact represents.levels .sell p
    | buy =>
      show (b.asks.set (b.roundPrice price) (b.asks.depth (b.roundPrice price) + quantity)).get? p =
        (List.lookup p (Ladder.insertLevel _ quantity book.asks.levels)).map _
      have asks : ∀ price, b.asks.get? price =
          (book.asks.levels.lookup price).map fun quantity : ℕ => (quantity : ℤ) := represents.levels .buy
      rw [lookup_insertLevel _ _ book.asks.sorted, Dict.get?_set, Dict.depth, asks, asks, more, round]
      by_cases own : p = book.roundPrice price
      · rw [if_pos own, if_pos own]
        rfl
      · rw [if_neg own, if_neg own]

/-- A market order trades on the dictionaries as on the ladders, and leaves them represented. -/
theorem Represents.marketOrder (side : Side) (quantity : ℤ) :
    (b.executeMarketOrder side quantity).1.map BookTick.trade =
        (book.executeMarketOrder side quantity).1 ∧
      (b.executeMarketOrder side quantity).2.Represents (book.executeMarketOrder side quantity).2 :=
  ⟨(represents.sweep_eq side (fun _ => false) quantity).1,
    represents.taken side (fun _ => false) quantity⟩

/-- So does a limit order, of which the same is left to rest. -/
theorem Represents.limitOrder (side : Side) (price : Decimal) (quantity : ℤ) :
    (b.executeLimitOrder side price quantity).1.map BookTick.trade =
        (book.executeLimitOrder side price quantity).1 ∧
      (b.executeLimitOrder side price quantity).2.1 = (book.executeLimitOrder side price quantity).2.1 ∧
      (b.executeLimitOrder side price quantity).2.2.Represents
        (book.executeLimitOrder side price quantity).2.2 := by
  have round : b.roundPrice price = book.roundPrice price := by
    rw [roundPrice, represents.tickSize]
    rfl
  have ticks := (represents.sweep_eq side (SimulatedOrderBook.worse side (b.roundPrice price)) quantity).1
  have left := represents.taken side (SimulatedOrderBook.worse side (b.roundPrice price)) quantity
  have remaining := represents.remaining side (SimulatedOrderBook.worse side (b.roundPrice price)) quantity
  unfold executeLimitOrder SimulatedOrderBook.executeLimitOrder
  rw [← round]
  dsimp only
  rw [remaining]
  split
  · rename_i rests
    refine ⟨ticks, rfl, ?_⟩
    have added := left.addLiquidity side (b.roundPrice price) _ (Int.pos_iff_toNat_pos.mp rests)
    rw [Int.toNat_of_nonneg rests.le] at added
    exact added
  · exact ⟨ticks, rfl, left⟩

end Orders

end PriceBook

end MiniHedge.MockExchange
