import MiniHedge.Positions.Aggregate
import Mathlib.Algebra.BigOperators.Group.List.Lemmas
import Mathlib.Algebra.Order.Field.Rat
import Mathlib.Tactic.Linarith
import Mathlib.Tactic.Ring

/-! The position's quantity against its lots.

A sell drops every lot that is not long, so a short position is carried by its
lots only until the next sell. What a sell drops is the difference between the
quantity and the lots from then on, and no later event repays it.
-/

set_option autoImplicit false

namespace MiniHedge.Positions

open MiniHedge.Python MiniHedge.Library

def lotsQuantity (lots : List LotState) : Decimal := (lots.map LotState.quantity).sum

/-- The part of the lots that is short, as a number at most zero. -/
def shortQuantity (lots : List LotState) : Decimal := (lots.map fun lot => min lot.quantity 0).sum

def AllLong (lots : List LotState) : Prop := ∀ lot ∈ lots, 0 < lot.quantity

@[simp] theorem lotsQuantity_nil : lotsQuantity [] = 0 := rfl

@[simp] theorem lotsQuantity_cons (lot : LotState) (lots : List LotState) :
    lotsQuantity (lot :: lots) = lot.quantity + lotsQuantity lots := by
  simp [lotsQuantity]

@[simp] theorem lotsQuantity_append (first rest : List LotState) :
    lotsQuantity (first ++ rest) = lotsQuantity first + lotsQuantity rest := by
  simp [lotsQuantity]

@[simp] theorem shortQuantity_nil : shortQuantity [] = 0 := rfl

@[simp] theorem shortQuantity_cons (lot : LotState) (lots : List LotState) :
    shortQuantity (lot :: lots) = min lot.quantity 0 + shortQuantity lots := by
  simp [shortQuantity]

@[simp] theorem shortQuantity_append (first rest : List LotState) :
    shortQuantity (first ++ rest) = shortQuantity first + shortQuantity rest := by
  simp [shortQuantity]

theorem lotsQuantity_perm {first rest : List LotState} (same : first.Perm rest) :
    lotsQuantity first = lotsQuantity rest :=
  (same.map _).sum_eq

theorem shortQuantity_perm {first rest : List LotState} (same : first.Perm rest) :
    shortQuantity first = shortQuantity rest :=
  (same.map _).sum_eq

theorem shortQuantity_nonpos (lots : List LotState) : shortQuantity lots ≤ 0 := by
  induction lots with
  | nil => exact le_refl _
  | cons lot lots ih =>
    rw [shortQuantity_cons]
    exact add_nonpos (min_le_right _ _) ih

theorem shortQuantity_long {lots : List LotState} (long : AllLong lots) : shortQuantity lots = 0 := by
  induction lots with
  | nil => rfl
  | cons lot lots ih =>
    rw [shortQuantity_cons, min_eq_right (long lot (by simp)).le,
      ih fun l member => long l (List.mem_cons_of_mem lot member), add_zero]

theorem lotsQuantity_nonneg {lots : List LotState} (long : AllLong lots) : 0 ≤ lotsQuantity lots := by
  induction lots with
  | nil => exact le_refl _
  | cons lot lots ih =>
    rw [lotsQuantity_cons]
    exact add_nonneg (long lot (by simp)).le (ih fun l member => long l (List.mem_cons_of_mem lot member))

theorem lotsQuantity_filter (lots : List LotState) :
    lotsQuantity (lots.filter fun lot => 0 < lot.quantity) =
      lotsQuantity lots - shortQuantity lots := by
  induction lots with
  | nil => simp
  | cons lot lots ih =>
    by_cases long : 0 < lot.quantity
    · rw [List.filter_cons_of_pos (by simpa using long), lotsQuantity_cons, lotsQuantity_cons,
        shortQuantity_cons, ih, min_eq_right long.le]
      ring
    · rw [List.filter_cons_of_neg (by simpa using long), lotsQuantity_cons, shortQuantity_cons, ih,
        min_eq_left (not_lt.mp long)]
      ring

theorem lotsQuantity_scale (ratio : Decimal) (lots : List LotState) :
    lotsQuantity (lots.map (PositionAggregate.scaleLot ratio)) = lotsQuantity lots * ratio := by
  induction lots with
  | nil => simp
  | cons lot lots ih =>
    rw [List.map_cons, lotsQuantity_cons, lotsQuantity_cons, ih, add_mul]
    rfl

theorem shortQuantity_scale {ratio : Decimal} (positive : 0 < ratio) (lots : List LotState) :
    shortQuantity (lots.map (PositionAggregate.scaleLot ratio)) = shortQuantity lots * ratio := by
  induction lots with
  | nil => simp
  | cons lot lots ih =>
    rw [List.map_cons, shortQuantity_cons, shortQuantity_cons, ih, add_mul,
      min_mul_of_nonneg _ _ positive.le, zero_mul]
    rfl

/-! ## Matching a sell -/

theorem fifoOrder_perm (lots : List LotState) : ((fifoOrder lots).map Prod.fst).Perm lots := by
  have placed := (sortOn_perm (fun entry : LotState × Nat => entry.1.key) lots.zipIdx).map Prod.fst
  rwa [List.zipIdx_map_fst] at placed

theorem inPlace_perm (entries : List (LotState × Nat)) :
    (inPlace entries).Perm (entries.map Prod.fst) :=
  (sortOn_perm Prod.snd entries).map Prod.fst

section Matching

variable (price : Decimal)

theorem matchLots_remaining_nonneg {remaining : Decimal} (nonneg : 0 ≤ remaining)
    (realized : Decimal) (entries : List (LotState × Nat)) :
    0 ≤ (matchLots price remaining realized entries).remaining := by
  induction entries generalizing remaining realized with
  | nil => exact nonneg
  | cons entry entries ih =>
    obtain ⟨lot, place⟩ := entry
    by_cases stop : remaining ≤ 0 ∨ lot.quantity ≤ 0
    · rwa [matchLots, if_pos stop]
    · rw [matchLots, if_neg stop]
      exact ih (sub_nonneg.mpr (min_le_left _ _)) _

/-- What left the lots is what was sold from them. -/
theorem matchLots_lotsQuantity (remaining realized : Decimal) (entries : List (LotState × Nat)) :
    lotsQuantity ((matchLots price remaining realized entries).lots.map Prod.fst) =
      lotsQuantity (entries.map Prod.fst) -
        (remaining - (matchLots price remaining realized entries).remaining) := by
  induction entries generalizing remaining realized with
  | nil => simp [matchLots]
  | cons entry entries ih =>
    obtain ⟨lot, place⟩ := entry
    by_cases stop : remaining ≤ 0 ∨ lot.quantity ≤ 0
    · rw [matchLots, if_pos stop]
      ring
    · rw [matchLots, if_neg stop]
      simp only [List.map_cons, lotsQuantity_cons, ih]
      ring

/-- Matching only takes from long lots, and never turns one short. -/
theorem matchLots_shortQuantity (remaining realized : Decimal) (entries : List (LotState × Nat)) :
    shortQuantity ((matchLots price remaining realized entries).lots.map Prod.fst) =
      shortQuantity (entries.map Prod.fst) := by
  induction entries generalizing remaining realized with
  | nil => rfl
  | cons entry entries ih =>
    obtain ⟨lot, place⟩ := entry
    by_cases stop : remaining ≤ 0 ∨ lot.quantity ≤ 0
    · rw [matchLots, if_pos stop]
    · have long : 0 < lot.quantity := not_le.mp fun le => stop (.inr le)
      have kept : 0 ≤ lot.quantity - min remaining lot.quantity := sub_nonneg.mpr (min_le_right _ _)
      rw [matchLots, if_neg stop]
      simp only [List.map_cons, shortQuantity_cons, ih, min_eq_right kept, min_eq_right long.le]

theorem matchLots_remaining_long {remaining : Decimal} (nonneg : 0 ≤ remaining) (realized : Decimal)
    {entries : List (LotState × Nat)} (long : AllLong (entries.map Prod.fst)) :
    (matchLots price remaining realized entries).remaining =
      max (remaining - lotsQuantity (entries.map Prod.fst)) 0 := by
  induction entries generalizing remaining realized with
  | nil => simpa [matchLots] using nonneg
  | cons entry entries ih =>
    obtain ⟨lot, place⟩ := entry
    have first : 0 < lot.quantity := long lot (by simp)
    have rest : AllLong (entries.map Prod.fst) := fun l member => long l (by simp [member])
    have total : 0 ≤ lotsQuantity (entries.map Prod.fst) := lotsQuantity_nonneg rest
    by_cases done : remaining ≤ 0
    · have none : remaining = 0 := le_antisymm done nonneg
      rw [matchLots, if_pos (.inl done), none, List.map_cons, lotsQuantity_cons, max_eq_right]
      linarith
    · rw [matchLots, if_neg (by rintro (le | le) <;> linarith)]
      simp only [List.map_cons, lotsQuantity_cons]
      rw [ih (sub_nonneg.mpr (min_le_left _ _)) _ rest]
      rcases le_total remaining lot.quantity with small | large
      · rw [min_eq_left small, max_eq_right (by linarith), max_eq_right (by linarith)]
      · rw [min_eq_right large]
        congr 1
        ring

end Matching

namespace PositionAggregate

variable (a : PositionAggregate) (t : Datetime) (d : TradeEventData)

/-- The lots a sell starts the loop with, in another order. -/
theorem matching_lotsQuantity :
    lotsQuantity (inPlace (a.matching d).lots) =
      lotsQuantity a.lots - (d.quantity - (a.matching d).remaining) := by
  rw [lotsQuantity_perm (inPlace_perm _), matching, matchLots_lotsQuantity,
    lotsQuantity_perm (fifoOrder_perm a.lots)]

theorem matching_shortQuantity : shortQuantity (inPlace (a.matching d).lots) = shortQuantity a.lots := by
  rw [shortQuantity_perm (inPlace_perm _), matching, matchLots_shortQuantity,
    shortQuantity_perm (fifoOrder_perm a.lots)]

/-- A sell takes its quantity from the lots, and drops the short ones. -/
theorem lotsQuantity_sell (positive : 0 < d.quantity) :
    lotsQuantity (a.sell t d).lots = lotsQuantity a.lots - d.quantity - shortQuantity a.lots := by
  have nonneg : 0 ≤ (a.matching d).remaining := matchLots_remaining_nonneg _ positive.le _ _
  change lotsQuantity (a.lotsAfterSell t d) = _
  by_cases short : 0 < (a.matching d).remaining
  · simp only [lotsAfterSell, if_pos short, lotsQuantity_append, lotsQuantity_filter,
      matching_lotsQuantity, matching_shortQuantity, lotsQuantity_cons, lotsQuantity_nil]
    ring
  · have none : (a.matching d).remaining = 0 := le_antisymm (not_lt.mp short) nonneg
    rw [lotsAfterSell, if_neg short, lotsQuantity_filter, matching_lotsQuantity,
      matching_shortQuantity, none]
    ring

variable {a}

theorem matching_remaining (long : AllLong a.lots) (positive : 0 < d.quantity) :
    (a.matching d).remaining = max (d.quantity - lotsQuantity a.lots) 0 := by
  have ordered : AllLong ((fifoOrder a.lots).map Prod.fst) :=
    fun lot member => long lot ((fifoOrder_perm a.lots).mem_iff.mp member)
  rw [matching, matchLots_remaining_long _ positive.le _ ordered,
    lotsQuantity_perm (fifoOrder_perm a.lots)]

theorem allLong_filter (lots : List LotState) :
    AllLong (lots.filter fun lot => 0 < lot.quantity) :=
  fun _ member => by simpa using (List.mem_filter.mp member).2

theorem allLong_sell (long : AllLong a.lots) (positive : 0 < d.quantity)
    (covered : d.quantity ≤ lotsQuantity a.lots) : AllLong (a.sell t d).lots := by
  have none : (a.matching d).remaining = 0 := by
    rw [matching_remaining d long positive, max_eq_right (sub_nonpos.mpr covered)]
  change AllLong (a.lotsAfterSell t d)
  simp only [lotsAfterSell, none, lt_irrefl, if_false]
  exact allLong_filter _

theorem shortQuantity_sell (long : AllLong a.lots) (positive : 0 < d.quantity)
    (uncovered : lotsQuantity a.lots < d.quantity) : shortQuantity (a.sell t d).lots < 0 := by
  have short : (a.matching d).remaining = d.quantity - lotsQuantity a.lots := by
    rw [matching_remaining d long positive, max_eq_left (sub_nonneg.mpr uncovered.le)]
  have opened : 0 < (a.matching d).remaining := by
    rw [short]
    exact sub_pos.mpr uncovered
  change shortQuantity (a.lotsAfterSell t d) < 0
  simp only [lotsAfterSell, if_pos opened, shortQuantity_append, shortQuantity_cons,
    shortQuantity_nil, shortQuantity_long (allLong_filter _)]
  rw [min_eq_left (by linarith)]
  linarith

end PositionAggregate

/-! ## Histories -/

namespace TradeEvent

inductive WellFormed : TradeEvent → Prop where
  | buy (t : Datetime) (d : TradeEventData) (quantity : 0 < d.quantity) (price : 0 < d.price) :
      WellFormed ⟨.tradeBuy, t, .trade d⟩
  | sell (t : Datetime) (d : TradeEventData) (quantity : 0 < d.quantity) (price : 0 < d.price) :
      WellFormed ⟨.tradeSell, t, .trade d⟩
  | split (t : Datetime) (d : CorporateActionEventData) (ratio : 0 < d.splitRatio) :
      WellFormed ⟨.stockSplit, t, .corporateAction d⟩
  | dividend (t : Datetime) (d : CorporateActionEventData) :
      WellFormed ⟨.dividendPaid, t, .corporateAction d⟩

theorem WellFormed.applicable {event : TradeEvent} (formed : event.WellFormed) :
    event.Applicable := by
  cases formed with
  | buy t d quantity price => exact .buy t d
  | sell t d quantity price => exact .sell t d
  | split t d ratio => exact .split t d ratio.ne'
  | dividend t d => exact .dividend t d

/-- The quantity sold by a sell event, and nothing for any other event. -/
def sold (event : TradeEvent) : Option Decimal :=
  match event.eventType, event.data with
  | .tradeSell, .trade d => some d.quantity
  | _, _ => none

/-- The net split-adjusted quantity after an event. -/
def held (quantity : Decimal) (event : TradeEvent) : Decimal :=
  match event.eventType, event.data with
  | .tradeBuy, .trade d => quantity + d.quantity
  | .tradeSell, .trade d => quantity - d.quantity
  | .stockSplit, .corporateAction d => quantity * d.splitRatio
  | _, _ => quantity

end TradeEvent

/-- No sell follows a sell of more than the quantity held before it. -/
def NoSellAfterShort (quantity : Decimal) : List TradeEvent → Prop
  | [] => True
  | event :: rest =>
    if ∃ sold ∈ event.sold, quantity < sold then ∀ later ∈ rest, later.sold = none
    else NoSellAfterShort (event.held quantity) rest

namespace PositionAggregate

/-- The quantity that the lots do not account for. -/
def gap (a : PositionAggregate) : Decimal := a.quantity - lotsQuantity a.lots

theorem gap_buy (a : PositionAggregate) (t : Datetime) (d : TradeEventData) :
    (a.buy t d).gap = a.gap := by
  simp only [gap, buy, lotsQuantity_append, lotsQuantity_cons, lotsQuantity_nil]
  ring

theorem gap_sell (a : PositionAggregate) (t : Datetime) {d : TradeEventData}
    (positive : 0 < d.quantity) : (a.sell t d).gap = a.gap + shortQuantity a.lots := by
  rw [gap, lotsQuantity_sell a t d positive, gap]
  change a.quantity - d.quantity - _ = _
  ring

theorem gap_split (a : PositionAggregate) (d : CorporateActionEventData) :
    (a.split d).gap = a.gap * d.splitRatio := by
  simp only [gap, split, lotsQuantity_scale]
  ring

/-- Once lots were dropped, no event brings the quantity back. -/
theorem gap_neg {a : PositionAggregate} (dropped : a.gap < 0) {events : List TradeEvent}
    (formed : ∀ event ∈ events, event.WellFormed) : (events.foldl after a).gap < 0 := by
  induction events generalizing a with
  | nil => exact dropped
  | cons event rest ih =>
    rw [List.foldl_cons]
    refine ih ?_ fun e member => formed e (List.mem_cons_of_mem event member)
    cases formed event (by simp) with
    | buy t d quantity price => rwa [after_buy, gap_buy]
    | sell t d quantity price =>
      rw [after_sell, gap_sell a t quantity]
      exact add_neg_of_neg_of_nonpos dropped (shortQuantity_nonpos _)
    | split t d ratio =>
      rw [after_split, gap_split]
      exact mul_neg_of_neg_of_pos dropped ratio
    | dividend t d => exact dropped

/-- While a short lot is held, the next sell is the one that loses it. -/
theorem consistent_short {a : PositionAggregate} (consistent : a.gap = 0)
    (short : shortQuantity a.lots < 0) {events : List TradeEvent}
    (formed : ∀ event ∈ events, event.WellFormed) :
    (events.foldl after a).gap = 0 ↔ ∀ event ∈ events, event.sold = none := by
  induction events generalizing a with
  | nil => simpa using consistent
  | cons event rest ih =>
    have later : ∀ e ∈ rest, e.WellFormed := fun e member => formed e (List.mem_cons_of_mem event member)
    rw [List.foldl_cons, List.forall_mem_cons]
    cases formed event (by simp) with
    | buy t d quantity price =>
      have still : shortQuantity (a.buy t d).lots < 0 := by
        simp only [buy, shortQuantity_append, shortQuantity_cons, shortQuantity_nil,
          min_eq_right quantity.le]
        linarith
      rw [after_buy, ih (by rw [gap_buy, consistent]) still later]
      exact (and_iff_right rfl).symm
    | sell t d quantity price =>
      have dropped : (a.sell t d).gap < 0 := by
        rw [gap_sell a t quantity, consistent, zero_add]
        exact short
      have lost := gap_neg dropped later
      rw [after_sell]
      exact iff_of_false lost.ne fun none => absurd none.1 (by simp [TradeEvent.sold])
    | split t d ratio =>
      have still : shortQuantity (a.split d).lots < 0 := by
        simp only [split, shortQuantity_scale ratio]
        exact mul_neg_of_neg_of_pos short ratio
      rw [after_split, ih (by rw [gap_split, consistent, zero_mul]) still later]
      exact (and_iff_right rfl).symm
    | dividend t d =>
      have same : (a.dividend d).gap = 0 := consistent
      rw [after_dividend, ih same short later]
      exact (and_iff_right rfl).symm

theorem consistent_long {a : PositionAggregate} (consistent : a.gap = 0) (long : AllLong a.lots)
    {events : List TradeEvent} (formed : ∀ event ∈ events, event.WellFormed) :
    (events.foldl after a).gap = 0 ↔ NoSellAfterShort a.quantity events := by
  induction events generalizing a with
  | nil => exact iff_of_true consistent trivial
  | cons event rest ih =>
    have later : ∀ e ∈ rest, e.WellFormed := fun e member => formed e (List.mem_cons_of_mem event member)
    have lots : lotsQuantity a.lots = a.quantity := (sub_eq_zero.mp consistent).symm
    rw [List.foldl_cons, NoSellAfterShort]
    cases formed event (by simp) with
    | buy t d quantity price =>
      have still : AllLong (a.buy t d).lots := by
        intro lot member
        rcases List.mem_append.mp member with old | new
        · exact long lot old
        · rw [List.mem_singleton.mp new]
          exact quantity
      rw [if_neg (by simp [TradeEvent.sold]), after_buy,
        ih (by rw [gap_buy, consistent]) still later]
      rfl
    | sell t d quantity price =>
      have kept : (a.sell t d).gap = 0 := by
        rw [gap_sell a t quantity, consistent, shortQuantity_long long, add_zero]
      rw [after_sell]
      by_cases short : a.quantity < d.quantity
      · rw [if_pos ⟨d.quantity, rfl, short⟩]
        exact consistent_short kept (shortQuantity_sell t d long quantity (lots ▸ short)) later
      · have covered : d.quantity ≤ lotsQuantity a.lots := lots ▸ not_lt.mp short
        rw [if_neg (by simpa [TradeEvent.sold] using short),
          ih kept (allLong_sell t d long quantity covered) later]
        rfl
    | split t d ratio =>
      have still : AllLong (a.split d).lots := by
        intro lot member
        obtain ⟨old, held, rfl⟩ := List.mem_map.mp member
        exact mul_pos (long old held) ratio
      rw [if_neg (by simp [TradeEvent.sold]), after_split,
        ih (by rw [gap_split, consistent, zero_mul]) still later]
      rfl
    | dividend t d =>
      have same : (a.dividend d).gap = 0 := consistent
      rw [if_neg (by simp [TradeEvent.sold]), after_dividend, ih same long later]
      rfl

end PositionAggregate

/-- The fold succeeds and its quantity is the sum of the signed lots. -/
def LotsConsistent (portfolioId : UUID) (instrumentId : String) (events : List TradeEvent) : Prop :=
  ∃ a, PositionAggregate.fromEvents portfolioId instrumentId events = .ok a ∧
    a.quantity = lotsQuantity a.lots

theorem lotsConsistent_iff_noSellAfterShort {portfolioId : UUID} {instrumentId : String}
    {events : List TradeEvent} (owned : ∀ event ∈ events, event.OwnedBy portfolioId instrumentId)
    (formed : ∀ event ∈ events, event.WellFormed) :
    LotsConsistent portfolioId instrumentId events ↔ NoSellAfterShort 0 events := by
  have folded := PositionAggregate.fromEvents_ok owned fun event member =>
    (formed event member).applicable
  have consistent := PositionAggregate.consistent_long (a := .empty portfolioId instrumentId)
    (by simp [PositionAggregate.gap, PositionAggregate.empty])
    (by simp [AllLong, PositionAggregate.empty]) formed
  rw [PositionAggregate.gap, sub_eq_zero] at consistent
  simp only [LotsConsistent, folded, Except.ok.injEq, exists_eq_left']
  exact consistent

/-- Two sells from nothing: the second drops the short lot of the first. -/
def shortThenSell : List TradeEvent :=
  let trade := fun (id : UUID) (quantity price : Decimal) => TradeEventData.mk (.ofNat 7) "AAPL"
    .sell quantity price id "USD"
  [⟨.tradeSell, 1, .trade (trade (.ofNat 1) 10 100)⟩,
    ⟨.tradeSell, 2, .trade (trade (.ofNat 2) 5 110)⟩]

theorem shortThenSell_wellFormed : ∀ event ∈ shortThenSell, event.WellFormed := by
  intro event member
  rcases List.mem_cons.mp member with rfl | last
  · exact .sell _ _ (by norm_num) (by norm_num)
  · rw [List.mem_singleton.mp last]
    exact .sell _ _ (by norm_num) (by norm_num)

theorem shortThenSell_owned : ∀ event ∈ shortThenSell, event.OwnedBy ⟨7, by decide⟩ "AAPL" := by
  decide

theorem shortThenSell_inconsistent :
    (∀ event ∈ shortThenSell, event.WellFormed ∧ event.OwnedBy ⟨7, by decide⟩ "AAPL") ∧
      (PositionAggregate.fromEvents ⟨7, by decide⟩ "AAPL" shortThenSell).map
        (fun a => (a.quantity, lotsQuantity a.lots)) = .ok (-15, -5) ∧
      ¬ LotsConsistent ⟨7, by decide⟩ "AAPL" shortThenSell := by
  have folded : (PositionAggregate.fromEvents ⟨7, by decide⟩ "AAPL" shortThenSell).map
      (fun a => (a.quantity, lotsQuantity a.lots)) = .ok (-15, -5) := by decide +kernel
  refine ⟨fun event member => ⟨shortThenSell_wellFormed event member,
    shortThenSell_owned event member⟩, folded, ?_⟩
  rintro ⟨a, same, consistent⟩
  rw [same] at folded
  injection folded with values
  injection values with quantity lots
  rw [quantity, lots] at consistent
  norm_num at consistent

/-- Ten are bought, fifteen sold and twenty bought: the short position is bought back. -/
def shortThenBought : List TradeEvent :=
  let trade := fun (id : UUID) (side : TradeSide) (quantity price : Decimal) =>
    TradeEventData.mk (.ofNat 7) "AAPL" side quantity price id "USD"
  [⟨.tradeBuy, 1, .trade (trade (.ofNat 1) .buy 10 100)⟩,
    ⟨.tradeSell, 2, .trade (trade (.ofNat 2) .sell 15 110)⟩,
    ⟨.tradeBuy, 3, .trade (trade (.ofNat 3) .buy 20 90)⟩]

theorem shortThenBought_consistent : LotsConsistent ⟨7, by decide⟩ "AAPL" shortThenBought := by
  have formed : ∀ event ∈ shortThenBought, event.WellFormed := by
    intro event member
    simp only [shortThenBought, List.mem_cons, List.not_mem_nil, or_false] at member
    rcases member with rfl | rfl | rfl
    · exact .buy _ _ (by norm_num) (by norm_num)
    · exact .sell _ _ (by norm_num) (by norm_num)
    · exact .buy _ _ (by norm_num) (by norm_num)
  refine (lotsConsistent_iff_noSellAfterShort (by decide) formed).mpr ?_
  -- the sell of fifteen exceeds the ten that are held, and no sell follows it
  simp [shortThenBought, NoSellAfterShort, TradeEvent.sold, TradeEvent.held]

end MiniHedge.Positions
