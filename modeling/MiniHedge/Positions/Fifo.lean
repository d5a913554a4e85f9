import MiniHedge.Positions.Lots
import MiniHedge.Library.ShareQueue

/-! Long-only histories against a first-in first-out queue of shares.

The open lots in `(acquired_at, lot_id)` order are the blocks of a share queue:
a buy enqueues, a sell pops, a split changes the unit. What a sell realizes is
its proceeds less the cost of the shares it pops.
-/

set_option autoImplicit false

namespace MiniHedge.Positions

open MiniHedge.Python MiniHedge.Library

def LotState.block (lot : LotState) : Block LotKey Decimal := ⟨lot.key, lot.quantity, lot.price⟩

/-- The open lots as a queue, oldest first. -/
def openShares (lots : List LotState) : ShareQueue LotKey Decimal :=
  (sortOn LotState.key lots).map LotState.block

def lotsCost (lots : List LotState) : Decimal := (lots.map fun lot => lot.quantity * lot.price).sum

theorem size_map_block (lots : List LotState) :
    ShareQueue.size (lots.map LotState.block) = lotsQuantity lots := by
  simp [ShareQueue.size, lotsQuantity, LotState.block, Function.comp_def]

theorem cost_map_block (lots : List LotState) :
    ShareQueue.cost (lots.map LotState.block) = lotsCost lots := by
  simp [ShareQueue.cost, lotsCost, LotState.block, Function.comp_def]

theorem positive_map_block {lots : List LotState} (long : AllLong lots) :
    ShareQueue.Positive (lots.map LotState.block) := by
  intro b member
  obtain ⟨lot, held, rfl⟩ := List.mem_map.mp member
  exact long lot held

theorem size_openShares (lots : List LotState) : (openShares lots).size = lotsQuantity lots := by
  rw [openShares, size_map_block, lotsQuantity_perm (sortOn_perm _ lots)]

theorem cost_openShares (lots : List LotState) : (openShares lots).cost = lotsCost lots := by
  rw [openShares, cost_map_block]
  exact ((sortOn_perm _ lots).map _).sum_eq

theorem openShares_append (lots : List LotState) (lot : LotState) :
    openShares (lots ++ [lot]) = ShareQueue.enqueue lot.block (openShares lots) := by
  rw [openShares, sortOn_append_singleton, ← insertAfter_map LotState.key Block.key LotState.block
    (fun _ => rfl)]
  rfl

theorem openShares_scale (ratio : Decimal) (lots : List LotState) :
    openShares (lots.map (PositionAggregate.scaleLot ratio)) =
      ShareQueue.scale ratio (openShares lots) := by
  have sorted : sortOn LotState.key (lots.map (PositionAggregate.scaleLot ratio)) =
      (sortOn LotState.key lots).map (PositionAggregate.scaleLot ratio) :=
    sortOn_map LotState.key LotState.key (PositionAggregate.scaleLot ratio) (fun _ => rfl) lots
  rw [openShares, openShares, sorted, ShareQueue.scale, List.map_map, List.map_map]
  rfl

theorem fifoOrder_map_fst (lots : List LotState) :
    (fifoOrder lots).map Prod.fst = sortOn LotState.key lots := by
  have sorted := sortOn_map (fun entry : LotState × Nat => entry.1.key) LotState.key Prod.fst
    (fun _ => rfl) lots.zipIdx
  rw [List.zipIdx_map_fst] at sorted
  exact sorted.symm

theorem fifoOrder_ordered (lots : List LotState) : (fifoOrder lots).Pairwise fun a b =>
    a.1.key < b.1.key ∨ a.1.key = b.1.key ∧ a.2 < b.2 := by
  refine sortOn_pairwise _ (List.pairwise_map.mp ?_)
  rw [List.zipIdx_map_snd]
  exact List.pairwise_lt_range'

theorem fifoOrder_places (lots : List LotState) : ((fifoOrder lots).map Prod.snd).Nodup := by
  have placed := (sortOn_perm (fun entry : LotState × Nat => entry.1.key) lots.zipIdx).map Prod.snd
  rw [List.zipIdx_map_snd] at placed
  exact placed.nodup_iff.mpr List.nodup_range'

/-! ## The matching loop -/

section Matching

variable (price : Decimal)

/-- The loop changes quantities only. -/
theorem matchLots_keys (remaining realized : Decimal) (entries : List (LotState × Nat)) :
    (matchLots price remaining realized entries).lots.map (fun entry => (entry.1.key, entry.2)) =
      entries.map fun entry => (entry.1.key, entry.2) := by
  induction entries generalizing remaining realized with
  | nil => rfl
  | cons entry entries ih =>
    obtain ⟨lot, place⟩ := entry
    by_cases stop : remaining ≤ 0 ∨ lot.quantity ≤ 0
    · rw [matchLots, if_pos stop]
    · rw [matchLots, if_neg stop]
      simp only [List.map_cons, ih]
      rfl

theorem matchLots_pop {remaining : Decimal} (nonneg : 0 ≤ remaining) (realized : Decimal)
    {entries : List (LotState × Nat)} (long : AllLong (entries.map Prod.fst)) :
    (((matchLots price remaining realized entries).lots.map Prod.fst).filter
        fun lot => 0 < lot.quantity).map LotState.block =
      ShareQueue.pop remaining ((entries.map Prod.fst).map LotState.block) := by
  induction entries generalizing remaining realized with
  | nil => rfl
  | cons entry entries ih =>
    obtain ⟨lot, place⟩ := entry
    have first : 0 < lot.quantity := long lot (by simp)
    have rest : AllLong (entries.map Prod.fst) := fun l member => long l (by simp [member])
    by_cases done : remaining ≤ 0
    · have none : remaining = 0 := le_antisymm done nonneg
      have all : (((lot, place) :: entries).map Prod.fst).filter (fun l => 0 < l.quantity) =
          ((lot, place) :: entries).map Prod.fst :=
        List.filter_eq_self.mpr fun l member => by simpa using long l member
      rw [matchLots, if_pos (.inl done), all, none, ShareQueue.pop_zero (positive_map_block long)]
    · rw [matchLots, if_neg (by rintro (le | le) <;> linarith)]
      simp only [List.map_cons]
      rcases le_or_gt lot.quantity remaining with whole | part
      · have popped : ShareQueue.pop remaining (lot.block :: (entries.map Prod.fst).map LotState.block)
            = ShareQueue.pop (remaining - lot.quantity) ((entries.map Prod.fst).map LotState.block) :=
          if_pos whole
        rw [min_eq_right whole, List.filter_cons_of_neg (by simp), ih (sub_nonneg.mpr whole) _ rest,
          popped]
      · have popped : ShareQueue.pop remaining (lot.block :: (entries.map Prod.fst).map LotState.block)
            = { lot.block with size := lot.quantity - remaining } ::
              (entries.map Prod.fst).map LotState.block := if_neg (not_le.mpr part)
        rw [min_eq_left part.le, List.filter_cons_of_pos (by simpa using part), List.map_cons,
          sub_self, ih (le_refl 0) _ rest, ShareQueue.pop_zero (positive_map_block rest), popped]
        rfl

theorem matchLots_realized {remaining : Decimal} (nonneg : 0 ≤ remaining) (realized : Decimal)
    {entries : List (LotState × Nat)} (long : AllLong (entries.map Prod.fst))
    (covered : remaining ≤ lotsQuantity (entries.map Prod.fst)) :
    (matchLots price remaining realized entries).realized =
      realized + (remaining * price -
        ShareQueue.cost (ShareQueue.front remaining ((entries.map Prod.fst).map LotState.block))) := by
  induction entries generalizing remaining realized with
  | nil =>
    have none : remaining = 0 := le_antisymm covered nonneg
    simp [matchLots, ShareQueue.front, none]
  | cons entry entries ih =>
    obtain ⟨lot, place⟩ := entry
    have first : 0 < lot.quantity := long lot (by simp)
    have rest : AllLong (entries.map Prod.fst) := fun l member => long l (by simp [member])
    rw [List.map_cons, lotsQuantity_cons] at covered
    by_cases done : remaining ≤ 0
    · have none : remaining = 0 := le_antisymm done nonneg
      rw [matchLots, if_pos (.inl done), none, ShareQueue.cost_front_zero (positive_map_block long)]
      ring
    · rw [matchLots, if_neg (by rintro (le | le) <;> linarith)]
      simp only [List.map_cons]
      rcases le_or_gt lot.quantity remaining with whole | part
      · have fronted : ShareQueue.front remaining (lot.block :: (entries.map Prod.fst).map LotState.block)
            = lot.block :: ShareQueue.front (remaining - lot.quantity)
              ((entries.map Prod.fst).map LotState.block) := if_pos whole
        rw [min_eq_right whole, ih (sub_nonneg.mpr whole) _ rest (by linarith), fronted,
          ShareQueue.cost_cons]
        simp only [LotState.block]
        ring
      · have fronted : ShareQueue.front remaining (lot.block :: (entries.map Prod.fst).map LotState.block)
            = [{ lot.block with size := remaining }] := if_neg (not_le.mpr part)
        rw [min_eq_left part.le, sub_self, ih (le_refl 0) _ rest (lotsQuantity_nonneg rest), fronted,
          ShareQueue.cost_front_zero (positive_map_block rest), ShareQueue.cost_cons,
          ShareQueue.cost_nil]
        simp only [LotState.block]
        ring

end Matching

namespace PositionAggregate

section Sell

variable {a : PositionAggregate} (t : Datetime) (d : TradeEventData)

theorem matching_ordered : (a.matching d).lots.Pairwise fun x y =>
    x.1.key < y.1.key ∨ x.1.key = y.1.key ∧ x.2 < y.2 := by
  have keys := matchLots_keys d.price d.quantity 0 (fifoOrder a.lots)
  have ordered : ((fifoOrder a.lots).map fun entry => (entry.1.key, entry.2)).Pairwise fun x y =>
      x.1 < y.1 ∨ x.1 = y.1 ∧ x.2 < y.2 := List.pairwise_map.mpr (fifoOrder_ordered a.lots)
  rw [← keys] at ordered
  exact List.pairwise_map.mp ordered

theorem matching_places : ((a.matching d).lots.map Prod.snd).Nodup := by
  have keys := congrArg (List.map Prod.snd) (matchLots_keys d.price d.quantity 0 (fifoOrder a.lots))
  simp only [List.map_map, Function.comp_def] at keys
  have places := fifoOrder_places a.lots
  rwa [← keys] at places

theorem lotsAfterSell_covered (long : AllLong a.lots) (positive : 0 < d.quantity)
    (covered : d.quantity ≤ lotsQuantity a.lots) :
    a.lotsAfterSell t d = (inPlace (a.matching d).lots).filter fun lot => 0 < lot.quantity := by
  have none : (a.matching d).remaining = 0 := by
    rw [matching_remaining d long positive, max_eq_right (sub_nonpos.mpr covered)]
  simp only [lotsAfterSell, none, lt_irrefl, if_false]

theorem allLong_fifoOrder (long : AllLong a.lots) : AllLong ((fifoOrder a.lots).map Prod.fst) :=
  fun lot member => long lot ((fifoOrder_perm a.lots).mem_iff.mp member)

/-- A covered sell pops its quantity from the queue of open shares. -/
theorem openShares_sell (long : AllLong a.lots) (positive : 0 < d.quantity)
    (covered : d.quantity ≤ lotsQuantity a.lots) :
    openShares (a.sell t d).lots = ShareQueue.pop d.quantity (openShares a.lots) := by
  have popped := matchLots_pop d.price positive.le 0 (allLong_fifoOrder long)
  rw [fifoOrder_map_fst] at popped
  change openShares (a.lotsAfterSell t d) = _
  rw [lotsAfterSell_covered t d long positive covered, openShares, inPlace,
    sortOn_filter_byPlace _ (matching_ordered d) (matching_places d)]
  exact popped

theorem realized_sell (long : AllLong a.lots) (positive : 0 < d.quantity)
    (covered : d.quantity ≤ lotsQuantity a.lots) :
    (a.sell t d).realizedPnl = a.realizedPnl +
      (d.quantity * d.price - ShareQueue.cost (ShareQueue.front d.quantity (openShares a.lots))) := by
  have realized := matchLots_realized d.price positive.le 0 (allLong_fifoOrder long)
    (by rwa [lotsQuantity_perm (fifoOrder_perm a.lots)])
  rw [fifoOrder_map_fst, zero_add] at realized
  exact congrArg (a.realizedPnl + ·) realized

theorem costBasis_sell (long : AllLong (a.sell t d).lots) :
    (a.sell t d).costBasis = lotsCost (a.sell t d).lots := by
  have absolute : (a.sell t d).lots.map (fun lot => |lot.quantity| * lot.price) =
      (a.sell t d).lots.map fun lot => lot.quantity * lot.price :=
    List.map_congr_left fun lot member => by rw [abs_of_pos (long lot member)]
  exact congrArg List.sum absolute

end Sell

end PositionAggregate

/-! ## The reference queue -/

/-- What an event does to a first-in first-out queue of shares. -/
def fifoStep (q : ShareQueue LotKey Decimal) (event : TradeEvent) : ShareQueue LotKey Decimal :=
  match event.eventType, event.data with
  | .tradeBuy, .trade d =>
    ShareQueue.enqueue ⟨toLex (event.timestamp, UUID.uuid5 d.tradeId "lot"), d.quantity, d.price⟩ q
  | .tradeSell, .trade d => ShareQueue.pop d.quantity q
  | .stockSplit, .corporateAction d => ShareQueue.scale d.splitRatio q
  | _, _ => q

def fifoQueue (events : List TradeEvent) : ShareQueue LotKey Decimal := events.foldl fifoStep []

namespace TradeEvent

def buyValue (event : TradeEvent) : Decimal :=
  match event.eventType, event.data with
  | .tradeBuy, .trade d => d.quantity * d.price
  | _, _ => 0

def sellValue (event : TradeEvent) : Decimal :=
  match event.eventType, event.data with
  | .tradeSell, .trade d => d.quantity * d.price
  | _, _ => 0

def dividendCash (event : TradeEvent) : Decimal :=
  match event.eventType, event.data with
  | .dividendPaid, .corporateAction d => d.dividendAmount
  | _, _ => 0

end TradeEvent

/-- No sell exceeds the quantity held before it. -/
def LongOnly (quantity : Decimal) : List TradeEvent → Prop
  | [] => True
  | event :: rest => (∀ sold ∈ event.sold, sold ≤ quantity) ∧ LongOnly (event.held quantity) rest

theorem LongOnly.append {quantity : Decimal} {first rest : List TradeEvent}
    (long : LongOnly quantity (first ++ rest)) :
    LongOnly quantity first ∧ LongOnly (first.foldl TradeEvent.held quantity) rest := by
  induction first generalizing quantity with
  | nil => exact ⟨trivial, long⟩
  | cons event first ih =>
    obtain ⟨covered, later⟩ := long
    obtain ⟨left, right⟩ := ih later
    exact ⟨⟨covered, left⟩, right⟩

/-- The aggregate's lots describe the queue, and its counters agree with them. -/
structure Describes (a : PositionAggregate) (q : ShareQueue LotKey Decimal) : Prop where
  long : AllLong a.lots
  quantity : a.quantity = lotsQuantity a.lots
  queue : openShares a.lots = q
  cost : a.costBasis = lotsCost a.lots

namespace Describes

variable {a : PositionAggregate} {q : ShareQueue LotKey Decimal}

theorem buy (describes : Describes a q) (t : Datetime) {d : TradeEventData}
    (positive : 0 < d.quantity) :
    Describes (a.buy t d)
      (ShareQueue.enqueue ⟨toLex (t, UUID.uuid5 d.tradeId "lot"), d.quantity, d.price⟩ q) where
  long := by
    intro lot member
    rcases List.mem_append.mp member with old | new
    · exact describes.long lot old
    · rw [List.mem_singleton.mp new]
      exact positive
  quantity := by
    simp only [PositionAggregate.buy, lotsQuantity_append, lotsQuantity_cons, lotsQuantity_nil,
      describes.quantity, add_zero]
  queue := by
    rw [← describes.queue]
    exact openShares_append a.lots _
  cost := by
    simp [PositionAggregate.buy, lotsCost, describes.cost]

theorem sell (describes : Describes a q) (t : Datetime) {d : TradeEventData}
    (positive : 0 < d.quantity) (covered : d.quantity ≤ a.quantity) :
    Describes (a.sell t d) (ShareQueue.pop d.quantity q) := by
  rw [describes.quantity] at covered
  have long := PositionAggregate.allLong_sell t d describes.long positive covered
  refine ⟨long, ?_, ?_, PositionAggregate.costBasis_sell t d long⟩
  · rw [PositionAggregate.lotsQuantity_sell a t d positive, shortQuantity_long describes.long,
      ← describes.quantity, sub_zero]
    rfl
  · rw [PositionAggregate.openShares_sell t d describes.long positive covered, describes.queue]

theorem split (describes : Describes a q) {d : CorporateActionEventData} (ratio : 0 < d.splitRatio) :
    Describes (a.split d) (ShareQueue.scale d.splitRatio q) where
  long := by
    intro lot member
    obtain ⟨old, held, rfl⟩ := List.mem_map.mp member
    exact mul_pos (describes.long old held) ratio
  quantity := by
    simp only [PositionAggregate.split, lotsQuantity_scale, describes.quantity]
  queue := by
    rw [← describes.queue]
    exact openShares_scale d.splitRatio a.lots
  cost := by
    rw [← cost_openShares]
    change a.costBasis = (openShares (a.lots.map (PositionAggregate.scaleLot d.splitRatio))).cost
    rw [openShares_scale, ShareQueue.cost_scale ratio.ne', cost_openShares, describes.cost]

theorem dividend (describes : Describes a q) (d : CorporateActionEventData) :
    Describes (a.dividend d) q :=
  ⟨describes.long, describes.quantity, describes.queue, describes.cost⟩

/-- One event: the queue follows, the quantity is the net quantity, and cash
is conserved between realized profit and the cost of the open shares. -/
theorem step (describes : Describes a q) {event : TradeEvent} (formed : event.WellFormed)
    (covered : ∀ sold ∈ event.sold, sold ≤ a.quantity) :
    Describes (a.after event) (fifoStep q event) ∧
      (a.after event).quantity = event.held a.quantity ∧
      (a.after event).realizedPnl - ShareQueue.cost (fifoStep q event) =
        a.realizedPnl - ShareQueue.cost q + event.sellValue - event.buyValue +
          event.dividendCash := by
  cases formed with
  | buy t d quantity price =>
    refine ⟨describes.buy t quantity, rfl, ?_⟩
    change a.realizedPnl - ShareQueue.cost (ShareQueue.enqueue _ q) = _
    rw [ShareQueue.cost_enqueue]
    simp only [TradeEvent.sellValue, TradeEvent.buyValue, TradeEvent.dividendCash]
    ring
  | sell t d quantity price =>
    have enough : d.quantity ≤ a.quantity := covered d.quantity rfl
    refine ⟨describes.sell t quantity enough, rfl, ?_⟩
    have whole := ShareQueue.cost_front_add_pop d.quantity q
    rw [PositionAggregate.after_sell, PositionAggregate.realized_sell t d describes.long quantity
      (describes.quantity ▸ enough), describes.queue]
    simp only [fifoStep, TradeEvent.sellValue, TradeEvent.buyValue, TradeEvent.dividendCash]
    linarith
  | split t d ratio =>
    refine ⟨describes.split ratio, rfl, ?_⟩
    simp only [fifoStep, ShareQueue.cost_scale ratio.ne', TradeEvent.sellValue,
      TradeEvent.buyValue, TradeEvent.dividendCash, add_zero, sub_zero]
    rfl
  | dividend t d =>
    refine ⟨describes.dividend d, rfl, ?_⟩
    simp only [fifoStep, PositionAggregate.after_dividend, PositionAggregate.dividend,
      TradeEvent.sellValue, TradeEvent.buyValue, TradeEvent.dividendCash]
    ring

theorem run (describes : Describes a q) {events : List TradeEvent}
    (formed : ∀ event ∈ events, event.WellFormed) (long : LongOnly a.quantity events) :
    Describes (events.foldl PositionAggregate.after a) (events.foldl fifoStep q) ∧
      (events.foldl PositionAggregate.after a).quantity = events.foldl TradeEvent.held a.quantity ∧
      (events.foldl PositionAggregate.after a).realizedPnl
          - ShareQueue.cost (events.foldl fifoStep q) =
        a.realizedPnl - ShareQueue.cost q + (events.map TradeEvent.sellValue).sum -
          (events.map TradeEvent.buyValue).sum + (events.map TradeEvent.dividendCash).sum := by
  induction events generalizing a q with
  | nil => exact ⟨describes, rfl, by simp⟩
  | cons event rest ih =>
    obtain ⟨covered, later⟩ := long
    obtain ⟨next, quantity, cash⟩ := describes.step (formed event (by simp)) covered
    have onward := ih next (fun e member => formed e (List.mem_cons_of_mem event member))
      (quantity ▸ later)
    obtain ⟨final, net, total⟩ := onward
    rw [quantity] at net
    refine ⟨final, net, ?_⟩
    simp only [List.foldl_cons, List.map_cons, List.sum_cons]
    rw [total, cash]
    ring

theorem start (portfolioId : UUID) (instrumentId : String) :
    Describes (.empty portfolioId instrumentId) [] :=
  ⟨by simp [AllLong, PositionAggregate.empty], rfl, rfl, rfl⟩

end Describes

/-- Selling `sold` at `price` took `b` to `c` and consumed the oldest shares of
`b`: every share left is the one that was `sold` deeper, and the profit is the
proceeds less the cost of the shares in front. -/
def ConsumesOldest (b c : PositionAggregate) (sold price : Decimal) : Prop :=
  sold ≤ (openShares b.lots).size ∧
    (∀ depth, 0 ≤ depth →
      (openShares c.lots).shareAt depth = (openShares b.lots).shareAt (depth + sold)) ∧
    c.realizedPnl - b.realizedPnl =
      sold * price - ShareQueue.cost (ShareQueue.front sold (openShares b.lots))

theorem Describes.consumesOldest {a : PositionAggregate} {q : ShareQueue LotKey Decimal}
    (describes : Describes a q) (t : Datetime) {d : TradeEventData} (positive : 0 < d.quantity)
    (covered : d.quantity ≤ a.quantity) : ConsumesOldest a (a.sell t d) d.quantity d.price := by
  rw [describes.quantity] at covered
  refine ⟨by rwa [size_openShares], fun depth deep => ?_, ?_⟩
  · rw [PositionAggregate.openShares_sell t d describes.long positive covered,
      ShareQueue.shareAt_pop _ _ deep]
  · rw [PositionAggregate.realized_sell t d describes.long positive covered]
    ring

theorem fifo_conservation {portfolioId : UUID} {instrumentId : String} {events : List TradeEvent}
    (owned : ∀ event ∈ events, event.OwnedBy portfolioId instrumentId)
    (formed : ∀ event ∈ events, event.WellFormed) (long : LongOnly 0 events) :
    ∃ a, PositionAggregate.fromEvents portfolioId instrumentId events = .ok a ∧
      a.realizedPnl - (events.map TradeEvent.dividendCash).sum =
        (events.map TradeEvent.sellValue).sum - (events.map TradeEvent.buyValue).sum +
          (a.lots.map fun lot => lot.quantity * lot.price).sum ∧
      a.costBasis = (a.lots.map fun lot => lot.quantity * lot.price).sum ∧
      openShares a.lots = fifoQueue events ∧
      ∀ before t d later, events = before ++ ⟨.tradeSell, t, .trade d⟩ :: later →
        ∃ b c, PositionAggregate.fromEvents portfolioId instrumentId before = .ok b ∧
          PositionAggregate.fromEvents portfolioId instrumentId
            (before ++ [⟨.tradeSell, t, .trade d⟩]) = .ok c ∧
          ConsumesOldest b c d.quantity d.price := by
  have start := Describes.start portfolioId instrumentId
  obtain ⟨final, -, cash⟩ := start.run formed long
  have folded : ∀ history : List TradeEvent, (∀ event ∈ history, event ∈ events) →
      PositionAggregate.fromEvents portfolioId instrumentId history =
        .ok (history.foldl PositionAggregate.after (.empty portfolioId instrumentId)) :=
    fun history part => PositionAggregate.fromEvents_ok (fun e member => owned e (part e member))
      fun e member => (formed e (part e member)).applicable
  refine ⟨_, folded events fun _ => id, ?_, final.cost, final.queue, ?_⟩
  · change _ = _ + lotsCost _
    rw [← cost_openShares, final.queue]
    have nothing : (PositionAggregate.empty portfolioId instrumentId).realizedPnl = 0 := rfl
    rw [nothing, ShareQueue.cost_nil] at cash
    linarith
  · rintro before t d later rfl
    obtain ⟨longBefore, covered, -⟩ := LongOnly.append long
    have formedBefore : ∀ event ∈ before, event.WellFormed := fun e member => formed e (by simp [member])
    obtain ⟨describes, quantity, -⟩ := start.run formedBefore longBefore
    have positive : 0 < d.quantity := by
      cases formed ⟨.tradeSell, t, .trade d⟩ (by simp) with
      | sell t d quantity price => exact quantity
    have upTo := folded (before ++ [⟨.tradeSell, t, .trade d⟩]) fun e member => by
      rcases List.mem_append.mp member with old | new
      · exact List.mem_append_left _ old
      · exact List.mem_append_right _ (List.mem_cons.mpr (.inl (List.mem_singleton.mp new)))
    rw [List.foldl_append] at upTo
    refine ⟨_, _, folded before fun e member => List.mem_append_left _ member, upTo,
      describes.consumesOldest t positive ?_⟩
    rw [quantity]
    exact covered d.quantity rfl

/-- Two buys, a split, a sell that spans both lots, and a dividend. -/
def buySplitSell : List TradeEvent :=
  let trade := fun (id : UUID) (side : TradeSide) (quantity price : Decimal) =>
    TradeEventData.mk (.ofNat 7) "AAPL" side quantity price id "USD"
  let action := fun (ratio amount : Decimal) => CorporateActionEventData.mk (.ofNat 7) "AAPL"
    "USD" (.ofNat 9) ratio amount
  [⟨.tradeBuy, 1, .trade (trade (.ofNat 1) .buy 10 100)⟩,
    ⟨.tradeBuy, 2, .trade (trade (.ofNat 2) .buy 5 120)⟩,
    ⟨.stockSplit, 3, .corporateAction (action 2 0)⟩,
    ⟨.tradeSell, 4, .trade (trade (.ofNat 3) .sell 24 70)⟩,
    ⟨.dividendPaid, 5, .corporateAction (action 1 30)⟩]

theorem fifo_conservation_buySplitSell :
    ∃ a, PositionAggregate.fromEvents ⟨7, by decide⟩ "AAPL" buySplitSell = .ok a ∧
      a.realizedPnl - (buySplitSell.map TradeEvent.dividendCash).sum =
        (buySplitSell.map TradeEvent.sellValue).sum - (buySplitSell.map TradeEvent.buyValue).sum +
          (a.lots.map fun lot => lot.quantity * lot.price).sum := by
  have owned : ∀ event ∈ buySplitSell, event.OwnedBy ⟨7, by decide⟩ "AAPL" := by decide
  have formed : ∀ event ∈ buySplitSell, event.WellFormed := by
    simp only [buySplitSell, List.forall_mem_cons]
    refine ⟨.buy _ _ ?_ ?_, .buy _ _ ?_ ?_, .split _ _ ?_, .sell _ _ ?_ ?_, .dividend _ _, by simp⟩
    all_goals norm_num
  have long : LongOnly 0 buySplitSell := by
    simp [buySplitSell, LongOnly, TradeEvent.sold, TradeEvent.held]
    norm_num
  obtain ⟨a, folded, cash, -⟩ := fifo_conservation owned formed long
  exact ⟨a, folded, cash⟩

end MiniHedge.Positions
