import MiniHedge.Positions.Fifo
import MiniHedge.Positions.MarkToMarket

/-! The realized and the unrealized profit of a position against the money that its trades made.

A history is followed up to the trade that takes the position short. Until then
the cost basis is what the open lots cost; after that trade it is what the short
lot was sold for. Whatever trades next counts a short lot as if it were long, or
forgets it.
-/

set_option autoImplicit false

namespace MiniHedge.Positions

open MiniHedge.Python MiniHedge.Library

/-! ## What is to hold -/

/-- The factor that the market value applies to quantity times price. -/
def AssetClass.unitMultiplier : AssetClass → Decimal
  | .fixedIncome => 1 / 100
  | .option => 100
  | _ => 1

/-- What the sells have brought in and the buys have cost. -/
def proceeds (events : List TradeEvent) : Decimal :=
  (events.map TradeEvent.sellValue).sum - (events.map TradeEvent.buyValue).sum

/-- At every mark the total profit is the money that the trades made. -/
def TotalPnl (portfolioId : UUID) (instrumentId : String) (c : AssetClass)
    (strategy : PositionStrategy) (events : List TradeEvent) : Prop :=
  ∃ a, PositionAggregate.fromEvents portfolioId instrumentId events = .ok a ∧ ∀ price,
    c.unitMultiplier * a.realizedPnl + strategy.unrealizedPnl {} a.quantity a.costBasis price =
      c.unitMultiplier * (proceeds events + a.quantity * price)

namespace TradeEvent

/-- A buy or a sell of a positive quantity at a positive price. -/
inductive Traded : TradeEvent → Prop where
  | buy (t : Datetime) (d : TradeEventData) (quantity : 0 < d.quantity) (price : 0 < d.price) :
      Traded ⟨.tradeBuy, t, .trade d⟩
  | sell (t : Datetime) (d : TradeEventData) (quantity : 0 < d.quantity) (price : 0 < d.price) :
      Traded ⟨.tradeSell, t, .trade d⟩

theorem Traded.wellFormed {event : TradeEvent} (traded : event.Traded) : event.WellFormed := by
  cases traded with
  | buy t d quantity price => exact .buy t d quantity price
  | sell t d quantity price => exact .sell t d quantity price

end TradeEvent

/-! ## The condition -/

def netQuantity (events : List TradeEvent) : Decimal := events.foldl TradeEvent.held 0

/-- No trade is made while the position is short. -/
def Uncontinued (events : List TradeEvent) : Prop :=
  ∀ before event after, events = before ++ event :: after → 0 ≤ netQuantity before

/-- The quantities at which the units of the cost basis do not matter. -/
def AssetClass.Fits (c : AssetClass) (quantity : Decimal) : Prop :=
  match c with
  | .option => quantity = 0
  | .fixedIncome => quantity = 0 ∨ |quantity| = 1
  | _ => True

/-! ## The identity without the mark -/

/-- What the profit realized must exceed the proceeds by. -/
def AssetClass.due (c : AssetClass) (quantity costBasis : Decimal) : Decimal :=
  let directed := if quantity < 0 then -costBasis else costBasis
  match c with
  | .option => directed / 100
  | .fixedIncome => quantity * costBasis
  | _ => directed

theorem directedPnl_eq (quantity costBasis price unit : Decimal) :
    directedPnl quantity costBasis (|quantity| * price * unit) =
      quantity * price * unit - if quantity < 0 then -costBasis else costBasis := by
  unfold directedPnl
  split
  · rename_i short
    rw [abs_of_neg short]
    ring
  · rename_i long
    rw [abs_of_nonneg (not_lt.mp long)]

theorem identity_iff {c : AssetClass} {strategy : PositionStrategy}
    (registered : getPositionStrategy c = some strategy) (a : PositionAggregate) (money : Decimal) :
    (∀ price, c.unitMultiplier * a.realizedPnl +
        strategy.unrealizedPnl {} a.quantity a.costBasis price =
          c.unitMultiplier * (money + a.quantity * price)) ↔
      a.realizedPnl - money = c.due a.quantity a.costBasis := by
  have marked : ∀ price,
      strategy.unrealizedPnl {} a.quantity a.costBasis price = c.unitMultiplier *
        (a.quantity * price - c.due a.quantity a.costBasis) := by
    intro price
    have equal := directedPnl_eq a.quantity a.costBasis price
    cases c <;> cases registered <;> simp only [equityPositionStrategy, fixedIncomePositionStrategy,
      optionPositionStrategy, futurePositionStrategy, AssetClass.unitMultiplier, AssetClass.due, equal]
    · have unit := equal 1
      rw [mul_one, mul_one] at unit
      rw [unit, one_mul]
    · ring
    · ring
    · ring
    · have unit := equal 1
      rw [mul_one, mul_one] at unit
      rw [unit, one_mul]
  have positive : c.unitMultiplier ≠ 0 := by
    cases c <;> norm_num [AssetClass.unitMultiplier]
  simp only [marked, ← mul_add, mul_right_inj' positive]
  constructor
  · intro each
    have flat := each 0
    linarith
  · intro same price
    linarith

/-! ## Lots that are priced -/

def AllPriced (lots : List LotState) : Prop := ∀ lot ∈ lots, 0 < lot.price

/-- What the open lots cost is nothing only if there are none. -/
theorem lotsCost_pos {lots : List LotState} (long : AllLong lots) (priced : AllPriced lots)
    (open_ : lots ≠ []) : 0 < lotsCost lots := by
  induction lots with
  | nil => exact absurd rfl open_
  | cons lot rest ih =>
    have first : 0 < lot.quantity * lot.price := mul_pos (long lot (by simp)) (priced lot (by simp))
    rw [lotsCost, List.map_cons, List.sum_cons]
    by_cases last : rest = []
    · simpa [last] using first
    · exact add_pos first (ih (fun l member => long l (List.mem_cons_of_mem lot member))
        (fun l member => priced l (List.mem_cons_of_mem lot member)) last)

theorem lotsQuantity_pos {lots : List LotState} (long : AllLong lots) (open_ : lots ≠ []) :
    0 < lotsQuantity lots := by
  cases lots with
  | nil => exact absurd rfl open_
  | cons lot rest =>
    rw [lotsQuantity_cons]
    exact add_pos_of_pos_of_nonneg (long lot (by simp))
      (lotsQuantity_nonneg fun l member => long l (List.mem_cons_of_mem lot member))

section Matching

variable (price : Decimal)

/-- The loop leaves the prices of the lots. -/
theorem matchLots_priced {entries : List (LotState × Nat)} (priced : AllPriced (entries.map Prod.fst))
    (remaining realized : Decimal) :
    AllPriced ((matchLots price remaining realized entries).lots.map Prod.fst) := by
  induction entries generalizing remaining realized with
  | nil => exact priced
  | cons entry entries ih =>
    obtain ⟨lot, place⟩ := entry
    by_cases stop : remaining ≤ 0 ∨ lot.quantity ≤ 0
    · rwa [matchLots, if_pos stop]
    · rw [matchLots, if_neg stop]
      intro changed member
      rcases List.mem_cons.mp member with rfl | later
      · exact priced lot (by simp)
      · exact ih (fun l inside => priced l (by simp [inside])) _ _ changed later

/-- A sell of more than the lots realizes their cost. -/
theorem matchLots_realized_all {remaining : Decimal} (realized : Decimal)
    {entries : List (LotState × Nat)} (long : AllLong (entries.map Prod.fst))
    (uncovered : lotsQuantity (entries.map Prod.fst) < remaining) :
    (matchLots price remaining realized entries).realized =
      realized + (lotsQuantity (entries.map Prod.fst) * price - lotsCost (entries.map Prod.fst)) := by
  induction entries generalizing remaining realized with
  | nil => simp [matchLots, lotsCost]
  | cons entry entries ih =>
    obtain ⟨lot, place⟩ := entry
    have first : 0 < lot.quantity := long lot (by simp)
    have rest : AllLong (entries.map Prod.fst) := fun l member => long l (by simp [member])
    have total := lotsQuantity_nonneg rest
    rw [List.map_cons, lotsQuantity_cons] at uncovered
    rw [matchLots, if_neg (by rintro (le | le) <;> linarith), min_eq_right (by linarith)]
    simp only [List.map_cons, lotsQuantity_cons, lotsCost, List.sum_cons]
    rw [ih _ rest (by linarith), lotsCost]
    ring

end Matching

namespace PositionAggregate

variable {a : PositionAggregate} (t : Datetime) {d : TradeEventData}

theorem allPriced_buy (priced : AllPriced a.lots) (price : 0 < d.price) :
    AllPriced (a.buy t d).lots := by
  intro lot member
  rcases List.mem_append.mp member with old | new
  · exact priced lot old
  · rw [List.mem_singleton.mp new]
    exact price

theorem allPriced_sell (priced : AllPriced a.lots) (price : 0 < d.price) :
    AllPriced (a.sell t d).lots := by
  have ordered : AllPriced ((fifoOrder a.lots).map Prod.fst) :=
    fun lot member => priced lot ((fifoOrder_perm a.lots).mem_iff.mp member)
  have matched := matchLots_priced d.price ordered d.quantity 0
  have kept : AllPriced ((inPlace (a.matching d).lots).filter fun lot => 0 < lot.quantity) :=
    fun lot member => matched lot ((inPlace_perm _).mem_iff.mp (List.mem_filter.mp member).1)
  change AllPriced (a.lotsAfterSell t d)
  unfold lotsAfterSell
  dsimp only
  split
  · intro lot member
    rcases List.mem_append.mp member with old | new
    · exact kept lot old
    · rw [List.mem_singleton.mp new]
      exact price
  · exact kept

/-- A sell of more than the lots leaves a short lot only. -/
theorem sell_uncovered (long : AllLong a.lots) (positive : 0 < d.quantity)
    (uncovered : lotsQuantity a.lots < d.quantity) :
    ∃ lot, (a.sell t d).lots = [lot] ∧ lot.quantity = lotsQuantity a.lots - d.quantity ∧
      lot.price = d.price ∧
      (a.sell t d).realizedPnl = a.realizedPnl + (lotsQuantity a.lots * d.price - lotsCost a.lots) := by
  have remaining : (a.matching d).remaining = d.quantity - lotsQuantity a.lots := by
    rw [matching_remaining d long positive, max_eq_left (sub_nonneg.mpr uncovered.le)]
  have none : (inPlace (a.matching d).lots).filter (fun lot => 0 < lot.quantity) = [] := by
    by_contra open_
    have some := lotsQuantity_pos (allLong_filter _) open_
    rw [lotsQuantity_filter, matching_lotsQuantity, matching_shortQuantity,
      shortQuantity_long long, remaining] at some
    linarith
  have ordered := allLong_fifoOrder long
  have realized := matchLots_realized_all d.price 0 ordered
    (by rwa [lotsQuantity_perm (fifoOrder_perm a.lots)])
  have cost : lotsCost ((fifoOrder a.lots).map Prod.fst) = lotsCost a.lots :=
    ((fifoOrder_perm a.lots).map _).sum_eq
  rw [lotsQuantity_perm (fifoOrder_perm a.lots), cost, zero_add] at realized
  have short : 0 < (a.matching d).remaining := by
    rw [remaining]
    exact sub_pos.mpr uncovered
  have left : ∃ lot, a.lotsAfterSell t d = [lot] ∧ lot.quantity = -(a.matching d).remaining ∧
      lot.price = d.price := by
    simp only [lotsAfterSell, none, if_pos short, List.nil_append]
    exact ⟨_, rfl, rfl, rfl⟩
  obtain ⟨lot, only, quantity, price⟩ := left
  refine ⟨lot, only, ?_, price, congrArg (a.realizedPnl + ·) realized⟩
  rw [quantity, remaining]
  ring

/-- A sell never looks past a short lot. -/
theorem sell_short {lot : LotState} (only : a.lots = [lot]) (short : lot.quantity < 0)
    (positive : 0 < d.quantity) :
    (a.sell t d).realizedPnl = a.realizedPnl ∧ (a.sell t d).costBasis = d.quantity * d.price := by
  have matched : a.matching d = ⟨d.quantity, 0, [(lot, 0)]⟩ := by
    have sorted : fifoOrder [lot] = [(lot, 0)] := rfl
    rw [matching, only, sorted, matchLots, if_pos (.inr short.le)]
  have place : inPlace [(lot, 0)] = [lot] := rfl
  constructor
  · change a.realizedPnl + (a.matching d).realized = _
    rw [matched, add_zero]
  · change ((a.lotsAfterSell t d).map fun lot => |lot.quantity| * lot.price).sum = _
    simp [lotsAfterSell, matched, place, positive, not_lt.mpr short.le, abs_of_pos positive]

end PositionAggregate

/-! ## Before and after the position is short -/

section Books

variable {portfolioId : UUID} {instrumentId : String} {events : List TradeEvent}

/-- The aggregate of a history. -/
def folded (portfolioId : UUID) (instrumentId : String) (events : List TradeEvent) :
    PositionAggregate :=
  events.foldl PositionAggregate.after (.empty portfolioId instrumentId)

structure LongBooks (events : List TradeEvent) (a : PositionAggregate) : Prop where
  long : AllLong a.lots
  priced : AllPriced a.lots
  quantity : a.quantity = lotsQuantity a.lots
  net : a.quantity = netQuantity events
  cost : a.costBasis = lotsCost a.lots
  realized : a.realizedPnl - proceeds events = lotsCost a.lots

structure ShortBooks (events : List TradeEvent) (a : PositionAggregate) : Prop where
  lot : ∃ lot, a.lots = [lot] ∧ lot.quantity < 0
  short : a.quantity < 0
  net : a.quantity = netQuantity events
  cost : 0 < a.costBasis
  realized : a.realizedPnl - proceeds events = -a.costBasis

theorem traded_init {before : List TradeEvent} {event : TradeEvent}
    (traded : ∀ e ∈ before ++ [event], e.Traded) :
    (∀ e ∈ before, e.Traded) ∧ event.Traded :=
  ⟨fun e member => traded e (List.mem_append_left _ member), traded event (by simp)⟩

theorem folded_append (before : List TradeEvent) (event : TradeEvent) :
    folded portfolioId instrumentId (before ++ [event]) =
      (folded portfolioId instrumentId before).after event := by
  simp [folded]

theorem netQuantity_append (before : List TradeEvent) (event : TradeEvent) :
    netQuantity (before ++ [event]) = event.held (netQuantity before) := by
  simp [netQuantity]

theorem proceeds_append (before : List TradeEvent) (event : TradeEvent) :
    proceeds (before ++ [event]) = proceeds before + event.sellValue - event.buyValue := by
  simp only [proceeds, List.map_append, List.sum_append, List.map_singleton, List.sum_singleton]
  ring

theorem allPriced_folded (traded : ∀ event ∈ events, event.Traded) :
    AllPriced (folded portfolioId instrumentId events).lots := by
  induction events using List.reverseRecOn with
  | nil => simp [folded, AllPriced, PositionAggregate.empty]
  | append_singleton before event ih =>
    obtain ⟨first, last⟩ := traded_init traded
    rw [folded_append]
    cases last with
    | buy t d quantity price => exact PositionAggregate.allPriced_buy t (ih first) price
    | sell t d quantity price => exact PositionAggregate.allPriced_sell t (ih first) price

theorem dividendCash_traded (traded : ∀ event ∈ events, event.Traded) :
    (events.map TradeEvent.dividendCash).sum = 0 := by
  refine List.sum_eq_zero fun cash member => ?_
  obtain ⟨event, inside, rfl⟩ := List.mem_map.mp member
  cases traded event inside <;> rfl

theorem longBooks (traded : ∀ event ∈ events, event.Traded) (long : LongOnly 0 events) :
    LongBooks events (folded portfolioId instrumentId events) := by
  have start := Describes.start portfolioId instrumentId
  obtain ⟨describes, net, cash⟩ := start.run (fun e member => (traded e member).wellFormed) long
  refine ⟨describes.long, allPriced_folded traded, describes.quantity, net, describes.cost, ?_⟩
  have nothing : (PositionAggregate.empty portfolioId instrumentId).realizedPnl = 0 := rfl
  rw [← describes.queue, cost_openShares, dividendCash_traded traded, nothing,
    ShareQueue.cost_nil] at cash
  unfold proceeds folded
  linarith

/-- Without a trade after a short position, sells are covered. -/
theorem longOnly_of_net {quantity : Decimal}
    (net : ∀ before after, events = before ++ after → 0 ≤ before.foldl TradeEvent.held quantity)
    (traded : ∀ event ∈ events, event.Traded) : LongOnly quantity events := by
  induction events generalizing quantity with
  | nil => trivial
  | cons event rest ih =>
    refine ⟨?_, ih (fun before after split => ?_) fun e member =>
      traded e (List.mem_cons_of_mem event member)⟩
    · intro sold sells
      have first := net [event] rest rfl
      cases traded event (by simp) with
      | buy => cases sells
      | sell t d =>
        cases sells
        exact sub_nonneg.mp first
    · exact net (event :: before) after (by rw [split]; rfl)

theorem Uncontinued.left {before after : List TradeEvent}
    (uncontinued : Uncontinued (before ++ after)) : Uncontinued before := by
  rintro first event rest rfl
  exact uncontinued first event (rest ++ after) (by simp)

variable (portfolioId instrumentId) in
/-- A position that is not short has never been short. -/
theorem Uncontinued.longBooks (uncontinued : Uncontinued events)
    (traded : ∀ event ∈ events, event.Traded) (held : 0 ≤ netQuantity events) :
    LongBooks events (folded portfolioId instrumentId events) := by
  apply Positions.longBooks traded
  apply longOnly_of_net _ traded
  intro before after split
  cases after with
  | nil =>
    rw [List.append_nil] at split
    exact split ▸ held
  | cons event rest => exact uncontinued before event rest split

/-- A sell of more than is held opens one lot, for what it is short of. -/
theorem LongBooks.uncovered {before : List TradeEvent}
    (books : LongBooks before (folded portfolioId instrumentId before)) (t : Datetime) {d : TradeEventData}
    (quantity : 0 < d.quantity) (price : 0 < d.price) (short : netQuantity before - d.quantity < 0) :
    ShortBooks (before ++ [⟨.tradeSell, t, .trade d⟩])
      (folded portfolioId instrumentId (before ++ [⟨.tradeSell, t, .trade d⟩])) := by
  have uncovered : lotsQuantity (folded portfolioId instrumentId before).lots < d.quantity := by
    rw [← books.quantity, books.net]
    linarith
  obtain ⟨lot, only, size, unit, realized⟩ := PositionAggregate.sell_uncovered t books.long
    quantity uncovered
  have cost : ((folded portfolioId instrumentId before).sell t d).costBasis =
      |lot.quantity| * d.price := by
    change ((((folded portfolioId instrumentId before).sell t d).lots).map
      fun lot => |lot.quantity| * lot.price).sum = _
    rw [only, List.map_singleton, List.sum_singleton, unit]
  have negative : lot.quantity < 0 := by
    rw [size]
    exact sub_neg.mpr uncovered
  rw [folded_append, PositionAggregate.after_sell]
  refine ⟨⟨lot, only, negative⟩, ?_, ?_, ?_, ?_⟩
  · change (folded portfolioId instrumentId before).quantity - d.quantity < 0
    rwa [books.net]
  · change (folded portfolioId instrumentId before).quantity - d.quantity = _
    rw [netQuantity_append, books.net]
    rfl
  · rw [cost]
    exact mul_pos (abs_pos.mpr negative.ne) price
  · rw [cost, abs_of_neg negative, size, realized, proceeds_append]
    have before := books.realized
    simp only [TradeEvent.sellValue, TradeEvent.buyValue]
    linarith

variable (portfolioId instrumentId) in
/-- The position is long, or short since the last trade. -/
theorem Uncontinued.books (uncontinued : Uncontinued events)
    (traded : ∀ event ∈ events, event.Traded) :
    LongBooks events (folded portfolioId instrumentId events) ∨
      ShortBooks events (folded portfolioId instrumentId events) := by
  by_cases long : 0 ≤ netQuantity events
  · exact .inl (uncontinued.longBooks portfolioId instrumentId traded long)
  · refine .inr ?_
    induction events using List.reverseRecOn with
    | nil => exact absurd (le_refl (0 : Decimal)) long
    | append_singleton before event _ =>
      obtain ⟨first, last⟩ := traded_init traded
      have books := uncontinued.left.longBooks portfolioId instrumentId first (uncontinued before event [] rfl)
      rw [netQuantity_append, not_le] at long
      cases last with
      | buy t d quantity price =>
        -- a buy takes no position short
        change netQuantity before + d.quantity < 0 at long
        have held : 0 ≤ netQuantity before := uncontinued before _ [] rfl
        linarith
      | sell t d quantity price => exact books.uncovered t quantity price long

end Books

/-! ## What the units of the cost basis come to -/

section Due

variable {c : AssetClass} {quantity cost more : Decimal}

theorem due_long (long : 0 ≤ quantity) (flat : quantity = 0 ↔ cost = 0) :
    cost = c.due quantity cost ↔ c.Fits quantity := by
  have hundredth : cost = cost / 100 ↔ cost = 0 :=
    ⟨fun same => by linarith, fun zero => by rw [zero, zero_div]⟩
  have bond : cost = quantity * cost ↔ quantity = 0 ∨ |quantity| = 1 := by
    rw [abs_of_nonneg long, flat]
    constructor
    · intro same
      by_cases zero : cost = 0
      · exact .inl zero
      · exact .inr (mul_right_cancel₀ zero (by linarith))
    · rintro (zero | one)
      · rw [zero, mul_zero]
      · rw [one, one_mul]
  cases c <;> simp [AssetClass.due, AssetClass.Fits, not_lt.mpr long, flat, hundredth, bond]

theorem due_short (short : quantity < 0) (positive : 0 < cost) :
    -cost = c.due quantity cost ↔ c.Fits quantity := by
  have hundredth : ¬ -cost = -cost / 100 := fun same => by linarith
  have bond : -cost = quantity * cost ↔ quantity = 0 ∨ |quantity| = 1 := by
    rw [abs_of_neg short]
    constructor
    · intro same
      refine .inr (mul_right_cancel₀ positive.ne' ?_)
      linarith
    · rintro (zero | one)
      · exact absurd zero short.ne
      · rw [neg_eq_iff_eq_neg.mp one]
        ring
  cases c <;> simp [AssetClass.due, AssetClass.Fits, short, short.ne, hundredth, bond]

end Due

/-! ## Histories -/

section Histories

variable {portfolioId : UUID} {instrumentId : String} {c : AssetClass} {strategy : PositionStrategy}
  {events : List TradeEvent}

theorem totalPnl_iff_due (registered : getPositionStrategy c = some strategy)
    (owned : ∀ event ∈ events, event.OwnedBy portfolioId instrumentId)
    (traded : ∀ event ∈ events, event.Traded) :
    TotalPnl portfolioId instrumentId c strategy events ↔
      (folded portfolioId instrumentId events).realizedPnl - proceeds events =
        c.due (folded portfolioId instrumentId events).quantity
          (folded portfolioId instrumentId events).costBasis := by
  have applied := PositionAggregate.fromEvents_ok owned fun event member =>
    (traded event member).wellFormed.applicable
  rw [← identity_iff registered, TotalPnl, applied]
  simp only [Except.ok.injEq, exists_eq_left']
  rfl

/-- Up to the trade that takes the position short, only the units can be wrong. -/
theorem Uncontinued.totalPnl_iff (uncontinued : Uncontinued events)
    (registered : getPositionStrategy c = some strategy)
    (owned : ∀ event ∈ events, event.OwnedBy portfolioId instrumentId)
    (traded : ∀ event ∈ events, event.Traded) :
    TotalPnl portfolioId instrumentId c strategy events ↔ c.Fits (netQuantity events) := by
  rw [totalPnl_iff_due registered owned traded]
  rcases uncontinued.books portfolioId instrumentId traded with
    books | books
  · rw [books.realized, books.cost, ← books.net]
    refine due_long ?_ ?_
    · rw [books.quantity]
      exact lotsQuantity_nonneg books.long
    · rw [books.quantity]
      constructor
      · intro flat
        by_contra cost
        have open_ : (folded portfolioId instrumentId events).lots ≠ [] := by
          intro none
          rw [none] at cost
          exact cost rfl
        exact (lotsQuantity_pos books.long open_).ne' flat
      · intro cost
        by_contra flat
        have open_ : (folded portfolioId instrumentId events).lots ≠ [] := by
          intro none
          rw [none] at flat
          exact flat rfl
        exact (lotsCost_pos books.long books.priced open_).ne' cost
  · rw [books.realized, ← books.net]
    exact due_short books.short books.cost

/-- The trade after a short position spoils the identity where the units are right. -/
theorem ShortBooks.continued {before : List TradeEvent} {event : TradeEvent}
    (books : ShortBooks before (folded portfolioId instrumentId before)) (traded : event.Traded)
    (directed : ∀ quantity cost, c.due quantity cost = if quantity < 0 then -cost else cost) :
    (folded portfolioId instrumentId (before ++ [event])).realizedPnl -
        proceeds (before ++ [event]) ≠
      c.due (folded portfolioId instrumentId (before ++ [event])).quantity
        (folded portfolioId instrumentId (before ++ [event])).costBasis := by
  have realized := books.realized
  have cost := books.cost
  rw [folded_append, proceeds_append, directed]
  cases traded with
  | buy t d quantity price =>
    have paid := mul_pos quantity price
    change (folded portfolioId instrumentId before).realizedPnl -
        (proceeds before + 0 - d.quantity * d.price) ≠
      if _ < (0 : Decimal) then
        -((folded portfolioId instrumentId before).costBasis + d.quantity * d.price)
      else (folded portfolioId instrumentId before).costBasis + d.quantity * d.price
    split <;> intro same <;> linarith
  | sell t d quantity price =>
    have received := mul_pos quantity price
    obtain ⟨lot, only, short⟩ := books.lot
    obtain ⟨kept, basis⟩ := PositionAggregate.sell_short t only short quantity
    rw [PositionAggregate.after_sell, kept, basis]
    simp only [TradeEvent.sellValue, TradeEvent.buyValue]
    split <;> intro same <;> linarith

theorem due_directed (apart : c ≠ .option ∧ c ≠ .fixedIncome) (quantity cost : Decimal) :
    c.due quantity cost = if quantity < 0 then -cost else cost := by
  cases c with
  | option => exact absurd rfl apart.1
  | fixedIncome => exact absurd rfl apart.2
  | _ => rfl

/-- If the identity holds throughout, no trade is made while the position is short. -/
theorem uncontinued_of_totalPnl (registered : getPositionStrategy c = some strategy)
    (owned : ∀ event ∈ events, event.OwnedBy portfolioId instrumentId)
    (traded : ∀ event ∈ events, event.Traded) (apart : c ≠ .option ∧ c ≠ .fixedIncome)
    (throughout : ∀ before after, events = before ++ after →
      TotalPnl portfolioId instrumentId c strategy before) : Uncontinued events := by
  induction events using List.reverseRecOn with
  | nil =>
    intro before event after split
    simp at split
  | append_singleton init last ih =>
    obtain ⟨first, traded'⟩ := traded_init traded
    have shorter := ih (fun e member => owned e (List.mem_append_left _ member)) first
      fun before after split => throughout before (after ++ [last]) (by rw [split, List.append_assoc])
    have held : 0 ≤ netQuantity init := by
      by_contra short
      have books := shorter.books portfolioId instrumentId first
      rcases books with books | books
      · refine short ?_
        rw [← books.net, books.quantity]
        exact lotsQuantity_nonneg books.long
      · exact books.continued traded' (due_directed apart)
          ((totalPnl_iff_due registered owned traded).mp (throughout _ [] (List.append_nil _).symm))
    intro before event after split
    rcases List.eq_nil_or_concat after with none | ⟨rest, e, rfl⟩
    · subst none
      obtain ⟨rfl, -⟩ := List.append_inj' split rfl
      exact held
    · have whole : init ++ [last] = (before ++ event :: rest) ++ [e] := by simpa using split
      obtain ⟨rfl, -⟩ := List.append_inj' whole rfl
      exact shorter before event rest rfl

/-- An option position is flat only before its first trade. -/
theorem fits_option {event : TradeEvent} (traded : event.Traded) :
    ¬ AssetClass.option.Fits (netQuantity [event]) := by
  intro flat
  cases traded with
  | buy t d quantity price =>
    change (0 : Decimal) + d.quantity = 0 at flat
    linarith
  | sell t d quantity price =>
    change (0 : Decimal) - d.quantity = 0 at flat
    linarith

/-- Throughout a history the total profit is the money that the trades made exactly if no trade is
made while the position is short and the units of its cost basis do not matter. -/
theorem totalPnl_throughout_iff (registered : getPositionStrategy c = some strategy)
    (owned : ∀ event ∈ events, event.OwnedBy portfolioId instrumentId)
    (traded : ∀ event ∈ events, event.Traded) :
    ((∀ before after, events = before ++ after →
        TotalPnl portfolioId instrumentId c strategy before) ∧
      (c = .fixedIncome → Uncontinued events)) ↔
      Uncontinued events ∧
        ∀ before after, events = before ++ after → c.Fits (netQuantity before) := by
  have prefixes : ∀ before after, events = before ++ after → Uncontinued before →
      (TotalPnl portfolioId instrumentId c strategy before ↔ c.Fits (netQuantity before)) := by
    intro before after split uncontinued
    have part : ∀ event ∈ before, event ∈ events := fun event member =>
      split ▸ List.mem_append_left _ member
    exact uncontinued.totalPnl_iff registered (fun event member => owned event (part event member))
      fun event member => traded event (part event member)
  constructor
  · rintro ⟨throughout, bond⟩
    have uncontinued : Uncontinued events := by
      by_cases option : c = .option
      · cases events with
        | nil =>
          intro before event after split
          simp at split
        | cons event rest =>
          have single : Uncontinued [event] := by
            intro before e after split
            cases before with
            | nil => exact le_refl _
            | cons _ _ => simp at split
          refine absurd ((prefixes [event] rest rfl single).mp (throughout [event] rest rfl)) ?_
          rw [option]
          exact fits_option (traded event (by simp))
      · by_cases income : c = .fixedIncome
        · exact bond income
        · exact uncontinued_of_totalPnl registered owned traded ⟨option, income⟩ throughout
    refine ⟨uncontinued, fun before after split => ?_⟩
    subst split
    exact (prefixes before after rfl uncontinued.left).mp (throughout before after rfl)
  · rintro ⟨uncontinued, fits⟩
    refine ⟨fun before after split => ?_, fun _ => uncontinued⟩
    subst split
    exact (prefixes before after rfl uncontinued.left).mpr (fits before after rfl)

end Histories

/-! ## A history that ends short, and one that goes on -/

def sharesTraded (eventType : PositionEventType) (side : TradeSide) (id : UUID)
    (quantity price : Decimal) : TradeEvent :=
  ⟨eventType, 1, .trade ⟨.ofNat 7, "AAPL", side, quantity, price, id, "USD"⟩⟩

def longThenShort : List TradeEvent :=
  [sharesTraded .tradeBuy .buy (.ofNat 1) 10 100,
    sharesTraded .tradeSell .sell (.ofNat 2) 15 120]

theorem longThenShort_totalPnl :
    TotalPnl ⟨7, by decide⟩ "AAPL" .equity equityPositionStrategy (longThenShort.take 1) ∧
      TotalPnl ⟨7, by decide⟩ "AAPL" .equity equityPositionStrategy longThenShort := by
  have traded : ∀ event ∈ longThenShort, event.Traded := by
    simp only [longThenShort, List.forall_mem_cons]
    refine ⟨.buy _ _ ?_ ?_, .sell _ _ ?_ ?_, List.forall_mem_nil _⟩
    all_goals norm_num
  have uncontinued : Uncontinued longThenShort := by
    intro before event after split
    match before, split with
    | [], _ => exact le_refl _
    | [first], split =>
      cases split
      change (0 : Decimal) ≤ 0 + 10
      norm_num
    | first :: second :: rest, split => simp [longThenShort] at split
  have owned : ∀ event ∈ longThenShort, event.OwnedBy ⟨7, by decide⟩ "AAPL" := by decide
  have throughout := ((totalPnl_throughout_iff (c := .equity) rfl owned traded).mpr
    ⟨uncontinued, fun _ _ _ => trivial⟩).1
  exact ⟨throughout _ _ (List.take_append_drop 1 _).symm, throughout _ [] (List.append_nil _).symm⟩

/-- Ten shares are sold short at 100 and bought back at 90. -/
def coveredShort : List TradeEvent :=
  [sharesTraded .tradeSell .sell (.ofNat 1) 10 100,
    sharesTraded .tradeBuy .buy (.ofNat 2) 10 90]

theorem coveredShort_not_totalPnl :
    (∀ event ∈ coveredShort, event.Traded ∧ event.OwnedBy ⟨7, by decide⟩ "AAPL") ∧
      proceeds coveredShort = 100 ∧
      (PositionAggregate.fromEvents ⟨7, by decide⟩ "AAPL" coveredShort).map (fun a => (a.quantity,
        a.realizedPnl + equityPositionStrategy.unrealizedPnl {} a.quantity a.costBasis 90)) =
          .ok (0, -1900) ∧
      ¬ TotalPnl ⟨7, by decide⟩ "AAPL" .equity equityPositionStrategy coveredShort := by
  have reported : (PositionAggregate.fromEvents ⟨7, by decide⟩ "AAPL" coveredShort).map (fun a =>
      (a.quantity,
        a.realizedPnl + equityPositionStrategy.unrealizedPnl {} a.quantity a.costBasis 90)) =
      .ok (0, -1900) := by decide +kernel
  have money : proceeds coveredShort = 100 := by decide +kernel
  have owned : ∀ event ∈ coveredShort, event.OwnedBy ⟨7, by decide⟩ "AAPL" := by decide
  have traded : ∀ event ∈ coveredShort, event.Traded := by
    simp only [coveredShort, List.forall_mem_cons]
    refine ⟨.sell _ _ ?_ ?_, .buy _ _ ?_ ?_, List.forall_mem_nil _⟩
    all_goals norm_num
  refine ⟨fun event member => ⟨traded event member, owned event member⟩, money, reported, ?_⟩
  rintro ⟨a, applied, same⟩
  rw [applied] at reported
  obtain ⟨flat, total⟩ := Prod.mk.inj (Except.ok.inj reported)
  have at90 := same 90
  have unit : AssetClass.equity.unitMultiplier = 1 := rfl
  rw [unit, one_mul, one_mul, money, total, flat] at at90
  norm_num at at90

end MiniHedge.Positions
