import MiniHedge.Backtesting.Engine
import Mathlib.Tactic.FieldSimp
import Mathlib.Tactic.Linarith
import Mathlib.Tactic.Positivity

/-! The books of a backtest: its cash and its holdings are never negative, and are what the trades have left;
and what the portfolio is worth where a holding has no price. -/

set_option autoImplicit false

namespace MiniHedge.Backtesting

open MiniHedge.Python MiniHedge.Library

/-! ## What trades come to -/

/-- What the buys have cost. -/
def spent (trades : List BacktestTrade) : Decimal := ((trades.filter (·.side = .buy)).map (·.buyNet)).sum

/-- What the sells have brought. -/
def received (trades : List BacktestTrade) : Decimal := ((trades.filter (·.side = .sell)).map (·.sellNet)).sum

/-- The trades of one side in an instrument. -/
def tradesOf (side : Side) (inst : String) (trades : List BacktestTrade) : List BacktestTrade :=
  trades.filter fun t => t.side = side ∧ t.instrumentId = inst

def bought (inst : String) (trades : List BacktestTrade) : Decimal := ((tradesOf .buy inst trades).map (·.quantity)).sum

def sold (inst : String) (trades : List BacktestTrade) : Decimal := ((tradesOf .sell inst trades).map (·.quantity)).sum

theorem spent_append (first rest : List BacktestTrade) : spent (first ++ rest) = spent first + spent rest := by
  simp [spent]

theorem received_append (first rest : List BacktestTrade) :
    received (first ++ rest) = received first + received rest := by
  simp [received]

theorem bought_append (inst : String) (first rest : List BacktestTrade) :
    bought inst (first ++ rest) = bought inst first + bought inst rest := by
  simp [bought, tradesOf]

theorem sold_append (inst : String) (first rest : List BacktestTrade) :
    sold inst (first ++ rest) = sold inst first + sold inst rest := by
  simp [sold, tradesOf]

/-! ## One trade -/

namespace Rebalancing

variable {s : State} {t : BacktestTrade}

theorem cash_buy (side : t.side = .buy) : (settle s t).cash = s.cash - t.buyNet := by
  rw [settle, side]

theorem cash_sell (side : t.side = .sell) : (settle s t).cash = s.cash + t.sellNet := by
  rw [settle, side]

theorem held_buy (side : t.side = .buy) (inst : String) :
    (settle s t).held inst = if inst = t.instrumentId then s.held inst + t.quantity else s.held inst := by
  rw [settle, side]
  by_cases own : inst = t.instrumentId
  · subst own
    simp [State.held]
  · simp [State.held, own]

/-- Nothing is lost with a holding that is sold whole. -/
theorem held_sell (side : t.side = .sell) (covered : t.quantity ≤ s.held t.instrumentId) (inst : String) :
    (settle s t).held inst = if inst = t.instrumentId then s.held inst - t.quantity else s.held inst := by
  rw [settle, side]
  dsimp only [State.held] at covered ⊢
  -- the key is deleted where nothing is left, and then nothing was left to lose
  by_cases whole : s.holdings.get t.instrumentId 0 - t.quantity ≤ 0
  · have none_left : s.holdings.get t.instrumentId 0 - t.quantity = 0 := le_antisymm whole (sub_nonneg.mpr covered)
    rw [if_pos whole, Dictionary.get_del]
    by_cases own : inst = t.instrumentId
    · subst own
      rw [if_pos rfl, if_pos rfl, none_left]
    · rw [if_neg own, if_neg own]
  · rw [if_neg whole, Dictionary.get_set]
    by_cases own : inst = t.instrumentId
    · rw [if_pos own, if_pos own, own]
    · rw [if_neg own, if_neg own]

end Rebalancing

/-! ## The invariant -/

/-- The books of a state: nothing is negative, and all of it comes of the capital and the trades. -/
structure Books (capital : Decimal) (s : State) : Prop where
  cash_nonneg : 0 ≤ s.cash
  held_nonneg : ∀ inst, 0 ≤ s.held inst
  cash_eq : s.cash = capital - spent s.trades + received s.trades
  held_eq : ∀ inst, s.held inst = bought inst s.trades - sold inst s.trades

namespace Books

variable {capital : Decimal} {s : State} {t : BacktestTrade}

/-- A buy that the cash pays for keeps the books. -/
theorem buy (books : Books capital s) (side : t.side = .buy) (nonneg : 0 ≤ t.quantity) (paid : t.buyNet ≤ s.cash) :
    Books capital (Rebalancing.settle s t) where
  cash_nonneg := by
    rw [Rebalancing.cash_buy side]
    exact sub_nonneg.mpr paid
  held_nonneg inst := by
    rw [Rebalancing.held_buy side]
    split
    · exact add_nonneg (books.held_nonneg inst) nonneg
    · exact books.held_nonneg inst
  cash_eq := by
    rw [Rebalancing.cash_buy side, Rebalancing.trades_settle, spent_append, received_append, books.cash_eq]
    simp [spent, received, side]
    ring
  held_eq inst := by
    rw [Rebalancing.held_buy side, Rebalancing.trades_settle, bought_append, sold_append, books.held_eq]
    by_cases own : inst = t.instrumentId
    · subst own
      simp [bought, sold, tradesOf, side]
      ring
    · simp [bought, sold, tradesOf, side, own, Ne.symm own]

/-- A sell of what is held, whose costs are below its value, keeps the books. -/
theorem sell (books : Books capital s) (side : t.side = .sell) (covered : t.quantity ≤ s.held t.instrumentId)
    (gains : 0 ≤ t.sellNet) : Books capital (Rebalancing.settle s t) where
  cash_nonneg := by
    rw [Rebalancing.cash_sell side]
    exact add_nonneg books.cash_nonneg gains
  held_nonneg inst := by
    rw [Rebalancing.held_sell side covered]
    split
    · rename_i own
      rw [own]
      exact sub_nonneg.mpr covered
    · exact books.held_nonneg inst
  cash_eq := by
    rw [Rebalancing.cash_sell side, Rebalancing.trades_settle, spent_append, received_append, books.cash_eq]
    simp [spent, received, side]
    ring
  held_eq inst := by
    rw [Rebalancing.held_sell side covered, Rebalancing.trades_settle, bought_append, sold_append, books.held_eq]
    by_cases own : inst = t.instrumentId
    · subst own
      simp [bought, sold, tradesOf, side]
      ring
    · simp [bought, sold, tradesOf, side, own, Ne.symm own]

/-- The end of a day moves neither cash nor holdings. -/
theorem record (books : Books capital s) (date : CivilDate) (prices : Amounts) :
    Books capital (s.record date prices) where
  cash_nonneg := books.cash_nonneg
  held_nonneg := books.held_nonneg
  cash_eq := books.cash_eq
  held_eq := books.held_eq

end Books

/-! ## Rates and prices -/

/-- The costs of a trade are not negative, and not above its value. -/
structure BacktestConfig.Rates (config : BacktestConfig) : Prop where
  commission_nonneg : 0 ≤ config.commissionRate
  slippage_nonneg : 0 ≤ config.slippageRate
  below_one : config.commissionRate + config.slippageRate ≤ 1

namespace Rebalancing

variable {r : Rebalancing} {s : State} {inst : String} {t : BacktestTrade} {capital : Decimal}

theorem buyNet_tradeOf (inst : String) (side : Side) (price quantity : Decimal) :
    (r.tradeOf inst side price quantity).buyNet =
      quantity * (price * (1 + r.config.commissionRate + r.config.slippageRate)) := by
  rw [BacktestTrade.buyNet, tradeOf]
  ring

theorem sellNet_tradeOf (inst : String) (side : Side) (price quantity : Decimal) :
    (r.tradeOf inst side price quantity).sellNet =
      quantity * price * (1 - (r.config.commissionRate + r.config.slippageRate)) := by
  rw [BacktestTrade.sellNet, tradeOf]
  ring

/-- A buy is scaled down to what the cash pays for. -/
theorem affordable_spec {price tradeQty : Decimal} (cash : 0 ≤ s.cash) (wanted : 0 ≤ tradeQty) :
    0 ≤ r.affordable s inst price tradeQty ∧
      (r.tradeOf inst .buy price (r.affordable s inst price tradeQty)).buyNet ≤ s.cash := by
  rw [affordable]
  split
  · -- scaled by cash over cost: the buy costs exactly the cash
    rename_i short
    have above := cash.trans_lt short
    rw [if_pos above]
    constructor
    · exact mul_nonneg wanted (div_nonneg cash above.le)
    · have scaled : ∀ k, (r.tradeOf inst .buy price (tradeQty * k)).buyNet =
          k * (r.tradeOf inst .buy price tradeQty).buyNet := by
        intro k
        rw [buyNet_tradeOf, buyNet_tradeOf]
        ring
      rw [scaled, div_mul_cancel₀ _ above.ne']
  · rename_i enough
    exact ⟨wanted, not_lt.mp enough⟩

/-- The trade of one instrument keeps the books. -/
theorem books_trade (rates : r.config.Rates) (positive : ∀ inst price, r.prices.get? inst = some price → 0 < price)
    (books : Books capital s) (inst : String) : Books capital (r.trade s inst) := by
  rw [trade]
  cases made : r.order s inst with
  | none => exact books
  | some t =>
    obtain ⟨price, quoted, -, -, ⟨-, rfl⟩ | ⟨-, above, rfl⟩⟩ := order_cases made
    · have wanted : 0 ≤ |r.diffValue s inst price| / price := div_nonneg (abs_nonneg _) (positive inst price quoted).le
      obtain ⟨nonneg, paid⟩ := @affordable_spec r s inst price _ books.cash_nonneg wanted
      exact books.buy rfl nonneg paid
    · apply books.sell rfl (min_le_right _ _)
      rw [sellNet_tradeOf]
      exact mul_nonneg (mul_nonneg above.le (positive inst price quoted).le) (sub_nonneg.mpr rates.below_one)

end Rebalancing

/-! ## The run -/

namespace Backtest

variable (b : Backtest) (e : Enumeration)

/-- The states that the run passes through: where it begins and ends, and those between the trades of each day. -/
def states (s : State) : List CivilDate → List State
  | [] => [s]
  | date :: rest =>
    if (b.prices date).items = [] then states s rest
    else (b.instruments e s date).scanl (b.rebalancing s date).trade s ++ states (b.day e s date) rest

/-- A capital and rates that are not negative, and prices that are positive. -/
structure WellPosed : Prop where
  capital_nonneg : 0 ≤ b.config.initialCapital
  rates : b.config.Rates
  positive : ∀ points ∈ b.priceData.values, ∀ pt ∈ points, 0 < pt.2

variable {b e}

/-- A price is that of a point of the price data. -/
theorem mem_of_prices {date : CivilDate} {inst : String} {price : Decimal}
    (quoted : (b.prices date).get? inst = some price) :
    ∃ points ∈ b.priceData.values, (date, price) ∈ points := by
  rw [prices, currentPrices, Dictionary.get?_ofKeys] at quoted
  split at quoted
  · obtain ⟨pt, last, rfl⟩ := Option.map_eq_some_iff.mp quoted
    obtain ⟨listed, dated⟩ := List.mem_filter.mp (List.mem_of_getLast? last)
    obtain rfl := of_decide_eq_true dated
    exact ⟨_, b.priceData.get_mem_values (List.ne_nil_of_mem listed), listed⟩
  · cases quoted

namespace WellPosed

variable (posed : b.WellPosed)
include posed

theorem price_pos {date : CivilDate} {inst : String} {price : Decimal}
    (quoted : (b.prices date).get? inst = some price) : 0 < price := by
  obtain ⟨points, listed, member⟩ := mem_of_prices quoted
  exact posed.positive points listed (date, price) member

theorem books_opening : Books b.config.initialCapital b.opening where
  cash_nonneg := posed.capital_nonneg
  held_nonneg _ := le_refl 0
  cash_eq := by simp [opening, spent, received]
  held_eq inst := by simp [opening, State.held, bought, sold, tradesOf]

theorem books_scan {s : State} (books : Books b.config.initialCapital s) (day : State) (date : CivilDate)
    (insts : List String) :
    ∀ passed ∈ insts.scanl (b.rebalancing day date).trade s, Books b.config.initialCapital passed := by
  induction insts generalizing s with
  | nil => simpa using books
  | cons inst rest ih =>
    rw [List.scanl_cons, List.forall_mem_cons]
    exact ⟨books, ih (Rebalancing.books_trade posed.rates (fun _ _ => posed.price_pos) books inst)⟩

theorem books_day {s : State} (books : Books b.config.initialCapital s) (date : CivilDate) :
    Books b.config.initialCapital (b.day e s date) := by
  rw [day]
  split
  · exact books
  · apply Books.record
    apply posed.books_scan books s date (b.instruments e s date)
    exact List.mem_of_getLast? List.getLast?_scanl

theorem books_states {s : State} (books : Books b.config.initialCapital s) (dates : List CivilDate) :
    ∀ passed ∈ b.states e s dates, Books b.config.initialCapital passed := by
  -- over the dates: each adds the states between its trades
  induction dates generalizing s with
  | nil => simpa [states] using books
  | cons date rest ih =>
    rw [states]
    split
    · exact ih books
    · rw [List.forall_mem_append]
      exact ⟨posed.books_scan books s date _, ih (posed.books_day books date)⟩

end WellPosed

theorem foldl_mem_states (s : State) (dates : List CivilDate) : dates.foldl (b.day e) s ∈ b.states e s dates := by
  induction dates generalizing s with
  | nil => exact List.mem_singleton_self s
  | cons date rest ih =>
    rw [states, List.foldl_cons]
    split
    · rename_i unpriced
      rw [day, if_pos unpriced]
      exact ih s
    · exact List.mem_append_right _ (ih _)

/-- In no state of a run are the cash or a holding negative, and what is left at its end is what the recorded
trades leave of the capital. -/
theorem run_sound {b : Backtest} (posed : b.WellPosed) (e : Enumeration) (floats : Floats) :
    (∀ s ∈ b.states e b.opening b.dates, 0 ≤ s.cash ∧ ∀ item ∈ s.holdings.items, 0 ≤ item.2) ∧
      (b.final e).cash =
        b.config.initialCapital - spent (b.run floats e).trades + received (b.run floats e).trades ∧
      ∀ inst, (b.final e).held inst =
        bought inst (b.run floats e).trades - sold inst (b.run floats e).trades := by
  have books := posed.books_states (e := e) posed.books_opening b.dates
  have last := books _ (foldl_mem_states b.opening b.dates)
  rw [trades_run]
  refine ⟨?_, last.cash_eq, last.held_eq⟩
  intro s passed
  refine ⟨(books s passed).cash_nonneg, ?_⟩
  intro item member
  have nonneg := (books s passed).held_nonneg item.1
  rwa [State.held, Dictionary.get_of_mem 0 member] at nonneg

end Backtest

/-- A day of the month in which the samples are traded. -/
def jan (day : Nat) : CivilDate := .ofNat 2025 1 day

/-- A backtest of that month, rebalanced on every day, with a commission of 10 and a slippage of 5 basis points. -/
def daily (insts : List String) (capital : Decimal) : BacktestConfig where
  startDate := jan 1
  endDate := jan 31
  initialCapital := capital
  rebalanceFrequency := .daily
  universeInsts := insts

/-- Roots to ten places, and whole powers. -/
def roughFloats : Floats where
  sqrt x := (Nat.sqrt (x * 10 ^ 20).floor.toNat : Decimal) / 10 ^ 10
  powLess x y := x ^ y.floor.toNat - 1

/-- The cash does not pay for all of the second buy, and some of it is sold on the next day. -/
def crossing : Backtest where
  config := daily ["A", "B"] 1000
  priceData := ⟨[("A", [(jan 2, 100), (jan 3, 50)]), ("B", [(jan 2, 10), (jan 3, 20)])], by decide⟩
  signal := equalWeightSignal

example : crossing.dates = [jan 2, jan 3] ∧ (crossing.prices (jan 3)).items = [("A", 50), ("B", 20)] := by
  decide +kernel

theorem crossing_wellPosed : crossing.WellPosed where
  capital_nonneg := by decide +kernel
  rates := ⟨by decide +kernel, by decide +kernel, by decide +kernel⟩
  positive := by decide +kernel

theorem crossing_sound : (crossing.final .listed).cash = 11952045 / 32048 ∧
    (crossing.final .listed).cash = crossing.config.initialCapital -
      spent (crossing.run roughFloats .listed).trades + received (crossing.run roughFloats .listed).trades :=
  ⟨by decide +kernel, (Backtest.run_sound crossing_wellPosed .listed roughFloats).2.1⟩

/-! ## Holdings without a price -/

/-- The dates up to this one on which the instrument has a price. -/
def quotedUpTo (priceData : PriceData) (inst : String) (date : CivilDate) : List CivilDate :=
  ((priceData.get inst []).map (·.1)).filter fun d => d.toordinal ≤ date.toordinal

def lastQuoted (priceData : PriceData) (inst : String) (date : CivilDate) : Option CivilDate :=
  (sortOn CivilDate.toordinal (quotedUpTo priceData inst date)).getLast?

/-- The most recent price on or before a date. -/
def lastPrice (priceData : PriceData) (inst : String) (date : CivilDate) : Option Decimal := do
  let d ← lastQuoted priceData inst date
  priceOn priceData inst d

section LastPrices

variable {priceData : PriceData} {inst : String} {date : CivilDate} {price : Decimal}

theorem mem_dates_of_priceOn (quoted : priceOn priceData inst date = some price) :
    date ∈ (priceData.get inst []).map (·.1) := by
  obtain ⟨pt, last, rfl⟩ := Option.map_eq_some_iff.mp quoted
  obtain ⟨listed, dated⟩ := List.mem_filter.mp (List.mem_of_getLast? last)
  exact List.mem_map.mpr ⟨pt, listed, of_decide_eq_true dated⟩

theorem priceOn_of_mem_dates (dated : date ∈ (priceData.get inst []).map (·.1)) :
    ∃ price, priceOn priceData inst date = some price := by
  obtain ⟨pt, listed, rfl⟩ := List.mem_map.mp dated
  rw [← Option.isSome_iff_exists, priceOn, Option.isSome_map, List.getLast?_isSome]
  exact List.ne_nil_of_mem (List.mem_filter.mpr ⟨listed, decide_eq_true rfl⟩)

theorem exists_lastQuoted {earlier : CivilDate} (quoted : priceOn priceData inst earlier = some price)
    (before : earlier.toordinal ≤ date.toordinal) :
    ∃ d, lastQuoted priceData inst date = some d ∧ d ∈ (priceData.get inst []).map (·.1) ∧
      earlier.toordinal ≤ d.toordinal ∧ d.toordinal ≤ date.toordinal := by
  have listed : earlier ∈ quotedUpTo priceData inst date :=
    List.mem_filter.mpr ⟨mem_dates_of_priceOn quoted, decide_eq_true before⟩
  have member := (mem_sortOn CivilDate.toordinal).mpr listed
  obtain ⟨d, last⟩ := Option.isSome_iff_exists.mp (List.getLast?_isSome.mpr (List.ne_nil_of_mem member))
  obtain ⟨dated, notAfter⟩ := List.mem_filter.mp ((mem_sortOn _).mp (List.mem_of_getLast? last))
  refine ⟨d, last, dated, ?_, of_decide_eq_true notAfter⟩
  have sorted := sortOn_sorted CivilDate.toordinal (quotedUpTo priceData inst date)
  obtain ⟨first, split⟩ := List.getLast?_eq_some_iff.mp last
  rw [split] at member sorted
  rcases List.mem_append.mp member with former | own
  · exact (List.pairwise_append.mp sorted).2.2 earlier former d (List.mem_singleton_self d)
  · rw [List.mem_singleton.mp own]

/-- The price of the date itself is the most recent one. -/
theorem lastPrice_of_priceOn (quoted : priceOn priceData inst date = some price) :
    lastPrice priceData inst date = some price := by
  obtain ⟨d, found, -, notBefore, notAfter⟩ := exists_lastQuoted quoted le_rfl
  obtain rfl := CivilDate.toordinal_injective (le_antisymm notAfter notBefore)
  rw [lastPrice, found]
  exact quoted

/-- An instrument with a price on a date has a most recent one from then on. -/
theorem lastPrice_isSome {earlier : CivilDate} (quoted : priceOn priceData inst earlier = some price)
    (before : earlier.toordinal ≤ date.toordinal) :
    ∃ d recent, lastPrice priceData inst date = some recent ∧ priceOn priceData inst d = some recent := by
  obtain ⟨d, found, listed, -, -⟩ := exists_lastQuoted quoted before
  obtain ⟨recent, same⟩ := priceOn_of_mem_dates listed
  refine ⟨d, recent, ?_, same⟩
  rw [lastPrice, found]
  exact same

end LastPrices

namespace Backtest

variable (b : Backtest) (e : Enumeration)

/-- What a holding is worth at its most recent price. -/
def worth (date : CivilDate) (inst : String) (quantity : Decimal) : Decimal :=
  quantity * (lastPrice b.priceData inst date).getD 0

/-- The cash, and every holding at its most recent price. -/
def marked (s : State) (date : CivilDate) : Decimal :=
  s.cash + (s.holdings.items.map fun item => b.worth date item.1 item.2).sum

/-- What the holdings without a price on the date are worth. -/
def unpriced (s : State) (date : CivilDate) : Decimal :=
  ((s.holdings.items.filter fun item => (b.prices date).get? item.1 = none).map fun item =>
    b.worth date item.1 item.2).sum

/-- The state in which a date begins. -/
def before (date : CivilDate) : State := b.after e (b.dates.filter fun d => d.toordinal < date.toordinal)

/-- The value that the date's weights are based on, and the one that is recorded, are of all holdings. -/
def Whole (pt : EquityCurvePoint) : Prop :=
  (b.rebalancing (b.before e pt.date) pt.date).portfolioValue = b.marked (b.before e pt.date) pt.date ∧
    pt.portfolioValue = b.marked (b.traded e (b.before e pt.date) pt.date) pt.date

variable {b e}

/-- What the portfolio's value leaves out. -/
theorem marked_eq (s : State) (date : CivilDate) : b.marked s date = s.value (b.prices date) + b.unpriced s date := by
  rw [marked, State.value, unpriced, sum_map_filter, add_assoc, ← List.sum_map_add]
  congr 2
  apply List.map_congr_left
  intro item _
  cases quoted : (b.prices date).get? item.1 with
  | none => simp
  | some price =>
    have onDate := quoted
    rw [prices, currentPrices, Dictionary.get?_ofKeys] at onDate
    split at onDate
    · simp [worth, lastPrice_of_priceOn onDate]
    · cases onDate

theorem unpriced_settle {s : State} {t : BacktestTrade} {date : CivilDate} {price : Decimal}
    (quoted : (b.prices date).get? t.instrumentId = some price) :
    b.unpriced (Rebalancing.settle s t) date = b.unpriced s date := by
  -- a sum over the holdings in which an instrument with a price counts nothing
  let f : String → Decimal → Decimal := fun inst quantity =>
    if (b.prices date).get? inst = none then b.worth date inst quantity else 0
  have sums : ∀ s : State, b.unpriced s date = (s.holdings.items.map fun item => f item.1 item.2).sum := by
    intro s
    rw [unpriced, sum_map_filter]
    simp [f]
  have nothing : ∀ quantity, f t.instrumentId quantity = 0 := fun quantity => if_neg (by simp [quoted])
  have set : ∀ quantity, ((s.holdings.set t.instrumentId quantity).items.map fun item => f item.1 item.2).sum =
      (s.holdings.items.map fun item => f item.1 item.2).sum := by
    intro quantity
    rw [Dictionary.set, sum_setItem, nothing]
    cases s.holdings.items.lookup t.instrumentId with
    | none => simp
    | some old => simp [nothing]
  have del : ((s.holdings.del t.instrumentId).items.map fun item => f item.1 item.2).sum =
      (s.holdings.items.map fun item => f item.1 item.2).sum := by
    simp only [Dictionary.del, delItem]
    rw [sum_map_filter]
    congr 1
    apply List.map_congr_left
    intro item _
    by_cases own : item.1 = t.instrumentId
    · simp [own, nothing]
    · simp [own]
  rw [sums, sums, Rebalancing.settle]
  split
  · exact set _
  · dsimp only
    split
    · exact del
    · exact set _

/-- The holdings without a price are not traded. -/
theorem unpriced_trades (s : State) (date : CivilDate) (insts : List String) (day : State) :
    b.unpriced (insts.foldl (b.rebalancing day date).trade s) date = b.unpriced s date := by
  induction insts generalizing s with
  | nil => rfl
  | cons inst rest ih =>
    rw [List.foldl_cons, ih, Rebalancing.trade]
    split
    · rename_i t made
      obtain ⟨price, quoted, -⟩ := Rebalancing.order_cases made
      rw [← (Rebalancing.order_ids made).2] at quoted
      exact unpriced_settle quoted
    · rfl

/-- Each point of the curve is of a date with prices, and of the state that the trades of the date have left. -/
theorem point_recorded {dates : List CivilDate} (increasing : dates.Pairwise fun d d' => d.toordinal < d'.toordinal)
    {pt : EquityCurvePoint} (recorded : pt ∈ (b.after e dates).equityCurve) :
    pt.date ∈ dates ∧
      pt.portfolioValue =
        (b.traded e (b.after e (dates.filter fun d => d.toordinal < pt.date.toordinal)) pt.date).value
          (b.prices pt.date) := by
  -- over the dates done so far: a point is an old one, or the one just added
  induction dates using List.reverseRecOn with
  | nil => cases recorded
  | append_singleton dates date ih =>
    have old : pt ∈ (b.after e dates).equityCurve → pt.date ∈ dates ++ [date] ∧
        pt.portfolioValue = (b.traded e (b.after e ((dates ++ [date]).filter fun d =>
          d.toordinal < pt.date.toordinal)) pt.date).value (b.prices pt.date) := by
      intro recorded
      obtain ⟨former, -, before⟩ := List.pairwise_append.mp increasing
      obtain ⟨member, value⟩ := ih former recorded
      have earlier := before _ member date (List.mem_singleton_self date)
      refine ⟨List.mem_append_left _ member, ?_⟩
      rw [List.filter_append, List.filter_singleton, decide_eq_false earlier.asymm, value]
      simp
    rw [after, List.foldl_concat, ← after, equityCurve_day] at recorded
    split at recorded
    · exact old recorded
    · rcases List.mem_append.mp recorded with former | added
      · exact old former
      · obtain rfl := List.mem_singleton.mp added
        refine ⟨List.mem_append_right _ (List.mem_singleton_self date), ?_⟩
        rw [State.point, filter_before increasing]

theorem keys_trades {s : State} {date : CivilDate} (insts : List String) {day : State} {inst : String}
    (held : inst ∈ (insts.foldl (b.rebalancing day date).trade s).holdings.keys) :
    inst ∈ s.holdings.keys ∨ ∃ price, (b.prices date).get? inst = some price := by
  induction insts generalizing s with
  | nil => exact .inl held
  | cons traded rest ih =>
    rw [List.foldl_cons] at held
    rcases ih held with former | priced
    · rw [Rebalancing.trade] at former
      split at former
      · rename_i t made
        obtain ⟨price, quoted, -⟩ := Rebalancing.order_cases made
        obtain ⟨-, rfl⟩ := Rebalancing.order_ids made
        by_cases own : inst = t.instrumentId
        · exact .inr ⟨price, own ▸ quoted⟩
        · left
          rw [Dictionary.mem_keys] at former ⊢
          rw [Rebalancing.settle] at former
          split at former
          · simpa [own] using former
          · dsimp only at former
            split at former
            · simpa [own] using former
            · simpa [own] using former
      · exact .inl former
    · exact .inr priced

/-- What is held has had a price on one of the dates. -/
theorem keys_after {dates : List CivilDate} {inst : String} (held : inst ∈ (b.after e dates).holdings.keys) :
    ∃ d ∈ dates, ∃ price, (b.prices d).get? inst = some price := by
  induction dates using List.reverseRecOn with
  | nil => cases held
  | append_singleton dates date ih =>
    have former : inst ∈ (b.after e dates).holdings.keys →
        ∃ d ∈ dates ++ [date], ∃ price, (b.prices d).get? inst = some price := by
      intro held
      obtain ⟨d, member, priced⟩ := ih held
      exact ⟨d, List.mem_append_left _ member, priced⟩
    rw [after, List.foldl_concat, ← after, day] at held
    split at held
    · exact former held
    · rcases keys_trades _ held with earlier | priced
      · exact former earlier
      · exact ⟨date, List.mem_append_right _ (List.mem_singleton_self date), priced⟩

namespace WellPosed

variable (posed : b.WellPosed)
include posed

/-- A holding is worth something, where there is any of it. -/
theorem worth_pos {date : CivilDate} {item : String × Decimal} (member : item ∈ (b.before e date).holdings.items) :
    0 ≤ b.worth date item.1 item.2 ∧ (b.worth date item.1 item.2 = 0 ↔ item.2 = 0) := by
  obtain ⟨d, earlier, price, quoted⟩ := keys_after (List.mem_map_of_mem (f := Prod.fst) member)
  have before := of_decide_eq_true (List.mem_filter.mp earlier).2
  have onDate := quoted
  rw [prices, currentPrices, Dictionary.get?_ofKeys] at onDate
  split at onDate
  · obtain ⟨d', recent, latest, quoted'⟩ := lastPrice_isSome onDate before.le
    have positive : 0 < recent := by
      obtain ⟨pt, last, rfl⟩ := Option.map_eq_some_iff.mp quoted'
      have listed := (List.mem_filter.mp (List.mem_of_getLast? last)).1
      exact posed.positive _ (b.priceData.get_mem_values (List.ne_nil_of_mem listed)) pt listed
    have books : Books b.config.initialCapital (b.before e date) :=
      posed.books_states posed.books_opening _ _ (foldl_mem_states (e := e) b.opening _)
    have nonneg := books.held_nonneg item.1
    rw [State.held, Dictionary.get_of_mem 0 member] at nonneg
    rw [worth, latest, Option.getD_some]
    exact ⟨mul_nonneg nonneg positive.le, by simp [positive.ne']⟩
  · cases onDate

theorem unpriced_eq_zero_iff (date : CivilDate) : b.unpriced (b.before e date) date = 0 ↔
    ∀ item ∈ (b.before e date).holdings.items, item.2 ≠ 0 → ((b.prices date).get? item.1).isSome := by
  rw [unpriced]
  constructor
  · -- no part of a sum of parts that are not negative can count
    intro nothing item member some_held
    by_contra missing
    have unquoted := Option.not_isSome_iff_eq_none.mp missing
    have kept : item ∈ (b.before e date).holdings.items.filter fun item => (b.prices date).get? item.1 = none :=
      List.mem_filter.mpr ⟨member, decide_eq_true unquoted⟩
    have inside := List.mem_map_of_mem (f := fun item => b.worth date item.1 item.2) kept
    have zero := List.all_zero_of_le_zero_le_of_sum_eq_zero ?_ nothing inside
    · exact some_held ((posed.worth_pos member).2.mp zero)
    · intro x listed
      obtain ⟨other, held, rfl⟩ := List.mem_map.mp listed
      exact (posed.worth_pos (List.mem_of_mem_filter held)).1
  · intro priced
    apply List.sum_eq_zero
    intro x listed
    obtain ⟨item, held, rfl⟩ := List.mem_map.mp listed
    obtain ⟨member, unquoted⟩ := List.mem_filter.mp held
    by_contra counts
    have some_held : item.2 ≠ 0 := fun empty => counts ((posed.worth_pos member).2.mpr empty)
    have quoted := priced item member some_held
    rw [of_decide_eq_true unquoted] at quoted
    cases quoted

end WellPosed

/-- A date counts all of the portfolio where, and only where, the holdings without a price on it are worth nothing:
in a well-posed backtest, where nothing is held without a price. -/
theorem whole_iff {floats : Floats} {pt : EquityCurvePoint} (recorded : pt ∈ (b.run floats e).equityCurve) :
    (b.Whole e pt ↔ b.unpriced (b.before e pt.date) pt.date = 0) ∧
      (b.WellPosed → (b.Whole e pt ↔ ∀ item ∈ (b.before e pt.date).holdings.items, item.2 ≠ 0 →
        ((b.prices pt.date).get? item.1).isSome)) := by
  rw [equityCurve_run] at recorded
  have value := (point_recorded b.dates_increasing recorded).2
  rw [← before] at value
  have whole : b.Whole e pt ↔ b.unpriced (b.before e pt.date) pt.date = 0 := by
    rw [Whole, value, marked_eq, marked_eq, traded, unpriced_trades, rebalancing]
    dsimp only
    rw [left_eq_add, left_eq_add, and_self]
  exact ⟨whole, fun posed => whole.trans (posed.unpriced_eq_zero_iff pt.date)⟩

end Backtest

/-- The last point of the crossing backtest, whose instruments all have a price. -/
def crossingPoint : EquityCurvePoint where
  date := jan 3
  portfolioValue := 39946045 / 32048
  drawdown := 0

theorem crossing_whole : crossing.Whole .listed crossingPoint :=
  have recorded : crossingPoint ∈ (crossing.run roughFloats .listed).equityCurve := by
    rw [Backtest.equityCurve_run]
    decide +kernel
  ((Backtest.whole_iff recorded).2 crossing_wellPosed).mpr (by decide +kernel)

/-- On the third of the month, B has a price and A has none. -/
def gapped : Backtest where
  config := daily ["A", "B"] 1000
  priceData := ⟨[("A", [(jan 2, 100)]), ("B", [(jan 2, 10), (jan 3, 10)])], by decide⟩
  signal := equalWeightSignal

theorem gapped_wellPosed : gapped.WellPosed where
  capital_nonneg := by decide +kernel
  rates := ⟨by decide +kernel, by decide +kernel, by decide +kernel⟩
  positive := by decide +kernel

def gappedPoint : EquityCurvePoint where
  date := jan 3
  portfolioValue := 998500 / 2003
  drawdown := 2009 / 4006

/-- A holding without a price is left out of the value of the portfolio. -/
theorem gap_counts_nothing :
    ¬ ∀ (b : Backtest) (e : Enumeration) (floats : Floats), b.WellPosed →
      ∀ pt ∈ (b.run floats e).equityCurve, b.Whole e pt := by
  intro whole
  have recorded : gappedPoint ∈ (gapped.run roughFloats .listed).equityCurve := by
    rw [Backtest.equityCurve_run]
    decide +kernel
  have basis := (whole gapped .listed roughFloats gapped_wellPosed gappedPoint recorded).1
  revert basis
  decide +kernel

end MiniHedge.Backtesting
