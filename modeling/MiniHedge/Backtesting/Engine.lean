import MiniHedge.Backtesting.Metrics
import MiniHedge.Library.Groups
import MiniHedge.Library.StableSort
import Mathlib.Order.OrderDual

/-! The backtesting engine: signals, the schedule of the rebalancing and the run over the trading dates.

On a day that is to be rebalanced, the loop runs over a set of instruments. The order in which a
set is enumerated is not part of the program, and is a parameter of the run. A run is taken in
exact arithmetic.
-/

set_option autoImplicit false

namespace MiniHedge.Backtesting

open MiniHedge.Python MiniHedge.Library

inductive RebalanceFrequency where
  | daily
  | weekly
  | monthly
  | quarterly
  deriving DecidableEq, Repr

structure BacktestConfig where
  startDate : CivilDate
  endDate : CivilDate
  initialCapital : Decimal
  rebalanceFrequency : RebalanceFrequency
  slippageBps : Int := 5
  commissionBps : Int := 10
  universeInsts : List String
  deriving DecidableEq, Repr

namespace BacktestConfig

variable (config : BacktestConfig)

def slippageRate : Decimal := config.slippageBps * (1 / 10000)

def commissionRate : Decimal := config.commissionBps * (1 / 10000)

end BacktestConfig

/-- Prices, positions, quantities or weights by instrument. -/
abbrev Amounts := Dictionary String Decimal

abbrev History := List (CivilDate × Decimal)

abbrev PriceData := Dictionary String History

/-! ## Signals -/

/-- The target weights for a date, its prices and the positions. -/
abbrev Signal := CivilDate → Amounts → Amounts → Amounts

/-- `{inst: weight for inst in insts}`, for weights that sum to one. -/
def evenly (insts : List String) : Amounts := .ofKeys insts fun _ => some (1 / insts.length)

def equalWeightSignal : Signal := fun _ prices _ => evenly prices.keys

/-- What the price has changed by over the lookback, where the history is long enough. -/
def periodReturn (lookback : Nat) (currentDate : CivilDate) (hist : History) : Option Decimal := do
  let relevant := hist.filter fun pt => pt.1.toordinal ≤ currentDate.toordinal
  -- too short a history: the instrument is not ranked
  if relevant.length < lookback + 1 then none
  else
    -- `relevant[-(lookback + 1)]`
    let old ← relevant[relevant.length - (lookback + 1)]?
    let last ← relevant.getLast?
    if old.2 ≠ 0 then return (last.2 - old.2) / old.2 else none

/-- The instruments with a return, in the order of the history. -/
def periodReturns (lookback : Nat) (currentDate : CivilDate) (priceHistory : PriceData) : List (String × Decimal) :=
  priceHistory.items.filterMap fun entry => (periodReturn lookback currentDate entry.2).map (entry.1, ·)

/-- Long the first half of the instruments, as they are ranked by their returns. -/
def halfSignal (rank : List (String × Decimal) → List (String × Decimal)) (lookback : Nat)
    (priceHistory : Option PriceData) : Signal := fun currentDate prices positions =>
  match priceHistory with
  | none => equalWeightSignal currentDate prices positions
  | some history =>
    let returns := periodReturns lookback currentDate history
    -- the same fallback where no history is long enough
    if returns = [] then equalWeightSignal currentDate prices positions
    else evenly (((rank returns).take (max 1 (returns.length / 2))).map (·.1))

/-- Long the instruments that have gained most; `sorted(reverse=True)` keeps the order of equal ones. -/
def momentumSignal (lookback : Nat := 20) (priceHistory : Option PriceData := none) : Signal :=
  halfSignal (sortOn fun entry => OrderDual.toDual entry.2) lookback priceHistory

/-- Long the instruments that have lost most. -/
def meanReversionSignal (lookback : Nat := 20) (priceHistory : Option PriceData := none) : Signal :=
  halfSignal (sortOn (·.2)) lookback priceHistory

/-! ## The schedule -/

def shouldRebalance (current : CivilDate) (prev : Option CivilDate) (frequency : RebalanceFrequency) : Bool :=
  match prev, frequency with
  | none, _ => true
  | some _, .daily => true
  | some prev, .weekly => current.isoWeek ≠ prev.isoWeek
  | some prev, .monthly => current.month ≠ prev.month
  | some prev, .quarterly => (current.month - 1) / 3 ≠ (prev.month - 1) / 3

/-! ## Prices -/

/-- The dates in the period on which any instrument has a price. -/
def tradingDates (config : BacktestConfig) (priceData : PriceData) : List CivilDate :=
  sortOn CivilDate.toordinal ((priceData.values.flatMap fun points => (points.map (·.1)).filter fun d =>
    config.startDate.toordinal ≤ d.toordinal ∧ d.toordinal ≤ config.endDate.toordinal).eraseDups)

/-- The price of an instrument on a date: of several, the last one that is listed. -/
def priceOn (priceData : PriceData) (inst : String) (date : CivilDate) : Option Decimal :=
  ((priceData.get inst []).filter (·.1 = date)).getLast?.map (·.2)

def currentPrices (config : BacktestConfig) (priceData : PriceData) (date : CivilDate) : Amounts :=
  .ofKeys config.universeInsts fun inst => priceOn priceData inst date

/-! ## The state of a run -/

structure State where
  cash : Decimal
  holdings : Amounts
  equityCurve : List EquityCurvePoint
  trades : List BacktestTrade
  peak : Decimal
  prevDate : Option CivilDate
  deriving DecidableEq

namespace State

variable (s : State)

/-- The quantity that is held. -/
def held (inst : String) : Decimal := s.holdings.get inst 0

/-- The cash and the holdings that have a price. -/
def value (prices : Amounts) : Decimal :=
  s.cash + (s.holdings.items.map fun item =>
    match prices.get? item.1 with
    | some price => item.2 * price
    | none => 0).sum

/-- The values of the holdings that have a price. -/
def positions (prices : Amounts) : Amounts :=
  .ofKeys s.holdings.keys fun inst => (prices.get? inst).map (s.held inst * ·)

/-- The peak, once the portfolio has that value. -/
def peakAt (portfolioValue : Decimal) : Decimal := if s.peak < portfolioValue then portfolioValue else s.peak

/-- The point of the curve in which a day ends. -/
def point (date : CivilDate) (prices : Amounts) : EquityCurvePoint :=
  let portfolioValue := s.value prices
  let peak := s.peakAt portfolioValue
  { date, portfolioValue, drawdown := if peak ≠ 0 then (peak - portfolioValue) / peak else 0 }

/-- What the loop does at the end of a day. -/
def record (date : CivilDate) (prices : Amounts) : State :=
  { s with
    equityCurve := s.equityCurve ++ [s.point date prices]
    peak := s.peakAt (s.value prices)
    prevDate := some date }

end State

/-- What a day's rebalancing works with. -/
structure Rebalancing where
  config : BacktestConfig
  date : CivilDate
  prices : Amounts
  portfolioValue : Decimal
  targetWeights : Amounts

namespace Rebalancing

variable (r : Rebalancing)

/-- A trade at that price, with its commission and its slippage. -/
def tradeOf (inst : String) (side : Side) (price quantity : Decimal) : BacktestTrade where
  date := r.date
  instrumentId := inst
  side := side
  quantity := quantity
  price := price
  commission := quantity * price * r.config.commissionRate
  slippage := quantity * price * r.config.slippageRate

/-- A trade, and where it leaves the cash and the holding. -/
def settle (s : State) (t : BacktestTrade) : State :=
  match t.side with
  | .buy =>
    { s with
      cash := s.cash - t.buyNet
      holdings := s.holdings.set t.instrumentId (s.held t.instrumentId + t.quantity)
      trades := s.trades ++ [t] }
  | .sell =>
    let left := s.held t.instrumentId - t.quantity
    { s with
      cash := s.cash + t.sellNet
      holdings := if left ≤ 0 then s.holdings.del t.instrumentId else s.holdings.set t.instrumentId left
      trades := s.trades ++ [t] }

/-- The quantity that is bought: as much as the cash pays for. -/
def affordable (s : State) (inst : String) (price tradeQty : Decimal) : Decimal :=
  let totalCost := (r.tradeOf inst .buy price tradeQty).buyNet
  -- the costs shrink with the quantity, so that all of the cash is spent
  if s.cash < totalCost then tradeQty * (if 0 < totalCost then s.cash / totalCost else 0) else tradeQty

/-- How far the value of a holding is from its target, at that price. -/
def diffValue (s : State) (inst : String) (price : Decimal) : Decimal :=
  r.portfolioValue * r.targetWeights.get inst 0 - s.held inst * price

/-- The trade of an instrument, if there is one. -/
def order (s : State) (inst : String) : Option BacktestTrade := do
  let price ← r.prices.get? inst
  -- `continue`, as for an instrument without a price
  if price = 0 then none
  else
    let diff := r.diffValue s inst price
    let tradeQty := |diff| / price
    -- small trades are left
    if |diff| < 1 then none
    else if 0 < diff then return r.tradeOf inst .buy price (r.affordable s inst price tradeQty)
    else
      let sellQty := min tradeQty (s.held inst)
      if sellQty ≤ 0 then none else return r.tradeOf inst .sell price sellQty

def trade (s : State) (inst : String) : State :=
  match r.order s inst with
  | some t => settle s t
  | none => s

/-- The trades that are made as these instruments are gone through. -/
def made : State → List String → List BacktestTrade
  | _, [] => []
  | s, inst :: rest => (r.order s inst).toList ++ made (r.trade s inst) rest

end Rebalancing

/-- The order in which the set of these instruments is enumerated, on a date. -/
structure Enumeration where
  order : CivilDate → List String → List String
  complete : ∀ date insts, (order date insts).Perm insts.eraseDups

/-- The instruments as they are listed. -/
def Enumeration.listed : Enumeration := ⟨fun _ insts => insts.eraseDups, fun _ _ => .refl _⟩

/-! ## The run -/

structure Backtest where
  config : BacktestConfig
  priceData : PriceData
  signal : Signal

namespace Backtest

variable (b : Backtest) (e : Enumeration)

def dates : List CivilDate := tradingDates b.config b.priceData

def prices (date : CivilDate) : Amounts := currentPrices b.config b.priceData date

/-- What the rebalancing of a date works with, from the state in which it begins. -/
def rebalancing (s : State) (date : CivilDate) : Rebalancing where
  config := b.config
  date := date
  prices := b.prices date
  portfolioValue := s.value (b.prices date)
  targetWeights := b.signal date (b.prices date) (s.positions (b.prices date))

/-- The instruments that are gone through, none where the date is not rebalanced. -/
def instruments (s : State) (date : CivilDate) : List String :=
  if shouldRebalance date s.prevDate b.config.rebalanceFrequency then
    e.order date (s.holdings.keys ++ (b.rebalancing s date).targetWeights.keys)
  else []

/-- The state before the portfolio is valued again. -/
def traded (s : State) (date : CivilDate) : State :=
  (b.instruments e s date).foldl (b.rebalancing s date).trade s

/-- A date without prices is passed over. -/
def day (s : State) (date : CivilDate) : State :=
  if (b.prices date).items = [] then s else (b.traded e s date).record date (b.prices date)

def opening : State where
  cash := b.config.initialCapital
  holdings := .empty
  equityCurve := []
  trades := []
  peak := b.config.initialCapital
  prevDate := none

/-- The state once these dates are done. -/
def after (dates : List CivilDate) : State := dates.foldl (b.day e) b.opening

/-- The state in which the run ends. -/
def final : State := b.after e b.dates

end Backtest

structure BacktestResult where
  totalReturn : Decimal
  annualizedReturn : Decimal
  sharpeRatio : Decimal
  maxDrawdown : Decimal
  volatility : Decimal
  calmarRatio : Decimal
  sortinoRatio : Decimal
  winRate : Decimal
  profitFactor : Decimal
  totalTrades : Nat
  avgHoldingPeriodDays : Decimal
  equityCurve : List EquityCurvePoint
  trades : List BacktestTrade
  monthlyReturns : List MonthlyReturn
  deriving DecidableEq, Repr

def emptyResult : BacktestResult where
  totalReturn := 0
  annualizedReturn := 0
  sharpeRatio := 0
  maxDrawdown := 0
  volatility := 0
  calmarRatio := 0
  sortinoRatio := 0
  winRate := 0
  profitFactor := 0
  totalTrades := 0
  avgHoldingPeriodDays := 0
  equityCurve := []
  trades := []
  monthlyReturns := []

/-- The result of a run over so many trading dates. -/
def resultOf (floats : Floats) (initialCapital : Decimal) (nDays : Nat) (equityCurve : List EquityCurvePoint)
    (trades : List BacktestTrade) : BacktestResult :=
  let returns := computeReturns equityCurve
  -- no point at all where no date has a price of the universe
  let finalValue := (equityCurve.getLast?.map (·.portfolioValue)).getD initialCapital
  let totalReturn := if initialCapital ≠ 0 then (finalValue - initialCapital) / initialCapital else 0
  let years : Decimal := nDays / tradingDaysPerYear
  let annualizedReturn := if 0 < years then floats.powLess (1 + totalReturn) (1 / years) else 0
  let maxDd := computeMaxDrawdown .exact equityCurve
  -- rough: two trades make a round trip
  let roundTrips := trades.length / 2
  { totalReturn
    annualizedReturn
    sharpeRatio := computeSharpe floats returns
    maxDrawdown := maxDd
    volatility := computeVolatility floats returns
    calmarRatio := computeCalmar annualizedReturn maxDd
    sortinoRatio := computeSortino floats returns
    winRate := computeWinRate trades
    profitFactor := computeProfitFactor trades
    totalTrades := trades.length
    avgHoldingPeriodDays := if 0 < roundTrips then nDays / roundTrips else nDays
    equityCurve
    trades
    monthlyReturns := computeMonthlyReturns .exact equityCurve }

/-- `BacktestEngine.run`. -/
def Backtest.run (floats : Floats) (e : Enumeration) (b : Backtest) : BacktestResult :=
  if b.dates = [] then emptyResult
  else
    let s := b.final e
    resultOf floats b.config.initialCapital b.dates.length s.equityCurve s.trades

/-! ## Days and trades -/

namespace Rebalancing

variable {r : Rebalancing} {s : State} {inst : String} {t : BacktestTrade}

/-- What there is to say of a trade: it buys what the cash pays for of what is missing, or sells what is held of
what is too much. -/
theorem order_cases (made : r.order s inst = some t) :
    ∃ price, r.prices.get? inst = some price ∧ price ≠ 0 ∧ 1 ≤ |r.diffValue s inst price| ∧
      (0 < r.diffValue s inst price ∧
          t = r.tradeOf inst .buy price (r.affordable s inst price (|r.diffValue s inst price| / price)) ∨
        r.diffValue s inst price ≤ 0 ∧ 0 < min (|r.diffValue s inst price| / price) (s.held inst) ∧
          t = r.tradeOf inst .sell price (min (|r.diffValue s inst price| / price) (s.held inst))) := by
  unfold order at made
  obtain ⟨price, quoted, made⟩ := Option.bind_eq_some_iff.mp made
  refine ⟨price, quoted, ?_⟩
  split at made
  · cases made
  · rename_i nonzero
    dsimp only at made
    split at made
    · cases made
    · rename_i large
      refine ⟨nonzero, not_lt.mp large, ?_⟩
      split at made
      · rename_i missing
        exact .inl ⟨missing, (Option.some.inj made).symm⟩
      · rename_i above
        split at made
        · cases made
        · rename_i some_held
          exact .inr ⟨not_lt.mp above, not_le.mp some_held, (Option.some.inj made).symm⟩

theorem order_ids (made : r.order s inst = some t) : t.date = r.date ∧ t.instrumentId = inst := by
  obtain ⟨price, -, -, -, ⟨-, rfl⟩ | ⟨-, -, rfl⟩⟩ := order_cases made
  · exact ⟨rfl, rfl⟩
  · exact ⟨rfl, rfl⟩

@[simp] theorem trades_settle (s : State) (t : BacktestTrade) : (settle s t).trades = s.trades ++ [t] := by
  cases t with
  | mk _ _ side _ _ _ _ => cases side <;> rfl

/-- The trades of a day leave the curve, the peak and the date before. -/
theorem untouched_trades (insts : List String) (s : State) :
    (insts.foldl r.trade s).equityCurve = s.equityCurve ∧ (insts.foldl r.trade s).peak = s.peak ∧
      (insts.foldl r.trade s).prevDate = s.prevDate := by
  induction insts generalizing s with
  | nil => exact ⟨rfl, rfl, rfl⟩
  | cons inst rest ih =>
    obtain ⟨curve, peak, prevDate⟩ := ih (r.trade s inst)
    rw [List.foldl_cons, curve, peak, prevDate, trade]
    split
    · rename_i t _
      cases t with
      | mk _ _ side _ _ _ _ => cases side <;> exact ⟨rfl, rfl, rfl⟩
    · exact ⟨rfl, rfl, rfl⟩

theorem equityCurve_trades (insts : List String) (s : State) :
    (insts.foldl r.trade s).equityCurve = s.equityCurve :=
  (untouched_trades insts s).1

theorem trades_trade (s : State) (inst : String) :
    (r.trade s inst).trades = s.trades ++ (r.order s inst).toList := by
  rw [trade]
  split
  · rename_i t made
    rw [trades_settle, made, Option.toList_some]
  · rename_i none_made
    rw [none_made, Option.toList_none, List.append_nil]

theorem trades_trades (insts : List String) (s : State) :
    (insts.foldl r.trade s).trades = s.trades ++ r.made s insts := by
  induction insts generalizing s with
  | nil => exact (List.append_nil _).symm
  | cons inst rest ih => rw [List.foldl_cons, ih, trades_trade, List.append_assoc, made]

theorem made_dated (s : State) (insts : List String) : ∀ t ∈ r.made s insts, t.date = r.date := by
  induction insts generalizing s with
  | nil => exact fun t member => nomatch member
  | cons inst rest ih =>
    rw [made, List.forall_mem_append]
    exact ⟨fun t member => (order_ids (Option.mem_toList.mp member)).1, ih _⟩

end Rebalancing

namespace Backtest

variable {b : Backtest} {e : Enumeration}

theorem mem_dates {date : CivilDate} : date ∈ b.dates ↔
    (b.config.startDate.toordinal ≤ date.toordinal ∧ date.toordinal ≤ b.config.endDate.toordinal) ∧
      ∃ inst price, priceOn b.priceData inst date = some price := by
  rw [dates, tradingDates, mem_sortOn, List.mem_eraseDups, List.mem_flatMap]
  constructor
  · -- some instrument's points give the date
    rintro ⟨points, listed, inside⟩
    obtain ⟨member, within⟩ := List.mem_filter.mp inside
    obtain ⟨pt, pointed, rfl⟩ := List.mem_map.mp member
    obtain ⟨item, held, rfl⟩ := List.mem_map.mp listed
    have quoted : b.priceData.get item.1 [] = item.2 := Dictionary.get_of_mem [] held
    refine ⟨by simpa using within, item.1, ?_⟩
    rw [← Option.isSome_iff_exists, priceOn, quoted, Option.isSome_map, List.getLast?_isSome]
    exact List.ne_nil_of_mem (List.mem_filter.mpr ⟨pointed, decide_eq_true rfl⟩)
  · -- and a price is of a point
    rintro ⟨within, inst, price, quoted⟩
    obtain ⟨pt, last, rfl⟩ := Option.map_eq_some_iff.mp quoted
    obtain ⟨listed, dated⟩ := List.mem_filter.mp (List.mem_of_getLast? last)
    refine ⟨_, b.priceData.get_mem_values (List.ne_nil_of_mem listed), ?_⟩
    obtain rfl := of_decide_eq_true dated
    exact List.mem_filter.mpr ⟨List.mem_map_of_mem listed, by simpa using within⟩

theorem dates_increasing (b : Backtest) : b.dates.Pairwise fun d d' => d.toordinal < d'.toordinal := by
  have distinct : b.dates.Nodup := (sortOn_perm _ _).nodup_iff.mpr (nodup_eraseDups _)
  have both := (sortOn_sorted CivilDate.toordinal _).and distinct
  refine both.imp ?_
  rintro d d' ⟨notAfter, other⟩
  exact lt_of_le_of_ne notAfter fun same => other (CivilDate.toordinal_injective same)

/-- The dates before one of them. -/
theorem filter_before {first rest : List CivilDate} {date : CivilDate}
    (increasing : (first ++ date :: rest).Pairwise fun d d' => d.toordinal < d'.toordinal) :
    (first ++ date :: rest).filter (fun d => d.toordinal < date.toordinal) = first := by
  obtain ⟨-, later, earlier⟩ := List.pairwise_append.mp increasing
  have all : first.filter (fun d => d.toordinal < date.toordinal) = first :=
    List.filter_eq_self.mpr fun d member => decide_eq_true (earlier d member date List.mem_cons_self)
  have none_before : (date :: rest).filter (fun d => d.toordinal < date.toordinal) = [] := by
    rw [List.filter_eq_nil_iff, List.forall_mem_cons]
    refine ⟨by simp, ?_⟩
    intro d member
    simpa using ((List.pairwise_cons.mp later).1 d member).le
  rw [List.filter_append, all, none_before, List.append_nil]

/-- A date with prices adds its point to the curve. -/
theorem equityCurve_day (s : State) (date : CivilDate) : (b.day e s date).equityCurve =
    if (b.prices date).items = [] then s.equityCurve
    else s.equityCurve ++ [(b.traded e s date).point date (b.prices date)] := by
  rw [day]
  split
  · rfl
  · rw [State.record, traded, Rebalancing.equityCurve_trades]

theorem trades_run (floats : Floats) : (b.run floats e).trades = (b.final e).trades := by
  rw [run, final]
  split
  · rename_i none_traded
    rw [none_traded]
    rfl
  · rfl

theorem equityCurve_run (floats : Floats) : (b.run floats e).equityCurve = (b.final e).equityCurve := by
  rw [run, final]
  split
  · rename_i none_traded
    rw [none_traded]
    rfl
  · rfl

end Backtest

end MiniHedge.Backtesting
