import MiniHedge.Library.Buckets
import MiniHedge.Library.Drawdown
import MiniHedge.Python.Context
import MiniHedge.Python.Dates
import Mathlib.Algebra.Order.BigOperators.GroupWithZero.List
import Mathlib.Data.Prod.Lex
import Mathlib.Data.String.Basic
import Mathlib.Tactic.FieldSimp

/-! The metrics of a backtest, computed of its trades and of its equity curve.

Roots and powers are taken in floating point and are a parameter. The drawdown and the
monthly returns are computed in a context; all else is exact.
-/

set_option autoImplicit false

namespace MiniHedge.Backtesting

open MiniHedge.Python MiniHedge.Library

inductive Side where
  | buy
  | sell
  deriving DecidableEq, Repr

structure BacktestTrade where
  date : CivilDate
  instrumentId : String
  side : Side
  quantity : Decimal
  price : Decimal
  commission : Decimal
  slippage : Decimal
  deriving DecidableEq, Repr

structure EquityCurvePoint where
  date : CivilDate
  portfolioValue : Decimal
  benchmarkValue : Option Decimal := none
  drawdown : Decimal
  deriving DecidableEq, Repr

structure MonthlyReturn where
  year : Nat
  month : Nat
  returnPct : Decimal
  benchmarkReturnPct : Option Decimal
  deriving DecidableEq, Repr

/-- `Decimal(str(math.sqrt(float(x))))` and `Decimal(str(float(x) ** y - 1))`. -/
structure Floats where
  sqrt : Decimal → Decimal
  powLess : Decimal → Decimal → Decimal

def tradingDaysPerYear : Decimal := 252

/-! ## Returns and ratios -/

def computeReturns (curve : List EquityCurvePoint) : List Decimal :=
  curve.zipWith (fun prev curr =>
    if prev.portfolioValue ≠ 0 then (curr.portfolioValue - prev.portfolioValue) / prev.portfolioValue
    else 0) curve.tail

section Ratios

variable (floats : Floats) (returns : List Decimal)

def mean (xs : List Decimal) : Decimal := xs.sum / xs.length

/-- The returns above the daily rate. -/
def excess (riskFreeRate : Decimal) : List Decimal := returns.map (· - riskFreeRate / tradingDaysPerYear)

def variance (xs : List Decimal) : Decimal := (xs.map fun x => (x - mean xs) ^ 2).sum / (xs.length - 1)

def computeSharpe (riskFreeRate : Decimal := 1 / 25) : Decimal :=
  if returns.length < 2 then 0
  else
    let excess := excess returns riskFreeRate
    let std := floats.sqrt (variance excess)
    if std = 0 then 0 else mean excess / std * floats.sqrt tradingDaysPerYear

def computeSortino (riskFreeRate : Decimal := 1 / 25) : Decimal :=
  if returns.length < 2 then 0
  else
    let excess := excess returns riskFreeRate
    let downside := excess.filter (· < 0)
    if downside = [] then 0
    else
      let std := floats.sqrt (mean (downside.map (· ^ 2)))
      if std = 0 then 0 else mean excess / std * floats.sqrt tradingDaysPerYear

def computeVolatility : Decimal :=
  if returns.length < 2 then 0
  else floats.sqrt (variance returns) * floats.sqrt tradingDaysPerYear

end Ratios

/-- What a value has lost of a peak. -/
def lossFrom (ctx : Context) (peak value : Decimal) : Decimal := ctx.divide (ctx.subtract peak value) peak

def computeMaxDrawdown (ctx : Context) (curve : List EquityCurvePoint) : Decimal :=
  maxDrawdown (lossFrom ctx) (curve.map (·.portfolioValue))

def computeCalmar (annualizedReturn maxDrawdown : Decimal) : Decimal :=
  if maxDrawdown = 0 then 0 else annualizedReturn / maxDrawdown

/-! ## Round trips -/

def BacktestTrade.sellNet (t : BacktestTrade) : Decimal := t.price * t.quantity - t.commission - t.slippage

def BacktestTrade.buyNet (t : BacktestTrade) : Decimal := t.price * t.quantity + t.commission + t.slippage

/-- What each sell brought over the buy that it is paired with, in one instrument. -/
def roundTrips (own : List BacktestTrade) : List Decimal :=
  (own.filter (·.side = .buy)).zipWith (fun buy sell => sell.sellNet - buy.buyNet)
    (own.filter (·.side = .sell))

/-- The round trips of all instruments. -/
def allRoundTrips (trades : List BacktestTrade) : List Decimal :=
  (buckets (·.instrumentId) trades).flatMap fun bucket => roundTrips bucket.2

def computeWinRate (trades : List BacktestTrade) : Decimal :=
  let trips := allRoundTrips trades
  if trips.length = 0 then 0 else (trips.filter (0 < ·)).length / trips.length

def computeProfitFactor (trades : List BacktestTrade) : Decimal :=
  let trips := allRoundTrips trades
  let grossProfit := (trips.filter (0 < ·)).sum
  let grossLoss := ((trips.filter (· ≤ 0)).map abs).sum
  if grossLoss = 0 then 0 else grossProfit / grossLoss

/-! ### Trades in another order -/

def tradesIn (inst : String) (trades : List BacktestTrade) : List BacktestTrade :=
  trades.filter (·.instrumentId = inst)

section Reordered

variable {trades trades' : List BacktestTrade} (same : ∀ inst, tradesIn inst trades = tradesIn inst trades')
include same

theorem perm_of_tradesIn : trades.Perm trades' := by
  -- a trade is counted among those of its own instrument
  rw [List.perm_iff_count]
  intro t
  have own : ∀ ts : List BacktestTrade, (tradesIn t.instrumentId ts).count t = ts.count t := fun ts =>
    List.count_filter (decide_eq_true rfl)
  rw [← own trades, same, own]

theorem allRoundTrips_perm : (allRoundTrips trades).Perm (allRoundTrips trades') := by
  have perm : (buckets BacktestTrade.instrumentId trades).Perm (buckets BacktestTrade.instrumentId trades') :=
    buckets_perm BacktestTrade.instrumentId same
  exact perm.flatMap_right fun bucket => roundTrips bucket.2

theorem computeWinRate_eq : computeWinRate trades = computeWinRate trades' := by
  have perm := allRoundTrips_perm same
  rw [computeWinRate, computeWinRate, perm.length_eq, (perm.filter _).length_eq]

theorem computeProfitFactor_eq : computeProfitFactor trades = computeProfitFactor trades' := by
  have perm := allRoundTrips_perm same
  rw [computeProfitFactor, computeProfitFactor, (perm.filter _).sum_eq, ((perm.filter _).map abs).sum_eq]

end Reordered

/-! ## Months -/

def EquityCurvePoint.month (pt : EquityCurvePoint) : ℕ ×ₗ ℕ := toLex (pt.date.year, pt.date.month)

section Monthly

variable (ctx : Context)

def growth (first last : Decimal) : Decimal :=
  if first ≠ 0 then ctx.divide (ctx.subtract last first) first else 0

def monthlyReturn (month : ℕ ×ₗ ℕ) (points : List EquityCurvePoint) : Option MonthlyReturn := do
  let first ← points.head?
  let last ← points.getLast?
  return {
    year := (ofLex month).1
    month := (ofLex month).2
    returnPct := growth ctx first.portfolioValue last.portfolioValue
    benchmarkReturnPct :=
      match first.benchmarkValue, last.benchmarkValue with
      | some first, some last => some (growth ctx first last)
      | _, _ => none }

def computeMonthlyReturns (curve : List EquityCurvePoint) : List MonthlyReturn :=
  (sortedBuckets EquityCurvePoint.month curve).filterMap fun bucket => monthlyReturn ctx bucket.1 bucket.2

end Monthly

/-! ## The drawdown -/

/-- The curve in another unit. -/
def EquityCurvePoint.scaled (c : Decimal) (pt : EquityCurvePoint) : EquityCurvePoint :=
  { pt with portfolioValue := c * pt.portfolioValue }

/-- The falls of the portfolio's value, from any point of the curve to one that is not before it. -/
def valueFalls (curve : List EquityCurvePoint) : Set Decimal :=
  {x | ∃ (i j : ℕ) (a b : EquityCurvePoint), i ≤ j ∧ curve[i]? = some a ∧ curve[j]? = some b ∧
    x = (a.portfolioValue - b.portfolioValue) / a.portfolioValue}

theorem falls_values (curve : List EquityCurvePoint) :
    falls (curve.map (·.portfolioValue)) = valueFalls curve := by
  apply Set.ext
  intro x
  constructor
  · rintro ⟨i, j, v, w, order, first, second, rfl⟩
    rw [List.getElem?_map, Option.map_eq_some_iff] at first second
    obtain ⟨a, first, rfl⟩ := first
    obtain ⟨b, second, rfl⟩ := second
    exact ⟨i, j, a, b, order, first, second, rfl⟩
  · rintro ⟨i, j, a, b, order, first, second, rfl⟩
    refine ⟨i, j, a.portfolioValue, b.portfolioValue, order, ?_, ?_, rfl⟩
    · rw [List.getElem?_map, first, Option.map_some]
    · rw [List.getElem?_map, second, Option.map_some]

/-- The differences of the values need no rounding. -/
def ExactDifferences (curve : List EquityCurvePoint) : Prop :=
  ∀ a ∈ curve, ∀ b ∈ curve, b.portfolioValue ≤ a.portfolioValue → Fits (a.portfolioValue - b.portfolioValue)

theorem lossFrom_default {peak v : Decimal} (exact : Fits (peak - v)) :
    lossFrom .default peak v = significant (fallFrom peak v) := by
  have kept : Context.default.subtract peak v = peak - v := exact.significant_eq
  rw [lossFrom, kept]
  rfl

/-- No more is lost than all, but all of it where less than half of the last digit is left. -/
theorem lossFrom_le_one {peak v : Decimal} (positive : 0 < v) (below : v ≤ peak) : lossFrom .default peak v ≤ 1 := by
  have above : 0 < peak := positive.trans_le below
  have most : significant (peak - v) ≤ significant peak := significant_le above.le (by linarith)
  have near := (abs_le.mp (significant_near peak)).2
  have small := ulp_le above
  have quotient : significant (peak - v) / peak ≤ 1 + 1 / (2 * 10 ^ 27) := by
    rw [div_le_iff₀ above]
    have half : (1 + 1 / (2 * 10 ^ 27)) * peak = peak + peak / 10 ^ 27 / 2 := by ring
    rw [half]
    linarith
  have rounded : significant (1 + 1 / (2 * 10 ^ 27)) = 1 := by decide +kernel
  calc lossFrom .default peak v ≤ significant (1 + 1 / (2 * 10 ^ 27)) := significant_le (by norm_num) quotient
    _ = 1 := rounded

section Drawdown

variable {curve : List EquityCurvePoint} (positive : ∀ pt ∈ curve, 0 < pt.portfolioValue)
include positive

theorem values_positive : ∀ v ∈ curve.map (·.portfolioValue), 0 < v := List.forall_mem_map.mpr positive

theorem computeMaxDrawdown_losses (nonempty : curve ≠ []) :
    IsGreatest (losses (lossFrom .default) (curve.map (·.portfolioValue))) (computeMaxDrawdown .default curve) := by
  refine maxDrawdown_losses (fun v _ => ?_) (mt List.map_eq_nil_iff.mp nonempty) (values_positive positive)
  have zero : Fits (v - v) := by
    rw [sub_self]
    exact ⟨0, 0, by norm_num, by norm_num⟩
  rw [lossFrom_default zero, fallFrom_self, significant_zero]

theorem computeMaxDrawdown_le_one : computeMaxDrawdown .default curve ≤ 1 := by
  by_cases empty : curve = []
  · rw [empty]
    exact zero_le_one
  · obtain ⟨before, v, after, peak, split, top, same⟩ := (computeMaxDrawdown_losses positive empty).1
    rw [same]
    exact lossFrom_le_one (values_positive positive v (by simp [split])) (top.2 (by simp))

/-- With exact differences only the quotients are rounded. -/
theorem computeMaxDrawdown_default (exact : ExactDifferences curve) :
    computeMaxDrawdown .default curve = significant (computeMaxDrawdown .exact curve) := by
  refine maxDrawdown_comp (lossFrom .exact) significant_zero (fun x above y _ le => significant_mono above le) (values_positive positive)
    (fun p v => fallFrom_nonneg) fun p member v member' below => ?_
  obtain ⟨a, inside, rfl⟩ := List.mem_map.mp member
  obtain ⟨b, inside', rfl⟩ := List.mem_map.mp member'
  exact lossFrom_default (exact a inside b inside' below)

theorem computeMaxDrawdown_falls (exact : ExactDifferences curve) (nonempty : curve ≠ []) :
    IsGreatest (significant '' valueFalls curve) (computeMaxDrawdown .default curve) := by
  obtain ⟨member, highest⟩ : IsGreatest (valueFalls curve) (computeMaxDrawdown .exact curve) := by
    rw [← falls_values]
    exact maxDrawdown_greatest (mt List.map_eq_nil_iff.mp nonempty) (values_positive positive)
  rw [computeMaxDrawdown_default positive exact]
  refine ⟨⟨_, member, rfl⟩, ?_⟩
  rintro _ ⟨x, inside, rfl⟩
  exact significant_le (maxDrawdown_nonneg _ _) (highest inside)

theorem computeMaxDrawdown_scaled {c : Decimal} (scale : 0 < c) (exact : ExactDifferences curve)
    (exact' : ExactDifferences (curve.map (·.scaled c))) :
    computeMaxDrawdown .default (curve.map (·.scaled c)) = computeMaxDrawdown .default curve := by
  have positive' : ∀ pt ∈ curve.map (·.scaled c), 0 < pt.portfolioValue :=
    List.forall_mem_map.mpr fun pt member => mul_pos scale (positive pt member)
  have same : computeMaxDrawdown .exact (curve.map (·.scaled c)) = computeMaxDrawdown .exact curve := by
    have own := maxDrawdown_scale (values_positive positive) scale
    rw [List.map_map] at own
    rw [computeMaxDrawdown, List.map_map]
    exact own
  rw [computeMaxDrawdown_default positive' exact', computeMaxDrawdown_default positive exact, same]

end Drawdown

/-- The drawdown is the largest loss from the highest value so far, as it is computed. It is at most one, and not
less for a longer curve. Where the differences are exact, it is the largest fall of all, rounded, in any unit. -/
theorem maxDrawdown_rounded {curve : List EquityCurvePoint} (positive : ∀ pt ∈ curve, 0 < pt.portfolioValue) :
    (curve ≠ [] → IsGreatest (losses (lossFrom .default) (curve.map (·.portfolioValue)))
      (computeMaxDrawdown .default curve)) ∧
      (curve = [] → computeMaxDrawdown .default curve = 0) ∧
      (0 ≤ computeMaxDrawdown .default curve ∧ computeMaxDrawdown .default curve ≤ 1) ∧
      (∀ more, computeMaxDrawdown .default curve ≤ computeMaxDrawdown .default (curve ++ more)) ∧
      (ExactDifferences curve → curve ≠ [] →
        IsGreatest (significant '' valueFalls curve) (computeMaxDrawdown .default curve)) ∧
      ∀ c, 0 < c → ExactDifferences curve → ExactDifferences (curve.map (·.scaled c)) →
        computeMaxDrawdown .default (curve.map (·.scaled c)) = computeMaxDrawdown .default curve := by
  refine ⟨computeMaxDrawdown_losses positive, ?_, ⟨maxDrawdown_nonneg _ _, computeMaxDrawdown_le_one positive⟩, ?_,
    computeMaxDrawdown_falls positive, fun c => computeMaxDrawdown_scaled positive⟩
  · rintro rfl
    rfl
  · intro more
    rw [computeMaxDrawdown, computeMaxDrawdown, List.map_append]
    exact maxDrawdown_append _ _ _

/-! ## Monthly returns -/

section Months

variable {curve : List EquityCurvePoint}

def months (curve : List EquityCurvePoint) : List (ℕ ×ₗ ℕ) := sortedKeys EquityCurvePoint.month curve

def pointsOf (curve : List EquityCurvePoint) (month : ℕ ×ₗ ℕ) : List EquityCurvePoint :=
  curve.filter fun pt => pt.month = month

/-- The value at the first point of a month. -/
def opening (curve : List EquityCurvePoint) (month : ℕ ×ₗ ℕ) : Decimal :=
  ((pointsOf curve month).head?.map (·.portfolioValue)).getD 0

/-- The value at the last point of a month. -/
def closing (curve : List EquityCurvePoint) (month : ℕ ×ₗ ℕ) : Decimal :=
  ((pointsOf curve month).getLast?.map (·.portfolioValue)).getD 0

theorem pointsOf_ne_nil {month : ℕ ×ₗ ℕ} (occurs : month ∈ months curve) : pointsOf curve month ≠ [] := by
  obtain ⟨pt, member, rfl⟩ := List.mem_map.mp ((mem_sortedKeys _).mp occurs)
  exact List.ne_nil_of_mem (List.mem_filter.mpr ⟨member, decide_eq_true rfl⟩)

section Positive

variable (positive : ∀ pt ∈ curve, 0 < pt.portfolioValue)
include positive

theorem opening_pos {month : ℕ ×ₗ ℕ} (occurs : month ∈ months curve) : 0 < opening curve month := by
  obtain ⟨pt, head⟩ := Option.isSome_iff_exists.mp (List.isSome_head?.mpr (pointsOf_ne_nil occurs))
  rw [opening, head]
  exact positive pt (List.mem_of_mem_filter (List.mem_of_head? head))

theorem closing_pos {month : ℕ ×ₗ ℕ} (occurs : month ∈ months curve) : 0 < closing curve month := by
  have tail := List.getLast?_eq_some_getLast (pointsOf_ne_nil occurs)
  rw [closing, tail]
  exact positive _ (List.mem_of_mem_filter (List.getLast_mem (pointsOf_ne_nil occurs)))

/-- What a month's return adds to one, over what its value has been multiplied by. -/
def monthRounding (curve : List EquityCurvePoint) (month : ℕ ×ₗ ℕ) : Decimal :=
  (1 + growth .default (opening curve month) (closing curve month)) * opening curve month / closing curve month

theorem monthlyReturn_eq {month : ℕ ×ₗ ℕ} (occurs : month ∈ months curve) :
    (monthlyReturn .default month (pointsOf curve month)).map (1 + ·.returnPct) =
      some (closing curve month / opening curve month * monthRounding curve month) := by
  have above := opening_pos positive occurs
  have above' := closing_pos positive occurs
  obtain ⟨first, head⟩ := Option.isSome_iff_exists.mp (List.isSome_head?.mpr (pointsOf_ne_nil occurs))
  have tail := List.getLast?_eq_some_getLast (pointsOf_ne_nil occurs)
  have cancel : closing curve month / opening curve month * monthRounding curve month =
      1 + growth .default (opening curve month) (closing curve month) := by
    rw [monthRounding]
    field_simp
  rw [cancel, opening, closing, monthlyReturn, head, tail]
  rfl

theorem returns_eq : (computeMonthlyReturns .default curve).map (1 + ·.returnPct) =
    (months curve).map fun month => closing curve month / opening curve month * monthRounding curve month := by
  rw [computeMonthlyReturns, sortedBuckets_eq, List.filterMap_map, List.map_filterMap, ← List.filterMap_eq_map]
  apply List.filterMap_congr
  intro month occurs
  exact monthlyReturn_eq positive occurs

end Positive

/-! ### What is won and lost from month to month -/

/-- The months of the points do not decrease. -/
def InMonthOrder (curve : List EquityCurvePoint) : Prop := curve.Pairwise fun a b => a.month ≤ b.month

/-- What the value is multiplied by from the last point of each month to the first point of the next. -/
def acrossMonths : List EquityCurvePoint → Decimal
  | [] => 1
  | [_] => 1
  | a :: b :: rest => (if a.month = b.month then 1 else b.portfolioValue / a.portfolioValue) * acrossMonths (b :: rest)

/-- What the value is multiplied by from the first to the last point of each month. -/
def withinMonths (curve : List EquityCurvePoint) : Decimal :=
  ((months curve).map fun month => closing curve month / opening curve month).prod

/-- The change of each month needs no rounding. -/
def ExactMonths (curve : List EquityCurvePoint) : Prop :=
  ∀ pt ∈ curve, Fits (closing curve pt.month - opening curve pt.month) ∧
    Fits ((closing curve pt.month - opening curve pt.month) / opening curve pt.month)

section Telescope

variable {a b : EquityCurvePoint} {rest : List EquityCurvePoint}

theorem pointsOf_cons (month : ℕ ×ₗ ℕ) :
    pointsOf (a :: rest) month = if a.month = month then a :: pointsOf rest month else pointsOf rest month := by
  unfold pointsOf
  by_cases own : a.month = month
  · rw [if_pos own, List.filter_cons_of_pos (by simpa using own)]
  · rw [if_neg own, List.filter_cons_of_neg (by simpa using own)]

theorem mem_months {month : ℕ ×ₗ ℕ} : month ∈ months curve ↔ ∃ pt ∈ curve, pt.month = month := by
  rw [months, mem_sortedKeys, List.mem_map]

theorem closing_cons {month : ℕ ×ₗ ℕ} (occurs : month ∈ months rest) : closing (a :: rest) month = closing rest month := by
  rw [closing, closing, pointsOf_cons]
  split
  · rw [List.getLast?_cons_of_ne_nil (pointsOf_ne_nil occurs)]
  · rfl

theorem opening_cons {month : ℕ ×ₗ ℕ} (other : a.month ≠ month) : opening (a :: rest) month = opening rest month := by
  rw [opening, opening, pointsOf_cons, if_neg other]

theorem opening_own : opening (a :: rest) a.month = a.portfolioValue := by
  rw [opening, pointsOf_cons, if_pos rfl]
  rfl

theorem months_cons_perm : (months (a :: rest)).Perm
    (if a.month ∈ months rest then months rest else a.month :: months rest) := by
  have distinct : (months (a :: rest)).Nodup := nodup_sortedKeys _ _
  have distinct' : (if a.month ∈ months rest then months rest else a.month :: months rest).Nodup := by
    split
    · exact nodup_sortedKeys _ _
    · exact List.nodup_cons.mpr ⟨‹_›, nodup_sortedKeys _ _⟩
  rw [List.perm_ext_iff_of_nodup distinct distinct']
  intro month
  have both : month ∈ months (a :: rest) ↔ a.month = month ∨ month ∈ months rest := by
    rw [mem_months, mem_months, List.exists_mem_cons_iff]
  rw [both]
  split
  · rename_i occurs
    exact or_iff_right_of_imp fun same => same ▸ occurs
  · rw [List.mem_cons, eq_comm]

/-- Another point in the month of the first one. -/
theorem withinMonths_same (same : a.month = b.month) (nonzero : b.portfolioValue ≠ 0) :
    withinMonths (a :: b :: rest) = b.portfolioValue / a.portfolioValue * withinMonths (b :: rest) := by
  have occurs : b.month ∈ months (b :: rest) := mem_months.mpr ⟨b, List.mem_cons_self, rfl⟩
  have distinct : (months (b :: rest)).Nodup := nodup_sortedKeys _ _
  rw [withinMonths, withinMonths, (months_cons_perm.map _).prod_eq, if_pos (same ▸ occurs),
    prod_others _ distinct occurs, prod_others _ distinct occurs, closing_cons occurs, ← same, opening_own, same,
    opening_own]
  have others : ((months (b :: rest)).filter (· ≠ b.month)).map
      (fun month => closing (a :: b :: rest) month / opening (a :: b :: rest) month) =
      ((months (b :: rest)).filter (· ≠ b.month)).map
        fun month => closing (b :: rest) month / opening (b :: rest) month := by
    refine List.map_congr_left fun month inside => ?_
    obtain ⟨member, other⟩ := List.mem_filter.mp inside
    rw [closing_cons member, opening_cons (by rw [same]; exact (of_decide_eq_true other).symm)]
  rw [others]
  field_simp

/-- A point in a month of its own, before the others. -/
theorem withinMonths_new (new : a.month ∉ months rest) (nonzero : a.portfolioValue ≠ 0) :
    withinMonths (a :: rest) = withinMonths rest := by
  have alone : closing (a :: rest) a.month = a.portfolioValue := by
    have none_later : pointsOf rest a.month = [] := by
      refine List.filter_eq_nil_iff.mpr fun pt member same => ?_
      exact new (mem_months.mpr ⟨pt, member, of_decide_eq_true same⟩)
    rw [closing, pointsOf_cons, if_pos rfl, none_later]
    rfl
  rw [withinMonths, (months_cons_perm.map _).prod_eq, if_neg new, List.map_cons, List.prod_cons, alone, opening_own,
    div_self nonzero, one_mul, withinMonths]
  congr 1
  refine List.map_congr_left fun month occurs => ?_
  rw [closing_cons occurs, opening_cons (fun same => new (same ▸ occurs))]

end Telescope

/-- The months and what lies between them make up the whole. -/
theorem within_mul_across (ordered : InMonthOrder curve) (positive : ∀ pt ∈ curve, 0 < pt.portfolioValue)
    {first last : EquityCurvePoint} (head : curve.head? = some first) (tail : curve.getLast? = some last) :
    withinMonths curve * acrossMonths curve = last.portfolioValue / first.portfolioValue := by
  induction curve generalizing first with
  | nil => cases head
  | cons a rest ih =>
    obtain rfl := Option.some.inj head
    have above := positive a List.mem_cons_self
    cases rest with
    | nil =>
      obtain rfl : a = last := Option.some.inj tail
      have none_else : withinMonths [] = 1 := rfl
      rw [withinMonths_new (by simp [mem_months]) above.ne', div_self above.ne', none_else, one_mul, acrossMonths]
    | cons b rest =>
      obtain ⟨before, ordered⟩ := List.pairwise_cons.mp ordered
      have above' := positive b (by simp)
      have whole := ih ordered (fun pt member => positive pt (List.mem_cons_of_mem _ member)) rfl
        (by rwa [List.getLast?_cons_cons] at tail)
      rw [acrossMonths]
      split
      · rename_i same
        rw [withinMonths_same same above'.ne', one_mul, mul_assoc, whole]
        field_simp
      · rename_i other
        have new : a.month ∉ months (b :: rest) := by
          rw [mem_months]
          rintro ⟨pt, member, same⟩
          have later : b.month ≤ pt.month := by
            rcases List.mem_cons.mp member with rfl | inside
            · exact le_rfl
            · exact (List.pairwise_cons.mp ordered).1 pt inside
          exact other (le_antisymm (before b List.mem_cons_self) (same ▸ later))
        rw [withinMonths_new new above.ne', mul_left_comm, whole]
        field_simp

end Months

def valued (year month day : Nat) (value : Decimal) : EquityCurvePoint :=
  { date := .ofNat year month day, portfolioValue := value, drawdown := 0 }

/-- February opens where January has closed, and nothing is seen of March. -/
def carried : List EquityCurvePoint :=
  [valued 2025 1 2 100, valued 2025 1 31 110, valued 2025 2 3 110, valued 2025 2 28 99, valued 2025 4 1 99]

/-- One drawdown and a recovery. -/
theorem carried_drawdown : computeMaxDrawdown .default carried = 1 / 10 ∧
    IsGreatest (losses (lossFrom .default) (carried.map (·.portfolioValue))) (computeMaxDrawdown .default carried) :=
  ⟨by decide +kernel, (maxDrawdown_rounded (by decide +kernel)).1 (by decide)⟩

/-- A value that is too small for the digits of the difference is taken for nothing. -/
theorem all_lost : ¬ ∀ curve : List EquityCurvePoint, (∀ pt ∈ curve, 0 < pt.portfolioValue) →
    computeMaxDrawdown .default curve < 1 := by
  intro less
  have below := less [valued 2025 1 2 1, valued 2025 1 3 (1 / 10 ^ 30)] (by decide +kernel)
  have rounded : computeMaxDrawdown .default [valued 2025 1 2 1, valued 2025 1 3 (1 / 10 ^ 30)] = 1 := by
    decide +kernel
  rw [rounded] at below
  exact lt_irrefl _ below

end MiniHedge.Backtesting
