import MiniHedge.Python.Decimal
import Mathlib.Algebra.Order.Group.MinMax

/-! What an order cost to execute, taken apart.

Costs are in basis points of the arrival price, with four places.
-/

set_option autoImplicit false

namespace MiniHedge.Tca

open MiniHedge.Python

structure TCAInput where
  side : String
  quantity : Decimal
  filledQuantity : Decimal
  avgFillPrice : Decimal
  arrivalMidPrice : Decimal
  arrivalSpread : Decimal
  vwapBenchmark : Option Decimal
  commissionRateBps : Decimal
  adv : Option Int
  executionStart : Datetime
  executionEnd : Datetime
  terminalPrice : Option Decimal
  deriving DecidableEq, Repr

structure TCAResult where
  totalCostBps : Decimal
  commissionCostBps : Decimal
  spreadCostBps : Decimal
  marketImpactCostBps : Decimal
  timingCostBps : Decimal
  opportunityCostBps : Decimal
  implementationShortfallBps : Decimal
  participationRate : Option Decimal
  executionDurationSeconds : Int
  totalCostUsd : Decimal
  deriving DecidableEq, Repr

namespace TCAInput

variable (inp : TCAInput)

def sign : Decimal := if inp.side = "buy" then 1 else -1

/-- What a move of the price costs the order. -/
def moveBps (fromPrice toPrice : Decimal) : Decimal :=
  inp.sign * (toPrice - fromPrice) / inp.arrivalMidPrice * 10000

def halfSpreadBps : Decimal := inp.arrivalSpread / 2 / inp.arrivalMidPrice * 10000

def spread : Decimal := quantize 4 .halfEven inp.halfSpreadBps

def timing : Decimal :=
  match inp.vwapBenchmark with
  | some vwap => quantize 4 .halfEven (inp.moveBps inp.arrivalMidPrice vwap)
  | none => 0

def impact : Decimal :=
  match inp.vwapBenchmark with
  | some vwap => quantize 4 .halfEven (inp.moveBps vwap inp.avgFillPrice)
  | none => max 0 (quantize 4 .halfEven (inp.moveBps inp.arrivalMidPrice inp.avgFillPrice) - inp.spread)

def opportunity : Except Exc Decimal :=
  match inp.terminalPrice with
  | none => .ok 0
  | some terminalPrice =>
    if inp.filledQuantity < inp.quantity then do
      let filledFrac ← divide inp.filledQuantity inp.quantity
      let priceMove := quantize 4 .halfEven (inp.moveBps inp.arrivalMidPrice terminalPrice)
      return quantize 4 .halfEven ((1 - filledFrac) * priceMove)
    else .ok 0

def participation : Option Decimal :=
  match inp.adv with
  | some adv => if 0 < adv then some (quantize 6 .halfEven (inp.filledQuantity / adv)) else none
  | none => none

/-- Moments are in microseconds. -/
def duration : Int := max 0 ((inp.executionEnd - inp.executionStart).tdiv 1000000)

def zeroResult : TCAResult where
  totalCostBps := 0
  commissionCostBps := 0
  spreadCostBps := 0
  marketImpactCostBps := 0
  timingCostBps := 0
  opportunityCostBps := 0
  implementationShortfallBps := 0
  participationRate := none
  executionDurationSeconds := inp.duration
  totalCostUsd := 0

/-- The shortfall is the sum of all components. -/
def result (opportunity : Decimal) : TCAResult :=
  let implShortfall := quantize 4 .halfEven
    (inp.commissionRateBps + inp.spread + inp.timing + inp.impact + opportunity)
  { totalCostBps := implShortfall
    commissionCostBps := inp.commissionRateBps
    spreadCostBps := inp.spread
    marketImpactCostBps := inp.impact
    timingCostBps := inp.timing
    opportunityCostBps := opportunity
    implementationShortfallBps := implShortfall
    participationRate := inp.participation
    executionDurationSeconds := inp.duration
    totalCostUsd := quantize 2 .halfEven (implShortfall / 10000 * inp.arrivalMidPrice * inp.quantity) }

end TCAInput

/-- `CostEngine.compute`. -/
def compute (inp : TCAInput) : Except Exc TCAResult :=
  if inp.arrivalMidPrice ≤ 0 then .ok inp.zeroResult
  else inp.opportunity.map inp.result

/-! ## The components -/

/-- The last place that costs are rounded to. -/
def unit : Decimal := 1 / 10000

theorem quantize_within (x : Decimal) : |quantize 4 .halfEven x - x| ≤ unit / 2 := by
  have half : (1 : Decimal) / 2 / 10 ^ 4 = unit / 2 := by norm_num [unit]
  rw [← half]
  exact quantize_near 4 .halfEven x

namespace TCAInput

/-- The average price of the fills against the price at arrival. -/
def slippageBps (inp : TCAInput) : Decimal := inp.moveBps inp.arrivalMidPrice inp.avgFillPrice

variable {inp : TCAInput}

theorem moveBps_add (a b c : Decimal) : inp.moveBps a b + inp.moveBps b c = inp.moveBps a c := by
  unfold moveBps
  ring

/-- What is paid before the benchmark and after it comes to the slippage, wherever the benchmark is. -/
theorem timing_add_impact {vwap : Decimal} (benchmark : inp.vwapBenchmark = some vwap) :
    |inp.timing + inp.impact - inp.slippageBps| ≤ unit := by
  have drift := quantize_within (inp.moveBps inp.arrivalMidPrice vwap)
  have premium := quantize_within (inp.moveBps vwap inp.avgFillPrice)
  rw [slippageBps, ← moveBps_add inp.arrivalMidPrice vwap, timing, impact, benchmark]
  rw [abs_le] at drift premium ⊢
  constructor
  · linarith
  · linarith

/-- Without a benchmark, the impact is what the slippage exceeds the spread by. -/
theorem spread_add_impact (none_given : inp.vwapBenchmark = none) :
    |inp.spread + inp.impact - max inp.halfSpreadBps inp.slippageBps| ≤ unit / 2 := by
  have paid : inp.spread + inp.impact = max inp.spread (quantize 4 .halfEven inp.slippageBps) := by
    rw [impact, none_given]
    change inp.spread + max 0 (quantize 4 .halfEven inp.slippageBps - inp.spread) = _
    rw [← max_add_add_left, add_zero, add_sub_cancel]
  have parts := abs_max_sub_max_le_max inp.spread (quantize 4 .halfEven inp.slippageBps) inp.halfSpreadBps
    inp.slippageBps
  rw [paid]
  exact parts.trans (max_le (quantize_within _) (quantize_within _))

theorem opportunity_filled (filled : inp.quantity ≤ inp.filledQuantity) : inp.opportunity = .ok 0 := by
  unfold opportunity
  cases inp.terminalPrice with
  | none => rfl
  | some terminalPrice => exact if_neg (not_lt.mpr filled)

theorem impact_nonneg (none_given : inp.vwapBenchmark = none) : 0 ≤ inp.impact := by
  rw [impact, none_given]
  exact le_max_left 0 _

end TCAInput

/-! ## The shortfall of a filled order -/

/-- What a result says of an order that was filled. With a benchmark, timing and impact are the slippage
between them; without, the spread is a part of it, and impact is what is left of it, if anything. -/
structure Decomposed (inp : TCAInput) (r : TCAResult) : Prop where
  commission : r.commissionCostBps = inp.commissionRateBps
  spread : |r.spreadCostBps - inp.halfSpreadBps| ≤ unit
  opportunity : r.opportunityCostBps = 0
  total : |r.implementationShortfallBps - (r.commissionCostBps + r.spreadCostBps + r.timingCostBps +
    r.marketImpactCostBps)| ≤ unit
  benchmark : inp.vwapBenchmark.isSome → |r.timingCostBps + r.marketImpactCostBps - inp.slippageBps| ≤ 2 * unit
  clamped : inp.vwapBenchmark = none → r.timingCostBps = 0 ∧ 0 ≤ r.marketImpactCostBps ∧
    |r.implementationShortfallBps - (inp.commissionRateBps + max inp.halfSpreadBps inp.slippageBps)| ≤ 2 * unit
  covered : inp.vwapBenchmark = none → inp.halfSpreadBps ≤ inp.slippageBps →
    |r.implementationShortfallBps - (inp.commissionRateBps + inp.slippageBps)| ≤ 2 * unit

theorem compute_filled {inp : TCAInput} (filled : inp.quantity ≤ inp.filledQuantity)
    (arrival : 0 < inp.arrivalMidPrice) : compute inp = .ok (inp.result 0) := by
  rw [compute, if_neg (not_le.mpr arrival), TCAInput.opportunity_filled filled]
  rfl

theorem shortfall_within (inp : TCAInput) :
    |(inp.result 0).implementationShortfallBps -
      (inp.commissionRateBps + inp.spread + inp.timing + inp.impact)| ≤ unit / 2 := by
  have rounded : (inp.result 0).implementationShortfallBps =
      quantize 4 .halfEven (inp.commissionRateBps + inp.spread + inp.timing + inp.impact + 0) := rfl
  rw [rounded, add_zero]
  exact quantize_within _

theorem decomposed_result (inp : TCAInput) : Decomposed inp (inp.result 0) := by
  have spread := quantize_within inp.halfSpreadBps
  have total := shortfall_within inp
  have unit_pos : 0 < unit := by decide +kernel
  have clamped : inp.vwapBenchmark = none → |(inp.result 0).implementationShortfallBps -
      (inp.commissionRateBps + max inp.halfSpreadBps inp.slippageBps)| ≤ 2 * unit := by
    intro none_given
    have paid := inp.spread_add_impact none_given
    have none_drifted : inp.timing = 0 := by
      rw [TCAInput.timing, none_given]
    rw [none_drifted] at total
    rw [abs_le] at paid total ⊢
    constructor
    · linarith
    · linarith
  constructor
  · rfl
  · exact spread.trans (by linarith)
  · rfl
  · exact total.trans (by linarith)
  · intro given
    obtain ⟨vwap, benchmark⟩ := Option.isSome_iff_exists.mp given
    exact (inp.timing_add_impact benchmark).trans (by linarith)
  · intro none_given
    refine ⟨?_, inp.impact_nonneg none_given, clamped none_given⟩
    simp only [TCAInput.result, TCAInput.timing, none_given]
  · intro none_given covered
    have near := clamped none_given
    rwa [max_eq_right covered] at near

theorem shortfall_vwap (inp : TCAInput) {vwap : Decimal} (benchmark : inp.vwapBenchmark = some vwap) :
    |(inp.result 0).implementationShortfallBps - (inp.commissionRateBps + inp.spread + inp.slippageBps)| ≤
      3 / 2 * unit := by
  have total := shortfall_within inp
  have paid := inp.timing_add_impact benchmark
  rw [abs_le] at total paid ⊢
  constructor
  · linarith
  · linarith

/-- Another benchmark gives the same shortfall, up to rounding. -/
theorem shortfall_benchmark (inp : TCAInput) (vwap other : Decimal) :
    |({ inp with vwapBenchmark := some vwap }.result 0).implementationShortfallBps -
      ({ inp with vwapBenchmark := some other }.result 0).implementationShortfallBps| ≤ 3 * unit := by
  have either : ∀ vwap, |({ inp with vwapBenchmark := some vwap }.result 0).implementationShortfallBps -
      (inp.commissionRateBps + inp.spread + inp.slippageBps)| ≤ 3 / 2 * unit :=
    fun vwap => shortfall_vwap { inp with vwapBenchmark := some vwap } rfl
  have first := either vwap
  have second := either other
  rw [abs_le] at first second ⊢
  constructor
  · linarith
  · linarith

/-- What a filled order's result says, whatever the benchmark is. -/
theorem filled_decomposed {inp : TCAInput} (filled : inp.quantity ≤ inp.filledQuantity)
    (arrival : 0 < inp.arrivalMidPrice) :
    ∃ r, compute inp = .ok r ∧ Decomposed inp r ∧
      ∀ vwap other r' r'', compute { inp with vwapBenchmark := some vwap } = .ok r' →
        compute { inp with vwapBenchmark := some other } = .ok r'' →
          |r'.implementationShortfallBps - r''.implementationShortfallBps| ≤ 3 * unit := by
  refine ⟨_, compute_filled filled arrival, decomposed_result inp, ?_⟩
  intro vwap other r' r'' first second
  have one : compute { inp with vwapBenchmark := some vwap } = _ := compute_filled filled arrival
  have another : compute { inp with vwapBenchmark := some other } = _ := compute_filled filled arrival
  rw [one, Except.ok.injEq] at first
  rw [another, Except.ok.injEq] at second
  rw [← first, ← second]
  exact shortfall_benchmark inp vwap other

/-- Bought below the price at arrival, without a benchmark. -/
def improved : TCAInput where
  side := "buy"
  quantity := 10000
  filledQuantity := 10000
  avgFillPrice := 2499 / 50
  arrivalMidPrice := 50
  arrivalSpread := 1 / 25
  vwapBenchmark := none
  commissionRateBps := 5
  adv := some 500000
  executionStart := 0
  executionEnd := 1800000000
  terminalPrice := none

theorem filled_decomposed_improved : ∃ r, compute improved = .ok r ∧ Decomposed improved r :=
  have ⟨r, computed, decomposed, _⟩ :=
    filled_decomposed (by decide +kernel : improved.quantity ≤ improved.filledQuantity) (by decide +kernel)
  ⟨r, computed, decomposed⟩

/-- The shortfall is 9 basis points, where commission and slippage come to 1: the impact is not below zero. -/
theorem shortfall_clamped :
    ¬ ∀ inp : TCAInput, inp.quantity ≤ inp.filledQuantity → 0 < inp.arrivalMidPrice →
      ∀ r, compute inp = .ok r →
        |r.implementationShortfallBps - (inp.commissionRateBps + inp.slippageBps)| ≤ 5 * unit := by
  intro near
  have filled : improved.quantity ≤ improved.filledQuantity := by decide +kernel
  have arrival : 0 < improved.arrivalMidPrice := by decide +kernel
  have bound := near improved filled arrival _ (compute_filled filled arrival)
  have shortfall : (improved.result 0).implementationShortfallBps = 9 := by decide +kernel
  have slippage : improved.slippageBps = -4 := by decide +kernel
  rw [shortfall, slippage] at bound
  norm_num [improved, unit] at bound

end MiniHedge.Tca
