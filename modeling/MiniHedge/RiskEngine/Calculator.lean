import MiniHedge.Library.Apportionment
import MiniHedge.Library.Mapping
import MiniHedge.Library.Raising
import MiniHedge.Python.Decimal
import Mathlib.Algebra.BigOperators.Group.List.Lemmas

/-! The calculators of the risk engine for liquidity, margin and stress, and the service that
feeds the first two.

Volumes are daily volumes in dollars. A position is sold at a fifth of its volume a day.
-/

set_option autoImplicit false

namespace MiniHedge.RiskEngine

open MiniHedge.Python MiniHedge.Library

/-- The sum of what is rounded is as close to the sum as the roundings together. -/
theorem sum_quantize_near {α : Type} (places : ℕ) (f : α → Decimal) (xs : List α) :
    |(xs.map fun x => quantize places .halfEven (f x)).sum - (xs.map f).sum| ≤ xs.length * (1 / 2 / 10 ^ places) := by
  have each : ∀ x ∈ xs, |quantize places .halfEven (f x) - f x| ≤ 1 / 2 / 10 ^ places := by
    intro x _
    exact quantize_near places .halfEven (f x)
  have split : (xs.map fun x => quantize places .halfEven (f x)).sum =
      (xs.map f).sum + (xs.map fun x => quantize places .halfEven (f x) - f x).sum := by
    rw [← List.sum_map_add]
    simp only [add_sub_cancel]
  have total := abs_sum_le each
  rwa [split, add_sub_cancel_left, ← nsmul_eq_mul]

/-! ## Liquidity -/

def illiquidDays : Decimal := 999

/-- The most of the daily volume that is traded in a day. -/
def participationRate : Decimal := 1 / 5

inductive LiquidityBucket where
  | oneDay
  | oneWeek
  | oneMonth
  | threeMonths
  | illiquid
  deriving DecidableEq, Repr

/-- A position of the profile's input, with the daily volume of its instrument. -/
structure AdvPosition where
  instrumentId : String
  marketValue : Decimal
  advUsd : Decimal
  deriving DecidableEq, Repr

structure PositionLiquidity where
  instrumentId : String
  marketValue : Decimal
  avgDailyVolumeUsd : Decimal
  daysToLiquidate : Decimal
  liquidityBucket : LiquidityBucket
  pctOfNav : Decimal
  deriving DecidableEq, Repr

structure LiquidityProfile where
  totalNav : Decimal
  pct1Day : Decimal
  pct1Week : Decimal
  pct1Month : Decimal
  pct3Months : Decimal
  pctIlliquid : Decimal
  weightedDaysToLiquidate : Decimal
  redemptionCoveragePct : Decimal
  deriving DecidableEq, Repr

namespace AdvPosition

variable (p : AdvPosition)

def days : Decimal :=
  if 0 < p.advUsd then
    let dailyCapacity := p.advUsd * participationRate
    if 0 < dailyCapacity then |p.marketValue| / dailyCapacity else illiquidDays
  else illiquidDays

def bucket : LiquidityBucket :=
  if p.days ≤ 1 then .oneDay
  else if p.days ≤ 5 then .oneWeek
  else if p.days ≤ 21 then .oneMonth
  else if p.days ≤ 63 then .threeMonths
  else .illiquid

def liquidity (totalNav : Decimal) : PositionLiquidity where
  instrumentId := p.instrumentId
  marketValue := p.marketValue
  avgDailyVolumeUsd := p.advUsd
  daysToLiquidate := quantize 4 .halfEven p.days
  liquidityBucket := p.bucket
  pctOfNav := quantize 4 .halfEven (if 0 < totalNav then |p.marketValue| / totalNav else 0)

end AdvPosition

/-- `buckets[bucket] += abs_mv` for each position. -/
def liquidityBuckets (positions : List AdvPosition) : LiquidityBucket → Decimal :=
  positions.foldl (fun buckets p => Function.update buckets p.bucket (buckets p.bucket + |p.marketValue|))
    fun _ => 0

/-- `min(liquid_1w / pending_redemptions, 1)`. -/
def redemptionCoverage (liquid pending : Decimal) : Decimal :=
  quantize 4 .halfEven (if 0 < pending then min (liquid / pending) 1 else 1)

def calculateLiquidityProfile (positions : List AdvPosition) (totalNav pendingRedemptions : Decimal) :
    LiquidityProfile × List PositionLiquidity :=
  let details := positions.map fun p => p.liquidity totalNav
  let buckets := liquidityBuckets positions
  let totalAbs := buckets .oneDay + buckets .oneWeek + buckets .oneMonth + buckets .threeMonths + buckets .illiquid
  let pct := fun value => if 0 < totalAbs then quantize 4 .halfEven (value / totalAbs) else 0
  let weightedDays := if 0 < totalAbs then
    quantize 2 .halfEven (details.map fun d => d.daysToLiquidate * |d.marketValue| / totalAbs).sum else 0
  ({ totalNav
     pct1Day := pct (buckets .oneDay)
     pct1Week := pct (buckets .oneWeek)
     pct1Month := pct (buckets .oneMonth)
     pct3Months := pct (buckets .threeMonths)
     pctIlliquid := pct (buckets .illiquid)
     weightedDaysToLiquidate := weightedDays
     redemptionCoveragePct := redemptionCoverage (buckets .oneDay + buckets .oneWeek) pendingRedemptions },
   details)

/-! ## Margin -/

def marginRates : List (String × Decimal) :=
  [("equity", 1 / 2), ("fixed_income", 1 / 10), ("fx", 3 / 100), ("commodity", 3 / 20), ("option", 1),
    ("default", 1 / 2)]

def maintenanceMarginRatio : Decimal := 3 / 4

/-- `_MARGIN_RATES.get(asset_class, _MARGIN_RATES["default"])`. -/
def marginRate (assetClass : String) : Decimal := (marginRates.lookup assetClass).getD (1 / 2)

structure MarginPosition where
  instrumentId : String
  marketValue : Decimal
  assetClass : String
  deriving DecidableEq, Repr

structure PositionMargin where
  instrumentId : String
  marketValue : Decimal
  marginRate : Decimal
  initialMargin : Decimal
  maintenanceMargin : Decimal
  deriving DecidableEq, Repr

structure MarginSummary where
  initialMargin : Decimal
  maintenanceMargin : Decimal
  marginAvailable : Decimal
  marginExcessDeficit : Decimal
  marginUtilizationPct : Decimal
  marginCallTriggered : Bool
  deriving DecidableEq, Repr

namespace MarginPosition

variable (p : MarginPosition)

/-- What the position needs before it is rounded. -/
def required : Decimal := |p.marketValue| * marginRate p.assetClass

def margin : PositionMargin :=
  let initial := quantize 2 .halfEven p.required
  { instrumentId := p.instrumentId
    marketValue := p.marketValue
    marginRate := marginRate p.assetClass
    initialMargin := initial
    maintenanceMargin := quantize 2 .halfEven (initial * maintenanceMarginRatio) }

end MarginPosition

def calculateMarginRequirements (positions : List MarginPosition) (cashBalance : Decimal) :
    MarginSummary × List PositionMargin :=
  let posMargins := positions.map MarginPosition.margin
  let totalInitial := (posMargins.map (·.initialMargin)).sum
  let excess := cashBalance - totalInitial
  ({ initialMargin := totalInitial
     maintenanceMargin := (posMargins.map (·.maintenanceMargin)).sum
     marginAvailable := cashBalance
     marginExcessDeficit := excess
     marginUtilizationPct :=
       if 0 < cashBalance then quantize 4 .halfEven (totalInitial / cashBalance) else illiquidDays
     marginCallTriggered := decide (excess < 0) },
   posMargins)

/-! ## The service -/

/-- What the service reads of a position. -/
structure Position where
  instrumentId : String
  quantity : Decimal
  marketPrice : Decimal
  marketValue : Decimal
  deriving DecidableEq, Repr

structure Instrument where
  ticker : String
  assetClass : String
  deriving DecidableEq, Repr

/-- `getattr(sec, "avg_daily_volume", 0) or 0`, where an instrument has no such field. -/
def Instrument.avgDailyVolume (_sec : Instrument) : Decimal := 0

/-- `getattr(p, "current_price", ZERO) or ZERO`, where the price of a position is called otherwise. -/
def Position.currentPrice (_p : Position) : Decimal := 0

def Position.advUsd (p : Position) (sec : Instrument) : Decimal :=
  if 0 < p.currentPrice then sec.avgDailyVolume * p.currentPrice else 0

structure NotFoundError where
  entity : String
  identifier : String
  deriving DecidableEq, Repr

section Service

variable (securityMaster : List Instrument)

def getByTicker (ticker : String) : Except NotFoundError Instrument :=
  match securityMaster.find? (·.ticker = ticker) with
  | some sec => .ok sec
  | none => .error ⟨"Instrument", ticker⟩

def calculateLiquidity (positions : List Position) (pendingRedemptions : Decimal) :
    Except NotFoundError LiquidityProfile := do
  let posData ← positions.mapM fun p => do
    let sec ← getByTicker securityMaster p.instrumentId
    return { instrumentId := p.instrumentId, marketValue := p.marketValue, advUsd := p.advUsd sec }
  let totalNav := (positions.map (·.marketValue)).sum
  return (calculateLiquidityProfile posData totalNav pendingRedemptions).1

/-- The service is never given a cash service, so that it takes the cash for zero. -/
def calculateMargin (positions : List Position) : Except NotFoundError MarginSummary := do
  let posData ← positions.mapM fun p => do
    let sec ← getByTicker securityMaster p.instrumentId
    return {
      instrumentId := p.instrumentId
      marketValue := p.marketValue
      assetClass := if sec.assetClass = "" then "equity" else sec.assetClass }
  return (calculateMarginRequirements posData 0).1

end Service

/-! ## Stress -/

/-- A position of the stress test: its market value and its sector. -/
structure StressPosition where
  instrumentId : String
  marketValue : Decimal
  sector : Option String
  deriving DecidableEq, Repr

structure StressPositionImpact where
  instrumentId : String
  currentValue : Decimal
  stressedValue : Decimal
  pnlImpact : Decimal
  pctChange : Decimal
  deriving DecidableEq, Repr

structure StressTestResult where
  totalPnlImpact : Decimal
  totalPctChange : Decimal
  positionImpacts : List StressPositionImpact
  deriving DecidableEq, Repr

/-- The shock of an instrument, else of its sector, else of the market, else none. -/
def resolveShock (shocks : List (String × Decimal)) (instrumentId : String) (sector : Option String) : Decimal :=
  match shocks.lookup instrumentId with
  | some shock => shock
  | none =>
    match (sector.filter (· ≠ "")).bind fun name => shocks.lookup name with
    | some shock => shock
    | none => (shocks.lookup "market").getD 0

def StressPosition.shock (shocks : List (String × Decimal)) (p : StressPosition) : Decimal :=
  resolveShock shocks p.instrumentId p.sector

/-- The pnl of the position, before it is rounded. -/
def StressPosition.pnl (shocks : List (String × Decimal)) (p : StressPosition) : Decimal :=
  p.marketValue * (1 + p.shock shocks) - p.marketValue

def StressPosition.impact (shocks : List (String × Decimal)) (p : StressPosition) : StressPositionImpact where
  instrumentId := p.instrumentId
  currentValue := p.marketValue
  stressedValue := quantize 4 .halfEven (p.marketValue * (1 + p.shock shocks))
  pnlImpact := quantize 4 .halfEven (p.pnl shocks)
  pctChange := quantize 4 .halfEven (p.shock shocks)

def runStressTest (shocks : List (String × Decimal)) (positions : List StressPosition) (nav : Decimal) :
    StressTestResult :=
  let totalImpact := (positions.map (·.pnl shocks)).sum
  { totalPnlImpact := quantize 4 .halfEven totalImpact
    totalPctChange := if 0 < nav then quantize 4 .halfEven (totalImpact / nav) else 0
    positionImpacts := positions.map (·.impact shocks) }

/-! ## What the buckets hold -/

def gross (positions : List AdvPosition) : Decimal := (positions.map fun p => |p.marketValue|).sum

/-- The worth of the positions that can be sold as a whole in so many days. -/
def sellable (days : Decimal) (positions : List AdvPosition) : Decimal :=
  (positions.map fun p =>
    if 0 < p.advUsd ∧ |p.marketValue| ≤ days * (p.advUsd * participationRate) then |p.marketValue| else 0).sum

theorem participationRate_pos : 0 < participationRate := by norm_num [participationRate]

theorem AdvPosition.days_le {days : Decimal} (few : days < illiquidDays) (p : AdvPosition) :
    p.days ≤ days ↔ 0 < p.advUsd ∧ |p.marketValue| ≤ days * (p.advUsd * participationRate) := by
  rw [AdvPosition.days]
  split
  · rename_i traded
    have capacity : 0 < p.advUsd * participationRate := mul_pos traded participationRate_pos
    rw [if_pos capacity, div_le_iff₀ capacity]
    exact (and_iff_right traded).symm
  · rename_i untraded
    exact iff_of_false (not_le.mpr few) fun both => untraded both.1

theorem liquidityBuckets_eq (positions : List AdvPosition) (bucket : LiquidityBucket) :
    liquidityBuckets positions bucket =
      (positions.map fun p => if p.bucket = bucket then |p.marketValue| else 0).sum := by
  induction positions using List.reverseRecOn with
  | nil => rfl
  | append_singleton positions p ih =>
    rw [liquidityBuckets, List.foldl_concat, ← liquidityBuckets, List.map_append, List.sum_append, ← ih,
      List.map_singleton, List.sum_singleton]
    by_cases own : p.bucket = bucket
    · rw [if_pos own, own, Function.update_self]
    · rw [if_neg own, Function.update_of_ne (Ne.symm own), add_zero]

theorem AdvPosition.bucket_cases (p : AdvPosition) :
    p.bucket = .oneDay ∧ p.days ≤ 1 ∨ p.bucket = .oneWeek ∧ 1 < p.days ∧ p.days ≤ 5 ∨
      p.bucket = .oneMonth ∧ 5 < p.days ∧ p.days ≤ 21 ∨ p.bucket = .threeMonths ∧ 21 < p.days ∧ p.days ≤ 63 ∨
      p.bucket = .illiquid ∧ 63 < p.days := by
  simp only [AdvPosition.bucket]
  split_ifs with day week month months <;> simp_all

/-- The buckets up to a horizon hold what can be sold within it, and all of them hold everything. -/
theorem buckets_within (positions : List AdvPosition) :
    let buckets := liquidityBuckets positions
    buckets .oneDay = sellable 1 positions ∧ buckets .oneDay + buckets .oneWeek = sellable 5 positions ∧
      buckets .oneDay + buckets .oneWeek + buckets .oneMonth = sellable 21 positions ∧
      buckets .oneDay + buckets .oneWeek + buckets .oneMonth + buckets .threeMonths = sellable 63 positions ∧
      buckets .oneDay + buckets .oneWeek + buckets .oneMonth + buckets .threeMonths + buckets .illiquid =
        gross positions := by
  have horizon : ∀ days : Decimal, days < illiquidDays → sellable days positions =
      (positions.map fun p => if p.days ≤ days then |p.marketValue| else 0).sum := by
    intro days few
    simp only [sellable, AdvPosition.days_le few]
  simp only [liquidityBuckets_eq, ← List.sum_map_add]
  rw [horizon 1 (by norm_num [illiquidDays]), horizon 5 (by norm_num [illiquidDays]),
    horizon 21 (by norm_num [illiquidDays]), horizon 63 (by norm_num [illiquidDays]), gross]
  refine ⟨?_, ?_, ?_, ?_, ?_⟩
  all_goals
    congr 1
    refine List.map_congr_left fun p _ => ?_
    obtain ⟨own, upper⟩ | ⟨own, lower, upper⟩ | ⟨own, lower, upper⟩ | ⟨own, lower, upper⟩ | ⟨own, lower⟩ :=
      p.bucket_cases
  all_goals
    simp only [own, reduceCtorEq, if_true, if_false, add_zero, zero_add]
  all_goals
    first
    | rw [if_pos (by linarith)]
    | rw [if_neg (by linarith)]

section Profile

variable {positions : List AdvPosition} {totalNav pendingRedemptions : Decimal}

/-- The shares of the profile, up to each horizon, are the shares of the holdings that can be sold
within it, but for half a unit of the last place for each share. -/
theorem profile_horizons (invested : 0 < gross positions) :
    let profile := (calculateLiquidityProfile positions totalNav pendingRedemptions).1
    |profile.pct1Day - sellable 1 positions / gross positions| ≤ 1 / 20000 ∧
      |profile.pct1Day + profile.pct1Week - sellable 5 positions / gross positions| ≤ 2 / 20000 ∧
      |profile.pct1Day + profile.pct1Week + profile.pct1Month - sellable 21 positions / gross positions| ≤ 3 / 20000 ∧
      |profile.pct1Day + profile.pct1Week + profile.pct1Month + profile.pct3Months -
        sellable 63 positions / gross positions| ≤ 4 / 20000 ∧
      |profile.pct1Day + profile.pct1Week + profile.pct1Month + profile.pct3Months + profile.pctIlliquid - 1| ≤
        5 / 20000 := by
  obtain ⟨day, week, month, months, all⟩ := buckets_within positions
  have near := sum_quantize_near 4 fun bucket => liquidityBuckets positions bucket / gross positions
  have one := near [.oneDay]
  have two := near [.oneDay, .oneWeek]
  have three := near [.oneDay, .oneWeek, .oneMonth]
  have four := near [.oneDay, .oneWeek, .oneMonth, .threeMonths]
  have five := near [.oneDay, .oneWeek, .oneMonth, .threeMonths, .illiquid]
  simp only [List.map_cons, List.map_nil, List.sum_cons, List.sum_nil, add_zero, ← add_assoc, ← add_div,
    List.length_cons, List.length_nil] at one two three four five
  rw [all, div_self invested.ne'] at five
  simp only [calculateLiquidityProfile, all, invested, if_true, ← day, ← week, ← month, ← months]
  norm_num at one two three four five ⊢
  exact ⟨one, two, three, four, five⟩

theorem thin_horizons :
    let positions : List AdvPosition := [⟨"AAPL", 1000, 5000⟩, ⟨"XYZ", -600, 100⟩, ⟨"PRIV", 400, 0⟩]
    let profile := (calculateLiquidityProfile positions 800 0).1
    |profile.pct1Day - sellable 1 positions / gross positions| ≤ 1 / 20000 ∧
      |profile.pct1Day + profile.pct1Week - sellable 5 positions / gross positions| ≤ 2 / 20000 ∧
      |profile.pct1Day + profile.pct1Week + profile.pct1Month - sellable 21 positions / gross positions| ≤ 3 / 20000 ∧
      |profile.pct1Day + profile.pct1Week + profile.pct1Month + profile.pct3Months -
        sellable 63 positions / gross positions| ≤ 4 / 20000 ∧
      |profile.pct1Day + profile.pct1Week + profile.pct1Month + profile.pct3Months + profile.pctIlliquid - 1| ≤
        5 / 20000 :=
  profile_horizons (by norm_num [gross])

theorem sellable_nonneg (days : Decimal) (positions : List AdvPosition) : 0 ≤ sellable days positions := by
  refine List.sum_nonneg fun value member => ?_
  obtain ⟨p, -, rfl⟩ := List.mem_map.mp member
  split
  · exact abs_nonneg _
  · exact le_refl 0

/-- Where the volumes are higher, more can be sold. -/
theorem sellable_mono {days : Decimal} (nonneg : 0 ≤ days) {ps qs : List AdvPosition}
    (traded : List.Forall₂ (fun p q => p.marketValue = q.marketValue ∧ p.advUsd ≤ q.advUsd) ps qs) :
    sellable days ps ≤ sellable days qs := by
  induction traded with
  | nil => exact le_refl _
  | @cons p q ps qs head tail ih =>
    rw [sellable, sellable, List.map_cons, List.map_cons, List.sum_cons, List.sum_cons, ← sellable, ← sellable]
    refine add_le_add ?_ ih
    rw [head.1]
    split
    · rename_i sold
      have capacity : days * (p.advUsd * participationRate) ≤ days * (q.advUsd * participationRate) :=
        mul_le_mul_of_nonneg_left (mul_le_mul_of_nonneg_right head.2 participationRate_pos.le) nonneg
      rw [if_pos ⟨sold.1.trans_le head.2, sold.2.trans capacity⟩]
    · split
      · exact abs_nonneg _
      · exact le_refl 0

theorem redemptionCoverage_mono {liquid more pending fewer : Decimal} (nonneg : 0 ≤ liquid) (le : liquid ≤ more)
    (fewer_le : fewer ≤ pending) : redemptionCoverage liquid pending ≤ redemptionCoverage more fewer := by
  refine quantize_mono 4 .halfEven ?_
  by_cases asked : 0 < fewer
  · rw [if_pos asked, if_pos (asked.trans_le fewer_le)]
    exact min_le_min_right 1 (div_le_div₀ (nonneg.trans le) le asked fewer_le)
  · rw [if_neg asked]
    split
    · exact min_le_right _ _
    · exact le_refl 1

theorem redemptionCoverage_bounds {liquid : Decimal} (nonneg : 0 ≤ liquid) (pending : Decimal) :
    0 ≤ redemptionCoverage liquid pending ∧ redemptionCoverage liquid pending ≤ 1 := by
  have one : quantize 4 .halfEven 1 = 1 := mod_cast quantize_whole 4 .halfEven 1
  constructor
  · refine quantize_nonneg ?_ 4 .halfEven
    split
    · rename_i asked
      exact le_min (div_nonneg nonneg asked.le) zero_le_one
    · exact zero_le_one
  · refine (quantize_mono 4 .halfEven ?_).trans_eq one
    split
    · exact min_le_right _ _
    · exact le_refl 1

/-- The coverage of the redemptions is a share, and it is no lower for the same holdings in markets
with more volume and for fewer redemptions. -/
theorem coverage_mono {ps qs : List AdvPosition} {nav otherNav pending fewer : Decimal}
    (traded : List.Forall₂ (fun p q => p.marketValue = q.marketValue ∧ p.advUsd ≤ q.advUsd) ps qs)
    (fewer_le : fewer ≤ pending) :
    0 ≤ (calculateLiquidityProfile ps nav pending).1.redemptionCoveragePct ∧
      (calculateLiquidityProfile ps nav pending).1.redemptionCoveragePct ≤
        (calculateLiquidityProfile qs otherNav fewer).1.redemptionCoveragePct ∧
      (calculateLiquidityProfile qs otherNav fewer).1.redemptionCoveragePct ≤ 1 := by
  simp only [calculateLiquidityProfile, (buckets_within ps).2.1, (buckets_within qs).2.1]
  exact ⟨(redemptionCoverage_bounds (sellable_nonneg 5 ps) pending).1,
    redemptionCoverage_mono (sellable_nonneg 5 ps) (sellable_mono (by norm_num) traded) fewer_le,
    (redemptionCoverage_bounds (sellable_nonneg 5 qs) fewer).2⟩

theorem covered_by_volume :
    let ps : List AdvPosition := [⟨"AAPL", 1000, 500⟩, ⟨"XYZ", -600, 100⟩]
    let qs : List AdvPosition := [⟨"AAPL", 1000, 5000⟩, ⟨"XYZ", -600, 100⟩]
    0 ≤ (calculateLiquidityProfile ps 400 2000).1.redemptionCoveragePct ∧
      (calculateLiquidityProfile ps 400 2000).1.redemptionCoveragePct ≤
        (calculateLiquidityProfile qs 400 1500).1.redemptionCoveragePct ∧
      (calculateLiquidityProfile qs 400 1500).1.redemptionCoveragePct ≤ 1 :=
  coverage_mono (.cons (by norm_num) (.cons (by norm_num) .nil)) (by norm_num)

end Profile

/-! ## What the service makes of it -/

section Fed

variable {securityMaster : List Instrument}

theorem Position.advUsd_eq (p : Position) (sec : Instrument) : p.advUsd sec = 0 := if_neg (lt_irrefl 0)

theorem eq_map_of_forall₂ {α β : Type} {f : α → β} {xs : List α} {ys : List β}
    (each : List.Forall₂ (fun x y => f x = y) xs ys) : xs.map f = ys :=
  List.forall₂_eq_eq_eq ▸ List.forall₂_map_left_iff.mpr each

theorem sellable_untraded (days : Decimal) {positions : List AdvPosition}
    (untraded : ∀ p ∈ positions, p.advUsd = 0) : sellable days positions = 0 := by
  refine List.sum_eq_zero fun value member => ?_
  obtain ⟨p, inside, rfl⟩ := List.mem_map.mp member
  exact if_neg fun traded => traded.1.ne' (untraded p inside)

/-- Without volumes, the profile is that of holdings that cannot be sold. -/
theorem profile_untraded {positions : List AdvPosition} (untraded : ∀ p ∈ positions, p.advUsd = 0)
    (totalNav pending : Decimal) :
    (calculateLiquidityProfile positions totalNav pending).1 =
      { totalNav
        pct1Day := 0
        pct1Week := 0
        pct1Month := 0
        pct3Months := 0
        pctIlliquid := if 0 < gross positions then 1 else 0
        weightedDaysToLiquidate := if 0 < gross positions then illiquidDays else 0
        redemptionCoveragePct := if 0 < pending then 0 else 1 } := by
  obtain ⟨day, week, month, months, all⟩ := buckets_within positions
  rw [sellable_untraded _ untraded] at day week month months
  rw [day, zero_add] at week
  rw [day, week, zero_add, zero_add] at month
  rw [day, week, month, zero_add, zero_add, zero_add] at months
  have illiquid := all
  rw [day, week, month, months, zero_add, zero_add, zero_add, zero_add] at illiquid
  have days : ∀ p ∈ positions, quantize 4 .halfEven p.days = illiquidDays := by
    intro p inside
    rw [AdvPosition.days, if_neg (untraded p inside).not_gt]
    exact mod_cast quantize_whole 4 .halfEven 999
  have one : quantize 4 .halfEven 1 = 1 := mod_cast quantize_whole 4 .halfEven 1
  have zero : quantize 4 .halfEven 0 = 0 := quantize_zero 4 .halfEven
  have coverage : redemptionCoverage 0 pending = if 0 < pending then 0 else 1 := by
    rw [redemptionCoverage]
    split
    · rw [zero_div, min_eq_left zero_le_one, zero]
    · exact one
  have weighted : ((positions.map fun p => p.liquidity totalNav).map fun d =>
      d.daysToLiquidate * |d.marketValue| / gross positions) =
      (positions.map fun p => |p.marketValue| * (illiquidDays / gross positions)) := by
    rw [List.map_map]
    refine List.map_congr_left fun p inside => ?_
    simp only [Function.comp_apply, AdvPosition.liquidity, days p inside]
    ring
  by_cases invested : 0 < gross positions
  · have proxy : quantize 2 .halfEven illiquidDays = illiquidDays := mod_cast quantize_whole 2 .halfEven 999
    have sum : (positions.map fun p => |p.marketValue| * (illiquidDays / gross positions)).sum = illiquidDays := by
      rw [List.sum_map_mul_right, ← gross, mul_div_cancel₀ _ invested.ne']
    simp only [calculateLiquidityProfile, day, week, month, months, illiquid, zero_add, zero_div, zero,
      if_pos invested, weighted, sum, proxy, div_self invested.ne', one, coverage]
  · simp only [calculateLiquidityProfile, day, week, month, months, illiquid, zero_add, if_neg invested, coverage]

/-- No instrument has a volume and no position a current price, so that every portfolio is reported as one
that cannot be sold: its profile depends on its worth alone. -/
theorem reported_illiquid {positions : List Position} {pendingRedemptions : Decimal} {profile : LiquidityProfile}
    (reported : calculateLiquidity securityMaster positions pendingRedemptions = .ok profile) :
    let held := 0 < (positions.map fun p => |p.marketValue|).sum
    profile =
      { totalNav := (positions.map (·.marketValue)).sum
        pct1Day := 0
        pct1Week := 0
        pct1Month := 0
        pct3Months := 0
        pctIlliquid := if held then 1 else 0
        weightedDaysToLiquidate := if held then illiquidDays else 0
        redemptionCoveragePct := if 0 < pendingRedemptions then 0 else 1 } := by
  obtain ⟨posData, read, same⟩ := bind_eq_ok.mp reported
  cases same
  have data : positions.map (fun p => (⟨p.instrumentId, p.marketValue, 0⟩ : AdvPosition)) = posData := by
    refine eq_map_of_forall₂ ((mapM_eq_ok.mp read).imp fun p data found => ?_)
    obtain ⟨sec, -, made⟩ := bind_eq_ok.mp found
    cases made
    rw [Position.advUsd_eq]
  subst data
  rw [profile_untraded, gross, List.map_map]
  · rfl
  · intro p inside
    obtain ⟨position, -, rfl⟩ := List.mem_map.mp inside
    rfl

def someInstruments : List Instrument := [⟨"AAPL", "equity"⟩, ⟨"ZN", "fixed_income"⟩]

def somePositions : List Position := [⟨"AAPL", 100, 180, 18000⟩, ⟨"ZN", -10, 110, -1100⟩]

theorem somePositions_illiquid :
    calculateLiquidity someInstruments somePositions 500 = .ok ⟨16900, 0, 0, 0, 0, 1, 999, 0⟩ ∧
      (⟨16900, 0, 0, 0, 0, 1, 999, 0⟩ : LiquidityProfile) =
        { totalNav := (somePositions.map (·.marketValue)).sum
          pct1Day := 0
          pct1Week := 0
          pct1Month := 0
          pct3Months := 0
          pctIlliquid := if 0 < (somePositions.map fun p => |p.marketValue|).sum then 1 else 0
          weightedDaysToLiquidate := if 0 < (somePositions.map fun p => |p.marketValue|).sum then illiquidDays else 0
          redemptionCoveragePct := if (0 : Decimal) < 500 then 0 else 1 } := by
  have reported : calculateLiquidity someInstruments somePositions 500 = .ok ⟨16900, 0, 0, 0, 0, 1, 999, 0⟩ := by
    decide +kernel
  exact ⟨reported, reported_illiquid reported⟩

/-! ## What the margin comes to -/

theorem marginRate_nonneg (assetClass : String) : 0 ≤ marginRate assetClass := by
  have each : ∀ entry ∈ marginRates, 0 ≤ entry.2 := by norm_num [marginRates]
  rw [marginRate]
  cases found : marginRates.lookup assetClass with
  | none => norm_num
  | some rate => exact each _ ((mem_iff_lookup (by decide)).mpr found)

namespace MarginPosition

variable (p : MarginPosition)

theorem required_nonneg : 0 ≤ p.required := mul_nonneg (abs_nonneg _) (marginRate_nonneg _)

theorem initialMargin_nonneg : 0 ≤ p.margin.initialMargin := quantize_nonneg p.required_nonneg 2 .halfEven

/-- Three quarters of whole cents are rounded to no more cents. -/
theorem maintenanceMargin_bounds :
    0 ≤ p.margin.maintenanceMargin ∧ p.margin.maintenanceMargin ≤ p.margin.initialMargin := by
  have ratio : maintenanceMarginRatio ≤ 1 ∧ 0 ≤ maintenanceMarginRatio := by norm_num [maintenanceMarginRatio]
  have less : p.margin.initialMargin * maintenanceMarginRatio ≤ p.margin.initialMargin :=
    mul_le_of_le_one_right p.initialMargin_nonneg ratio.1
  have whole : quantize 2 .halfEven p.margin.initialMargin = p.margin.initialMargin :=
    (onGrid_quantize 2 .halfEven p.required).quantize_eq .halfEven
  exact ⟨quantize_nonneg (mul_nonneg p.initialMargin_nonneg ratio.2) 2 .halfEven,
    (quantize_mono 2 .halfEven less).trans_eq whole⟩

end MarginPosition

/-- The requirements are what the rates ask for to half a cent for each position, the maintenance margin is three
quarters of the initial margin to as much and never exceeds it, and there is a call exactly when the cash is
below the initial margin, which the utilization confirms. -/
theorem margin_requirements (positions : List MarginPosition) (cashBalance : Decimal) :
    let summary := (calculateMarginRequirements positions cashBalance).1
    |summary.initialMargin - (positions.map (·.required)).sum| ≤ positions.length * (1 / 200) ∧
      0 ≤ summary.maintenanceMargin ∧ summary.maintenanceMargin ≤ summary.initialMargin ∧
      |summary.maintenanceMargin - 3 / 4 * summary.initialMargin| ≤ positions.length * (1 / 200) ∧
      (summary.marginCallTriggered = true ↔ cashBalance < summary.initialMargin) ∧
      (0 < cashBalance → if summary.marginCallTriggered then 1 ≤ summary.marginUtilizationPct
        else summary.marginUtilizationPct ≤ 1) := by
  have one : quantize 4 .halfEven 1 = 1 := mod_cast quantize_whole 4 .halfEven 1
  have cent : (1 : Decimal) / 2 / 10 ^ 2 = 1 / 200 := by norm_num
  have initial := sum_quantize_near 2 MarginPosition.required positions
  have maintenance := sum_quantize_near 2 (fun p => p.margin.initialMargin * maintenanceMarginRatio) positions
  rw [cent] at initial maintenance
  rw [List.sum_map_mul_right, mul_comm _ maintenanceMarginRatio] at maintenance
  simp only [calculateMarginRequirements, List.map_map, Function.comp_def]
  refine ⟨initial, ?_, ?_, maintenance, ?_, ?_⟩
  · refine List.sum_nonneg fun value member => ?_
    obtain ⟨p, -, rfl⟩ := List.mem_map.mp member
    exact p.maintenanceMargin_bounds.1
  · exact List.sum_le_sum fun p _ => p.maintenanceMargin_bounds.2
  · rw [decide_eq_true_eq, sub_neg]
  · intro cash
    rw [if_pos cash]
    simp only [decide_eq_true_eq, sub_neg]
    split
    · rename_i short
      exact one.ge.trans (quantize_mono 4 .halfEven ((one_le_div cash).mpr short.le))
    · rename_i enough
      exact (quantize_mono 4 .halfEven ((div_le_one cash).mpr (not_lt.mp enough))).trans_eq one

theorem sum_pos_iff {values : List Decimal} (nonneg : ∀ value ∈ values, 0 ≤ value) :
    0 < values.sum ↔ ∃ value ∈ values, 0 < value := by
  constructor
  · intro positive
    by_contra none
    refine positive.ne' (List.sum_eq_zero fun value member => ?_)
    exact le_antisymm (not_lt.mp fun some => none ⟨value, member, some⟩) (nonneg value member)
  · rintro ⟨value, member, positive⟩
    exact positive.trans_le (List.single_le_sum nonneg value member)

/-- What the service passes on of a position and its instrument. -/
def Position.marginPosition (p : Position) (sec : Instrument) : MarginPosition where
  instrumentId := p.instrumentId
  marketValue := p.marketValue
  assetClass := if sec.assetClass = "" then "equity" else sec.assetClass

/-- The service looks at no cash: it reports that there is none, a utilization that stands for none, and a call for
every portfolio with a position that needs more than half a cent. -/
theorem call_whatever_cash {positions : List Position} {summary : MarginSummary}
    (reported : calculateMargin securityMaster positions = .ok summary) :
    summary.marginAvailable = 0 ∧ summary.marginExcessDeficit = -summary.initialMargin ∧
      summary.marginUtilizationPct = illiquidDays ∧
      (summary.marginCallTriggered = true ↔ ∃ p ∈ positions, ∃ sec,
        getByTicker securityMaster p.instrumentId = .ok sec ∧ 1 / 200 < (p.marginPosition sec).required) := by
  obtain ⟨posData, read, same⟩ := bind_eq_ok.mp reported
  cases same
  have made : List.Forall₂ (fun p data => ∃ sec, getByTicker securityMaster p.instrumentId = .ok sec ∧
      data = p.marginPosition sec) positions posData := by
    refine (mapM_eq_ok.mp read).imp fun p data found => ?_
    obtain ⟨sec, listed, result⟩ := bind_eq_ok.mp found
    cases result
    exact ⟨sec, listed, rfl⟩
  have needs : ∀ data : MarginPosition, 0 < data.margin.initialMargin ↔ 1 / 200 < data.required := by
    intro data
    have small : quantize 2 .halfEven data.required = 0 ↔ |data.required| ≤ 1 / 2 / 10 ^ 2 :=
      quantize_halfEven_eq_zero
    rw [abs_of_nonneg data.required_nonneg] at small
    rw [data.initialMargin_nonneg.lt_iff_ne, ne_comm, ← not_le]
    refine not_congr (small.trans ?_)
    norm_num
  have positive : 0 < (posData.map fun data => data.margin.initialMargin).sum ↔
      ∃ data ∈ posData, 1 / 200 < data.required := by
    rw [sum_pos_iff]
    · simp only [List.mem_map, exists_exists_and_eq_and, needs]
    · intro value member
      obtain ⟨data, -, rfl⟩ := List.mem_map.mp member
      exact data.initialMargin_nonneg
  have alike : (∃ data ∈ posData, 1 / 200 < data.required) ↔ ∃ p ∈ positions, ∃ sec,
      getByTicker securityMaster p.instrumentId = .ok sec ∧ 1 / 200 < (p.marginPosition sec).required := by
    clear positive read reported
    induction made with
    | nil => simp
    | cons head tail ih =>
      obtain ⟨sec, listed, rfl⟩ := head
      simp only [List.exists_mem_cons_iff, ih, listed, Except.ok.injEq, exists_eq_left']
  have utilization : (if (0 : Decimal) < 0 then quantize 4 .halfEven
      (((posData.map MarginPosition.margin).map (·.initialMargin)).sum / 0) else illiquidDays) = illiquidDays :=
    if_neg (lt_irrefl 0)
  refine ⟨rfl, zero_sub _, utilization, ?_⟩
  simp only [calculateMarginRequirements, List.map_map, Function.comp_def, decide_eq_true_eq, zero_sub, neg_neg_iff_pos]
  exact positive.trans alike

theorem somePositions_called :
    calculateMargin someInstruments somePositions = .ok ⟨9110, 13665 / 2, 0, -9110, 999, true⟩ ∧
      ∃ p ∈ somePositions, ∃ sec, getByTicker someInstruments p.instrumentId = .ok sec ∧
        1 / 200 < (p.marginPosition sec).required := by
  have reported : calculateMargin someInstruments somePositions = .ok ⟨9110, 13665 / 2, 0, -9110, 999, true⟩ := by
    decide +kernel
  exact ⟨reported, (call_whatever_cash reported).2.2.2.mp rfl⟩

end Fed

/-! ## What a stress test adds up to -/

/-- The shock that a position takes: that of its instrument, else of its sector, else of the market, else none. -/
inductive ShockOf (shocks : List (String × Decimal)) (p : StressPosition) : Decimal → Prop where
  | instrument {shock : Decimal} (own : shocks.lookup p.instrumentId = some shock) : ShockOf shocks p shock
  | sector {shock : Decimal} {name : String} (other : shocks.lookup p.instrumentId = none)
      (sector : p.sector = some name) (named : name ≠ "") (own : shocks.lookup name = some shock) :
      ShockOf shocks p shock
  | market {shock : Decimal} (other : shocks.lookup p.instrumentId = none)
      (sector : ∀ name, p.sector = some name → name ≠ "" → shocks.lookup name = none)
      (own : shocks.lookup "market" = some shock) : ShockOf shocks p shock
  | unshocked (other : shocks.lookup p.instrumentId = none)
      (sector : ∀ name, p.sector = some name → name ≠ "" → shocks.lookup name = none)
      (market : shocks.lookup "market" = none) : ShockOf shocks p 0

theorem shockOf_shock (shocks : List (String × Decimal)) (p : StressPosition) :
    ShockOf shocks p (p.shock shocks) := by
  rw [StressPosition.shock, resolveShock]
  split
  · rename_i shock own
    exact .instrument own
  · rename_i other
    split
    · rename_i shock found
      obtain ⟨name, named, own⟩ := Option.bind_eq_some_iff.mp found
      obtain ⟨sector, nonempty⟩ := Option.filter_eq_some_iff.mp named
      exact .sector other sector (of_decide_eq_true nonempty) own
    · rename_i missing
      have unlisted : ∀ name, p.sector = some name → name ≠ "" → shocks.lookup name = none := by
        intro name sector nonempty
        rwa [sector, Option.filter_some, if_pos (decide_eq_true nonempty), Option.bind_some] at missing
      cases market : shocks.lookup "market" with
      | some shock => exact .market other unlisted market
      | none => exact .unshocked other unlisted market

/-- The impact that is reported for a position which takes that shock, to four places. -/
def ImpactOf (p : StressPosition) (shock : Decimal) (impact : StressPositionImpact) : Prop :=
  impact = ⟨p.instrumentId, p.marketValue, quantize 4 .halfEven (p.marketValue + p.marketValue * shock),
    quantize 4 .halfEven (p.marketValue * shock), quantize 4 .halfEven shock⟩

/-- There is one impact for each position, in their order, of the shock of its instrument, else of its sector, else
of the market; the total is the sum of the impacts that are reported, and the stressed values are the current ones
with their impacts, but for the rounding. -/
theorem stress_totals (shocks : List (String × Decimal)) (positions : List StressPosition) (nav : Decimal) :
    let result := runStressTest shocks positions nav
    List.Forall₂ (fun p impact => ∃ shock, ShockOf shocks p shock ∧ ImpactOf p shock impact) positions
        result.positionImpacts ∧
      |result.totalPnlImpact - (result.positionImpacts.map (·.pnlImpact)).sum| ≤ (positions.length + 1) * (1 / 20000) ∧
      ∀ impact ∈ result.positionImpacts, |impact.stressedValue - (impact.currentValue + impact.pnlImpact)| ≤ 1 / 10000 := by
  have unit : (1 : Decimal) / 2 / 10 ^ 4 = 1 / 20000 := by norm_num
  have total := quantize_near 4 .halfEven (positions.map (·.pnl shocks)).sum
  have parts := sum_quantize_near 4 (StressPosition.pnl shocks) positions
  rw [unit] at total parts
  rw [abs_le] at total parts
  refine ⟨?_, ?_, ?_⟩
  · simp only [runStressTest]
    rw [List.forall₂_map_right_iff, List.forall₂_same]
    intro p _
    refine ⟨p.shock shocks, shockOf_shock shocks p, ?_⟩
    rw [ImpactOf, StressPosition.impact, StressPosition.pnl, mul_one_add, add_sub_cancel_left]
  · simp only [runStressTest, List.map_map, Function.comp_def, StressPosition.impact]
    rw [abs_le]
    constructor <;> linarith
  · intro impact member
    simp only [runStressTest, StressPosition.impact] at member
    obtain ⟨p, -, rfl⟩ := List.mem_map.mp member
    have stressed := quantize_near 4 .halfEven (p.marketValue * (1 + p.shock shocks))
    have pnl := quantize_near 4 .halfEven (p.pnl shocks)
    rw [unit, abs_le] at stressed pnl
    simp only [StressPosition.pnl] at pnl ⊢
    rw [abs_le]
    constructor <;> linarith

end MiniHedge.RiskEngine
