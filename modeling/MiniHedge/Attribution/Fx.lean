import MiniHedge.Attribution.BrinsonFachler
import MiniHedge.Library.Apportionment
import Mathlib.Algebra.Order.BigOperators.Group.List
import Mathlib.Tactic.LinearCombination

/-! What a portfolio returned in its own currencies and what the exchange rates added.

Floats are exact numbers here, as in the attribution by sectors. The weights of the positions
are taken of their local values, whatever the currencies: the return of the portfolio weighs
them in the base currency.
-/

set_option autoImplicit false

namespace MiniHedge.Attribution

open MiniHedge.Python MiniHedge.Library

structure PositionFXData where
  instrumentId : String
  currency : String
  marketValueLocal : Decimal
  localReturn : Decimal
  deriving DecidableEq, Repr

structure PositionFXAttribution where
  instrumentId : String
  currency : String
  localReturn : Decimal
  fxReturn : Decimal
  interaction : Decimal
  baseCurrencyReturn : Decimal
  marketValueBase : Decimal
  deriving DecidableEq, Repr

structure FXAttributionResult where
  baseCurrency : String
  totalLocalReturn : Decimal
  totalFxReturn : Decimal
  totalInteraction : Decimal
  totalBaseReturn : Decimal
  positions : List PositionFXAttribution
  deriving DecidableEq, Repr

/-- What one unit of a currency is in the base currency, at the start and at the end. -/
structure FxPeriod where
  fxRatesStart : Dictionary String Decimal
  fxRatesEnd : Dictionary String Decimal
  baseCurrency : String
  deriving DecidableEq

/-- `1e-12`. -/
def negligible : Decimal := 1 / 10 ^ 12

namespace FxPeriod

variable (period : FxPeriod) (p : PositionFXData)

def fxReturn : Decimal :=
  if p.currency = period.baseCurrency then 0
  else
    let startRate := period.fxRatesStart.get p.currency 1
    let endRate := period.fxRatesEnd.get p.currency 1
    if negligible < |startRate| then endRate / startRate - 1 else 0

def baseReturn : Decimal := (1 + p.localReturn) * (1 + period.fxReturn p) - 1

def interaction : Decimal := period.baseReturn p - p.localReturn - period.fxReturn p

def marketValueBase : Decimal :=
  if p.currency ≠ period.baseCurrency then p.marketValueLocal * period.fxRatesEnd.get p.currency 1
  else p.marketValueLocal

def positionAttribution (toDec6 toDec4 : Decimal → Decimal) : PositionFXAttribution where
  instrumentId := p.instrumentId
  currency := p.currency
  localReturn := toDec6 p.localReturn
  fxReturn := toDec6 (period.fxReturn p)
  interaction := toDec6 (period.interaction p)
  baseCurrencyReturn := toDec6 (period.baseReturn p)
  marketValueBase := toDec4 (period.marketValueBase p)

end FxPeriod

def totalMv (positions : List PositionFXData) : Decimal :=
  let total := (positions.map fun p => |p.marketValueLocal|).sum
  if total < negligible then 1 else total

def calculateFxAttribution (toDec6 toDec4 : Decimal → Decimal) (positions : List PositionFXData)
    (period : FxPeriod) : FXAttributionResult :=
  let weight := fun p : PositionFXData => |p.marketValueLocal| / totalMv positions
  { baseCurrency := period.baseCurrency
    totalLocalReturn := toDec6 (positions.map fun p => weight p * p.localReturn).sum
    totalFxReturn := toDec6 (positions.map fun p => weight p * period.fxReturn p).sum
    totalInteraction := toDec6 (positions.map fun p => weight p * period.interaction p).sum
    totalBaseReturn := toDec6 (positions.map fun p => weight p * period.baseReturn p).sum
    positions := positions.map fun p => period.positionAttribution p toDec6 toDec4 }

/-! ## The return of the portfolio -/

namespace FxPeriod

variable (period : FxPeriod) (p : PositionFXData)

def startRate : Decimal :=
  if p.currency = period.baseCurrency then 1 else period.fxRatesStart.get p.currency 1

def endRate : Decimal :=
  if p.currency = period.baseCurrency then 1 else period.fxRatesEnd.get p.currency 1

def startValue : Decimal := p.marketValueLocal * period.startRate p

def endValue : Decimal := p.marketValueLocal * (1 + p.localReturn) * period.endRate p

/-- What the value of the position in the base currency has grown by. -/
def positionReturn : Decimal := (period.endValue p - period.startValue p) / period.startValue p

def portfolioReturn (positions : List PositionFXData) : Decimal :=
  average period.startValue period.positionReturn positions

/-- Positions that have a value, in currencies that have rates. -/
def Priced (positions : List PositionFXData) : Prop :=
  ∀ p ∈ positions, 0 < p.marketValueLocal ∧ 0 < period.startRate p ∧ 0 < period.endRate p

instance (positions : List PositionFXData) : Decidable (period.Priced positions) :=
  inferInstanceAs (Decidable (∀ p ∈ positions, _))

end FxPeriod

/-- The base return that is reported is the portfolio's, and what the others sum to. -/
def OfPortfolio (period : FxPeriod) (positions : List PositionFXData) (r : FXAttributionResult) : Prop :=
  r.totalBaseReturn = period.portfolioReturn positions ∧
    r.totalBaseReturn = r.totalLocalReturn + r.totalFxReturn + r.totalInteraction

section Totals

variable {period : FxPeriod} {positions : List PositionFXData} {p : PositionFXData}

/-- The parts of the return always sum to it. -/
theorem totals_add (period : FxPeriod) (positions : List PositionFXData) :
    (calculateFxAttribution id id positions period).totalBaseReturn =
      (calculateFxAttribution id id positions period).totalLocalReturn +
        (calculateFxAttribution id id positions period).totalFxReturn +
        (calculateFxAttribution id id positions period).totalInteraction := by
  simp only [calculateFxAttribution, id]
  rw [← List.sum_map_add, ← List.sum_map_add]
  apply congrArg List.sum
  apply List.map_congr_left
  intro p _
  rw [FxPeriod.interaction]
  ring

theorem positionReturn_eq (value : 0 < p.marketValueLocal) (rate : 0 < period.startRate p) :
    period.positionReturn p = (1 + p.localReturn) * (period.endRate p / period.startRate p) - 1 := by
  rw [FxPeriod.positionReturn, FxPeriod.endValue, FxPeriod.startValue]
  field_simp

/-- What the guard against small rates keeps from a position's return. -/
def unseen (period : FxPeriod) (p : PositionFXData) : Decimal :=
  if negligible < period.startRate p then 0
  else (1 + p.localReturn) * (period.endRate p / period.startRate p - 1)

theorem baseReturn_add_unseen (value : 0 < p.marketValueLocal) (rate : 0 < period.startRate p) :
    period.baseReturn p + unseen period p = period.positionReturn p := by
  have one : negligible < 1 := by decide +kernel
  rw [positionReturn_eq value rate]
  unfold FxPeriod.baseReturn FxPeriod.fxReturn unseen
  unfold FxPeriod.startRate FxPeriod.endRate at *
  by_cases base : p.currency = period.baseCurrency
  · simp only [base, if_true, one]
    ring
  · simp only [base, if_false] at rate ⊢
    rw [abs_of_pos rate]
    split
    · ring
    · ring

/-- What the guards against small numbers add to the return of the portfolio, times the values of the
portfolio in both measures. -/
def guarded (period : FxPeriod) (positions : List PositionFXData) : Decimal :=
  ((positions.map (·.marketValueLocal)).sum - totalMv positions) *
      weighted period.startValue period.positionReturn positions -
    (positions.map period.startValue).sum * weighted (·.marketValueLocal) (unseen period) positions

/-- No number is so small that a guard takes it for zero. -/
structure Measurable (period : FxPeriod) (positions : List PositionFXData) : Prop where
  total : negligible ≤ (positions.map (·.marketValueLocal)).sum
  rates : ∀ p ∈ positions, negligible < period.startRate p

theorem sum_abs (priced : period.Priced positions) :
    (positions.map fun p => |p.marketValueLocal|) = positions.map (·.marketValueLocal) := by
  apply List.map_congr_left
  intro p member
  exact abs_of_pos (priced p member).1

theorem Measurable.guarded_eq (measurable : Measurable period positions) (priced : period.Priced positions) :
    guarded period positions = 0 := by
  have whole : totalMv positions = (positions.map (·.marketValueLocal)).sum := by
    rw [totalMv, sum_abs priced]
    exact if_neg (not_lt.mpr measurable.total)
  have seen : weighted (·.marketValueLocal) (unseen period) positions = 0 := by
    apply List.sum_eq_zero
    intro part member
    obtain ⟨p, inside, rfl⟩ := List.mem_map.mp member
    rw [unseen, if_pos (measurable.rates p inside), mul_zero]
  rw [guarded, whole, seen, sub_self, zero_mul, mul_zero, sub_zero]

theorem totalMv_ne (positions : List PositionFXData) : totalMv positions ≠ 0 := by
  have positive : 0 < negligible := by decide +kernel
  unfold totalMv
  dsimp only
  split
  · exact one_ne_zero
  · rename_i large
    exact (positive.trans_le (not_lt.mp large)).ne'

/-- The base return, over the weights that the loop divides by. -/
theorem totalBaseReturn_eq (priced : period.Priced positions) :
    (calculateFxAttribution id id positions period).totalBaseReturn =
      (weighted (·.marketValueLocal) period.positionReturn positions -
        weighted (·.marketValueLocal) (unseen period) positions) / totalMv positions := by
  simp only [calculateFxAttribution, id, weighted]
  rw [eq_div_iff (totalMv_ne positions), ← List.sum_map_mul_right, eq_sub_iff_add_eq, ← List.sum_map_add]
  apply congrArg List.sum
  apply List.map_congr_left
  intro p member
  obtain ⟨value, rate, -⟩ := priced p member
  rw [← baseReturn_add_unseen value rate, abs_of_pos value]
  field_simp [totalMv_ne positions]

end Totals

/-- The base return is the portfolio's where, and only where, the rates at the start do not go with the
returns: but for what the guards add, over all pairs of positions the differences of the rates
and of the returns, weighted with the local values, cancel. -/
theorem ofPortfolio_iff {period : FxPeriod} {positions : List PositionFXData} (priced : period.Priced positions) :
    (OfPortfolio period positions (calculateFxAttribution id id positions period) ↔
      spread (·.marketValueLocal) period.startRate period.positionReturn positions =
        2 * guarded period positions) ∧
      (Measurable period positions →
        (OfPortfolio period positions (calculateFxAttribution id id positions period) ↔
          spread (·.marketValueLocal) period.startRate period.positionReturn positions = 0)) := by
  have general : OfPortfolio period positions (calculateFxAttribution id id positions period) ↔
      spread (·.marketValueLocal) period.startRate period.positionReturn positions =
        2 * guarded period positions := by
    rw [OfPortfolio, and_iff_left (totals_add period positions), totalBaseReturn_eq priced, spread_eq, guarded,
      FxPeriod.portfolioReturn, average]
    by_cases empty : positions = []
    · subst empty
      simp [weighted]
    · have values : 0 < (positions.map period.startValue).sum := by
        apply List.sum_pos
        · intro value member
          obtain ⟨p, inside, rfl⟩ := List.mem_map.mp member
          exact mul_pos (priced p inside).1 (priced p inside).2.1
        · simpa using empty
      have started : period.startValue = fun p => p.marketValueLocal * period.startRate p := rfl
      rw [div_eq_div_iff (totalMv_ne positions) values.ne', started]
      constructor
      · intro same
        linear_combination -2 * same
      · intro same
        linear_combination -same / 2
  refine ⟨general, fun measurable => ?_⟩
  rw [general, measurable.guarded_eq priced, mul_zero]

/-- Euros at two dollars each, and dollars. -/
def twoCurrencies (euros dollars : Decimal) : List PositionFXData :=
  [⟨"SAP", "EUR", 100, euros⟩, ⟨"AAPL", "USD", 100, dollars⟩]

def atTwo : Dictionary String Decimal := ⟨[("EUR", 2)], by decide⟩

def euroAtTwo : FxPeriod := ⟨atTwo, atTwo, "USD"⟩

theorem ofPortfolio_alike : OfPortfolio euroAtTwo (twoCurrencies (1 / 10) (1 / 10))
    (calculateFxAttribution id id (twoCurrencies (1 / 10) (1 / 10)) euroAtTwo) :=
  ((ofPortfolio_iff (by decide +kernel)).2 ⟨by decide +kernel, by decide +kernel⟩).mpr (by decide +kernel)

/-- The euros are two thirds of the portfolio, and are counted as one half. -/
theorem euros_counted_as_dollars :
    ¬ ∀ (period : FxPeriod) (positions : List PositionFXData), period.Priced positions →
      OfPortfolio period positions (calculateFxAttribution id id positions period) := by
  intro ofPortfolio
  have totals := (ofPortfolio euroAtTwo (twoCurrencies (1 / 10) 0) (by decide +kernel)).1
  have reported : (calculateFxAttribution id id (twoCurrencies (1 / 10) 0) euroAtTwo).totalBaseReturn = 1 / 20 := by
    decide +kernel
  have returned : euroAtTwo.portfolioReturn (twoCurrencies (1 / 10) 0) = 1 / 15 := by decide +kernel
  rw [reported, returned] at totals
  norm_num at totals

end MiniHedge.Attribution
