import MiniHedge.Library.Raising
import MiniHedge.Python.Decimal

/-! Forward rates, their valuation, and hedge recommendations. -/

set_option autoImplicit false

namespace MiniHedge.FxHedging

open MiniHedge.Python
open MiniHedge.Library (bind_eq_ok)

inductive FXForwardDirection where
  | buy
  | sell
  deriving DecidableEq, Repr

def FXForwardDirection.sign : FXForwardDirection → Decimal
  | .buy => 1
  | .sell => -1

/-! ## Forward rates -/

structure ForwardRate where
  spot : Decimal
  forward : Decimal
  forwardPoints : Decimal
  domesticRate : Decimal
  foreignRate : Decimal
  tenorDays : Int
  deriving DecidableEq, Repr

def daysInYear : Decimal := 360

def yearFraction (tenorDays : Int) : Decimal := tenorDays / daysInYear

section Parity

variable (spot domesticRate foreignRate : Decimal) (tenorDays : Int)

/-- `S * (1 + r_d * T) / (1 + r_f * T)`. -/
def parity : Except Exc Decimal :=
  divide (spot * (1 + domesticRate * yearFraction tenorDays))
    (1 + foreignRate * yearFraction tenorDays)

def calculateForwardRate : Except Exc ForwardRate := do
  let exact ← parity spot domesticRate foreignRate tenorDays
  let forward := quantize 6 .halfEven exact
  return { spot, forward, forwardPoints := forward - spot, domesticRate, foreignRate, tenorDays }

variable {spot domesticRate foreignRate tenorDays}

theorem calculateForwardRate_ok {rate : ForwardRate} :
    calculateForwardRate spot domesticRate foreignRate tenorDays = .ok rate ↔
      ∃ exact, parity spot domesticRate foreignRate tenorDays = .ok exact ∧
        rate = ⟨spot, quantize 6 .halfEven exact, quantize 6 .halfEven exact - spot, domesticRate,
          foreignRate, tenorDays⟩ := by
  rw [calculateForwardRate, bind_eq_ok]
  constructor
  · rintro ⟨exact, priced, same⟩
    exact ⟨exact, priced, (Except.ok.inj same).symm⟩
  · rintro ⟨exact, priced, rfl⟩
    exact ⟨exact, priced, rfl⟩

/-- Where both rates are the same, the forward rate is the spot rate. -/
theorem parity_same (spot : Decimal) {rate : Decimal}
    (nonzero : 1 + rate * yearFraction tenorDays ≠ 0) :
    parity spot rate rate tenorDays = .ok spot := by
  rw [parity, divide_ok nonzero, mul_div_cancel_right₀ spot nonzero]

theorem parity_fails (spot domesticRate : Decimal)
    (zero : 1 + foreignRate * yearFraction tenorDays = 0) :
    ∃ raised, parity spot domesticRate foreignRate tenorDays = .error raised :=
  ⟨_, if_pos zero⟩

end Parity

/-! ## Valuation -/

structure ForwardMTM where
  contractForward : Decimal
  currentForward : Decimal
  notional : Decimal
  mtmValue : Decimal
  currency : String
  deriving DecidableEq, Repr

def markToMarketForward (contractRate contractNotional : Decimal)
    (contractDirection : FXForwardDirection) (currentSpot domesticRate foreignRate : Decimal)
    (remainingDays : Int) (quoteCurrency : String) : Except Exc ForwardMTM := do
  let currentFwd ← calculateForwardRate currentSpot domesticRate foreignRate remainingDays
  let mtm := contractDirection.sign * contractNotional * (currentFwd.forward - contractRate)
  return {
    contractForward := contractRate
    currentForward := currentFwd.forward
    notional := contractNotional
    mtmValue := quantize 2 .halfEven mtm
    currency := quoteCurrency }

theorem markToMarketForward_eq (contractRate contractNotional : Decimal)
    (contractDirection : FXForwardDirection) (currentSpot domesticRate foreignRate : Decimal)
    (remainingDays : Int) (quoteCurrency : String) :
    markToMarketForward contractRate contractNotional contractDirection currentSpot domesticRate
        foreignRate remainingDays quoteCurrency =
      (parity currentSpot domesticRate foreignRate remainingDays).map fun exact =>
        { contractForward := contractRate
          currentForward := quantize 6 .halfEven exact
          notional := contractNotional
          mtmValue := quantize 2 .halfEven (contractDirection.sign * contractNotional *
            (quantize 6 .halfEven exact - contractRate))
          currency := quoteCurrency } := by
  unfold markToMarketForward calculateForwardRate
  cases parity currentSpot domesticRate foreignRate remainingDays <;> rfl

/-! ## Recommendations -/

structure HedgeRecommendation where
  currencyPair : String
  baseCurrency : String
  quoteCurrency : String
  notional : Decimal
  direction : FXForwardDirection
  hedgeRatio : Decimal
  tenorDays : Int
  estimatedForward : Decimal
  estimatedCostBps : Decimal
  deriving DecidableEq, Repr

section Recommend

variable (baseCurrency : String) (spots : String → Option Decimal) (domesticRate : Decimal)
  (foreignRates : String → Option Decimal) (hedgeRatio : Decimal) (tenorDays : Int)

/-- The recommendation for an exposure, at a spot and the forward rate of it. -/
def recommendation (ccy : String) (exposure spot : Decimal) (fwd : ForwardRate) :
    HedgeRecommendation where
  currencyPair := s!"{baseCurrency}/{ccy}"
  baseCurrency := baseCurrency
  quoteCurrency := ccy
  notional := quantize 2 .halfEven (|exposure| * hedgeRatio)
  direction := if 0 < exposure then .sell else .buy
  hedgeRatio := hedgeRatio
  tenorDays := tenorDays
  estimatedForward := fwd.forward
  estimatedCostBps := quantize 2 .halfEven (|fwd.forwardPoints / spot| / (1 / 10000))

/-- What the loop does for one exposure, which it may skip. -/
def recommendHedge (ccy : String) (exposure : Decimal) : Except Exc (Option HedgeRecommendation) :=
  -- nothing is recommended without a positive spot
  if ccy = baseCurrency ∨ exposure = 0 then .ok none
  else match spots ccy with
    | none => .ok none
    | some spot =>
      if spot ≤ 0 then .ok none
      else do
        let fwd ← calculateForwardRate spot domesticRate ((foreignRates ccy).getD 0) tenorDays
        return recommendation baseCurrency hedgeRatio tenorDays ccy exposure spot fwd

def recommendHedges : List (String × Decimal) → Except Exc (List HedgeRecommendation)
  | [] => .ok []
  | (ccy, exposure) :: rest => do
    let own ← recommendHedge baseCurrency spots domesticRate foreignRates hedgeRatio tenorDays ccy
      exposure
    let others ← recommendHedges rest
    return own.toList ++ others

variable {baseCurrency spots domesticRate foreignRates hedgeRatio tenorDays}

theorem recommendHedge_ok {ccy : String} {exposure : Decimal} {r : HedgeRecommendation}
    (recommended : recommendHedge baseCurrency spots domesticRate foreignRates hedgeRatio tenorDays
      ccy exposure = .ok (some r)) :
    exposure ≠ 0 ∧ ∃ spot, spots ccy = some spot ∧ 0 < spot ∧
      ∃ fwd, calculateForwardRate spot domesticRate ((foreignRates ccy).getD 0) tenorDays = .ok fwd ∧
        r = recommendation baseCurrency hedgeRatio tenorDays ccy exposure spot fwd := by
  unfold recommendHedge at recommended
  split at recommended
  · cases recommended
  · rename_i foreign
    split at recommended
    · cases recommended
    · rename_i spot quoted
      split at recommended
      · cases recommended
      · rename_i positive
        obtain ⟨fwd, calculated, same⟩ := bind_eq_ok.mp recommended
        exact ⟨fun zero => foreign (.inr zero), spot, quoted, not_le.mp positive, fwd, calculated,
          (Option.some.inj (Except.ok.inj same)).symm⟩

/-- Each recommendation is that for an exposure. -/
theorem mem_recommendHedges {exposures : List (String × Decimal)} {recs : List HedgeRecommendation}
    (recommended : recommendHedges baseCurrency spots domesticRate foreignRates hedgeRatio tenorDays
      exposures = .ok recs) {r : HedgeRecommendation} (member : r ∈ recs) :
    ∃ e ∈ exposures, recommendHedge baseCurrency spots domesticRate foreignRates hedgeRatio
      tenorDays e.1 e.2 = .ok (some r) := by
  induction exposures generalizing recs with
  | nil =>
    cases recommended
    cases member
  | cons first rest ih =>
    obtain ⟨own, calculated, later⟩ := bind_eq_ok.mp recommended
    obtain ⟨others, listed, same⟩ := bind_eq_ok.mp later
    cases same
    rcases List.mem_append.mp member with here | there
    · exact ⟨first, List.mem_cons_self, calculated.trans (by rw [Option.mem_toList.mp here])⟩
    · obtain ⟨e, inside, found⟩ := ih listed there
      exact ⟨e, List.mem_cons_of_mem first inside, found⟩

end Recommend

end MiniHedge.FxHedging
