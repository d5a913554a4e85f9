import MiniHedge.Exposure.Breakdowns
import MiniHedge.MarketData.Fx
import MiniHedge.Positions.MarkToMarket

/-! `ExposureService`: from a position as it is marked to its exposure.

The strategy of the asset class marks a position in its own currency; the service
converts the market value alone; the normalizer of the class takes the exposure
from the market value, or again from quantity and price. The arithmetic is exact here.
-/

set_option autoImplicit false

namespace MiniHedge.Exposure

open MiniHedge.Python MiniHedge.Library
open MiniHedge.MarketData (FXConverter toBase toBase_eq baseRate)
open MiniHedge.Positions (AssetClass CurrentPositionRecord PositionStrategy getPositionStrategy)

/-! ## The service -/

/-- What the security master lists. -/
structure Instrument where
  ticker : String
  assetClass : AssetClass
  sector : Option String := none
  country : Option String := none
  deriving DecidableEq, Repr

/-- `normalizers or EXPOSURE_NORMALIZERS`, so the table is never empty. -/
structure ExposureService where
  fx : Option FXConverter := none
  baseCurrency : String := "USD"
  normalizers : Normalizers := exposureNormalizers

namespace ExposureService

variable (service : ExposureService) (instruments : List Instrument)

/-- The dictionary of the instruments by ticker. -/
def instrMap : List (String × Instrument) :=
  instruments.foldl (fun d i => setItem i.ticker i d) []

/-- What one position gives: nothing without a quantity. -/
def positionValue (pos : CurrentPositionRecord) : Option PositionValue :=
  if pos.quantity = 0 then none
  else
    let instrument := (instrMap instruments).lookup pos.instrumentId
    some {
      instrumentId := pos.instrumentId
      quantity := pos.quantity
      marketPrice := pos.marketPrice
      marketValue := toBase service.fx pos.marketValue pos.currency service.baseCurrency
      assetClass := instrument.map (·.assetClass.value)
      sector := instrument.bind (·.sector)
      country := instrument.bind (·.country)
      currency := pos.currency }

/-- `_build_position_values`. -/
def buildPositionValues (positions : List CurrentPositionRecord) : List PositionValue :=
  positions.filterMap (service.positionValue instruments)

def getCurrent (portfolioId : UUID) (positions : List CurrentPositionRecord) : PortfolioExposure :=
  calculateExposure .exact service.normalizers (service.buildPositionValues instruments positions)
    portfolioId

/-- The exposure to one position. -/
def exposureTo (pos : CurrentPositionRecord) : Decimal :=
  (service.getCurrent instruments pos.portfolioId [pos]).netExposure

/-- What the service counts of a position. -/
theorem exposureTo_eq (pos : CurrentPositionRecord) : service.exposureTo instruments pos =
    ((service.positionValue instruments pos).map (exposureOf service.normalizers)).getD 0 := by
  have net := whole_value
    (AddsUp.exact service.normalizers (service.buildPositionValues instruments [pos])) pos.portfolioId .net
  refine net.trans ?_
  unfold buildPositionValues measured
  cases given : service.positionValue instruments pos with
  | none => simp [given]
  | some pv => simp [given, Measure.of]

/-- The net exposure of a portfolio is that of its positions together. -/
theorem getCurrent_net (portfolioId : UUID) (positions : List CurrentPositionRecord) :
    (service.getCurrent instruments portfolioId positions).netExposure =
      (positions.map (service.exposureTo instruments)).sum := by
  refine (whole_value (AddsUp.exact service.normalizers _) portfolioId .net).trans ?_
  unfold buildPositionValues measured
  induction positions with
  | nil => rfl
  | cons pos rest ih =>
    rw [List.map_cons, List.sum_cons, ← ih, exposureTo_eq]
    cases given : service.positionValue instruments pos with
    | none => simp [given]
    | some pv => simp [given, Measure.of]

end ExposureService

/-! ## What the normalizers take -/

/-- Whether the normalizer of a class takes the exposure from quantity and price. -/
def takesPrice : AssetClass → Bool
  | .option | .future | .fixedIncome => false
  | _ => true

theorem exposureOf_class (pv : PositionValue) (c : AssetClass) (own : pv.assetClass = some c.value) :
    exposureOf exposureNormalizers pv =
      if takesPrice c then pv.quantity * pv.marketPrice else pv.marketValue := by
  have lower : c.value.toLower = c.value := by cases c <;> decide +kernel
  unfold exposureOf normalizeExposure
  rw [own, Option.getD_some, lower]
  cases c <;> simp [exposureNormalizers, AssetClass.value, takesPrice, List.lookup_cons,
    equityExposureNormalizer, optionExposureNormalizer, futureExposureNormalizer,
    fixedIncomeExposureNormalizer]

/-! ## Direction and currency -/

section Position

variable (pos : CurrentPositionRecord) (strategy : PositionStrategy) (price : Decimal)

/-- The position with another quantity and currency, marked at the price. -/
def held (quantity : Decimal) (currency : String) : CurrentPositionRecord :=
  ({ pos with quantity := quantity, currency := currency } : CurrentPositionRecord).mark strategy
    price

section Fields

variable (quantity : Decimal) (currency : String)

@[simp] theorem held_instrumentId :
    (held pos strategy price quantity currency).instrumentId = pos.instrumentId := rfl

@[simp] theorem held_quantity :
    (held pos strategy price quantity currency).quantity = quantity := rfl

@[simp] theorem held_currency :
    (held pos strategy price quantity currency).currency = currency := rfl

@[simp] theorem held_marketPrice :
    (held pos strategy price quantity currency).marketPrice = price := rfl

@[simp] theorem held_marketValue : (held pos strategy price quantity currency).marketValue =
    strategy.marketValue {} quantity price := rfl

end Fields

/-- What a quantity at the price counts, at a rate to the base currency. -/
def counted (c : AssetClass) (quantity price rate : Decimal) : Decimal :=
  match c with
  | .option => |quantity| * price * 100 * rate
  | .future => |quantity| * price * rate
  | .fixedIncome => quantity * price / 100 * rate
  | _ => quantity * price

variable {pos strategy price} {service : ExposureService} {instruments : List Instrument}
  {inst : Instrument} {fx : FXConverter}

theorem exposureTo_held (defaults : service.normalizers = exposureNormalizers)
    (listed : (ExposureService.instrMap instruments).lookup pos.instrumentId = some inst)
    (registered : getPositionStrategy inst.assetClass = some strategy) (quantity : Decimal)
    (currency : String) :
    service.exposureTo instruments (held pos strategy price quantity currency) =
      counted inst.assetClass quantity price
        (baseRate service.fx currency service.baseCurrency) := by
  rw [service.exposureTo_eq, defaults, ExposureService.positionValue]
  by_cases nothing : quantity = 0
  · -- a position without a quantity is left out, and counts nothing
    subst nothing
    rw [if_pos (held_quantity ..)]
    cases inst.assetClass <;> simp [counted]
  · have counts : (held pos strategy price quantity currency).quantity ≠ 0 := nothing
    rw [if_neg counts, Option.map_some, Option.getD_some,
      exposureOf_class _ inst.assetClass (by simp [listed])]
    simp only [held_quantity, held_marketPrice, held_marketValue, held_currency, toBase_eq]
    cases own : inst.assetClass <;> rw [own] at registered <;> cases registered <;>
      simp [takesPrice, counted, Positions.optionPositionStrategy,
        Positions.futurePositionStrategy, Positions.fixedIncomePositionStrategy]

/-- The short position counts the opposite of the long one, and a position in a
currency the rate times one in the base currency. -/
def Respects (service : ExposureService) (instruments : List Instrument)
    (pos : CurrentPositionRecord) (strategy : PositionStrategy) (quantity price : Decimal)
    (currency : String) (rate : Decimal) : Prop :=
  service.exposureTo instruments (held pos strategy price (-quantity) currency) =
      -service.exposureTo instruments (held pos strategy price quantity currency) ∧
    service.exposureTo instruments (held pos strategy price quantity currency) =
      rate * service.exposureTo instruments (held pos strategy price quantity service.baseCurrency)

/-- What the market value forgets, or what is taken again without the rate, must be zero. -/
def Kept (c : AssetClass) (value rate : Decimal) : Prop :=
  match c with
  | .option | .future => value = 0 ∨ rate = 0
  | .fixedIncome => True
  | _ => value = 0 ∨ rate = 1

theorem counted_iff (c : AssetClass) {strategy : PositionStrategy}
    (registered : getPositionStrategy c = some strategy) (quantity price rate : Decimal) :
    (counted c (-quantity) price rate = -counted c quantity price rate ∧
        counted c quantity price rate = rate * counted c quantity price 1) ↔
      Kept c (quantity * price) rate := by
  -- a value without its sign is its own opposite, and must be zero
  have unsigned : |quantity| * price = 0 ↔ quantity * price = 0 := by
    rw [mul_eq_zero, abs_eq_zero, mul_eq_zero]
  have unconverted : quantity * price = rate * (quantity * price) ↔
      quantity * price = 0 ∨ rate = 1 := by
    rw [eq_comm, mul_left_eq_self₀, or_comm]
  cases c <;> cases registered <;> simp only [counted, Kept, abs_neg, neg_mul, true_and]
  case equity => exact unconverted
  case etf => exact unconverted
  case fixedIncome =>
    refine iff_true_intro ⟨by ring, by ring⟩
  case option =>
    rw [self_eq_neg, mul_eq_zero, mul_eq_zero, unsigned]
    constructor
    · rintro ⟨(zero | absurdly) | gone, -⟩
      · exact .inl zero
      · norm_num at absurdly
      · exact .inr gone
    · intro zero
      exact ⟨zero.imp_left .inl, by ring⟩
  case future =>
    rw [self_eq_neg, mul_eq_zero, unsigned]
    exact and_iff_left (by ring)

/-- Direction and currency survive where the three stages fit. -/
theorem respects_iff (defaults : service.normalizers = exposureNormalizers)
    (listed : (ExposureService.instrMap instruments).lookup pos.instrumentId = some inst)
    (registered : getPositionStrategy inst.assetClass = some strategy)
    (converter : service.fx = some fx) {currency : String} {rate : Decimal}
    (available : fx.getRate currency service.baseCurrency = some rate) (quantity : Decimal) :
    Respects service instruments pos strategy quantity price currency rate ↔
      Kept inst.assetClass (quantity * price) rate := by
  have foreign : baseRate service.fx currency service.baseCurrency = rate := by
    unfold baseRate
    rw [converter]
    split
    · rename_i same
      rw [same, FXConverter.getRate, if_pos rfl] at available
      exact Option.some.inj available
    · simp [available]
  have base : baseRate service.fx service.baseCurrency service.baseCurrency = 1 := if_pos rfl
  unfold Respects
  simp only [exposureTo_held defaults listed registered, foreign, base]
  exact counted_iff inst.assetClass registered quantity price rate

end Position

/-! A bond and shares that are held in euros, and one contract of an option. -/

def eurRates : FXConverter := ⟨[("EUR/USD", 11 / 10)]⟩

def dollars : ExposureService where
  fx := some eurRates

def listedInstruments : List Instrument :=
  [⟨"AAPL", .equity, none, none⟩, ⟨"BOND", .fixedIncome, none, none⟩, ⟨"CALL", .option, none, none⟩]

def template (instrumentId : String) : CurrentPositionRecord where
  portfolioId := .ofNat 1
  instrumentId := instrumentId
  quantity := 0
  avgCost := 0
  costBasis := 0
  realizedPnl := 0
  marketPrice := 0
  marketValue := 0
  unrealizedPnl := 0
  currency := "USD"

theorem respects_bond : Respects dollars listedInstruments (template "BOND")
    Positions.fixedIncomePositionStrategy 1000 98 "EUR" (11 / 10) := by
  have available : eurRates.getRate "EUR" dollars.baseCurrency = some (11 / 10) := by
    decide +kernel
  have listed : (ExposureService.instrMap listedInstruments).lookup (template "BOND").instrumentId =
      some ⟨"BOND", .fixedIncome, none, none⟩ := by decide +kernel
  exact (respects_iff rfl listed rfl rfl available 1000).mpr trivial

/-- A contract that is sold counts a thousand dollars as one that is bought does, and
shares for five thousand euros count five thousand dollars. -/
theorem option_and_euros_lost :
    ¬ Respects dollars listedInstruments (template "CALL") Positions.optionPositionStrategy 1 10
        "USD" 1 ∧
      ¬ Respects dollars listedInstruments (template "AAPL") Positions.equityPositionStrategy 100 50
        "EUR" (11 / 10) := by
  unfold Respects
  decide +kernel

end MiniHedge.Exposure
