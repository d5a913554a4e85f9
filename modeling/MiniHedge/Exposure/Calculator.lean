import MiniHedge.Library.Mapping
import MiniHedge.Library.StableSort
import MiniHedge.Python.Context
import MiniHedge.Python.Uuid
import Mathlib.Data.String.Basic

/-! The exposure calculator and its normalizers.

A position counts with its market value, or with what the normalizer of its asset
class makes of it where the caller gives a table. An empty table is none. Exposures
are added and weighed in a context; a normalizer multiplies exactly. `toLower` changes
the letters of ASCII alone, which are all that a table of the source has. The time of
a calculation is left out.
-/

set_option autoImplicit false

namespace MiniHedge.Exposure

open MiniHedge.Python MiniHedge.Library

/-- A position with what it is valued at. -/
structure PositionValue where
  instrumentId : String
  quantity : Decimal
  marketPrice : Decimal
  marketValue : Decimal
  assetClass : Option String := none
  sector : Option String := none
  country : Option String := none
  currency : String := "USD"
  deriving DecidableEq, Repr

/-! ## Normalizers -/

/-- What a position is exposed to in the base currency, at a rate. -/
abbrev ExposureNormalizer := PositionValue → Decimal → Decimal

def equityExposureNormalizer : ExposureNormalizer := fun position fxRate =>
  position.quantity * position.marketPrice * fxRate

/-- Without the delta that is meant to go in. -/
def optionExposureNormalizer : ExposureNormalizer := fun position fxRate =>
  position.marketValue * fxRate

/-- Without the contract size. -/
def futureExposureNormalizer : ExposureNormalizer := fun position fxRate =>
  position.marketValue * fxRate

/-- Without the accrued interest. -/
def fixedIncomeExposureNormalizer : ExposureNormalizer := fun position fxRate =>
  position.marketValue * fxRate

abbrev Normalizers := List (String × ExposureNormalizer)

def exposureNormalizers : Normalizers :=
  [("equity", equityExposureNormalizer),
    ("etf", equityExposureNormalizer),
    ("option", optionExposureNormalizer),
    ("future", futureExposureNormalizer),
    ("fixed_income", fixedIncomeExposureNormalizer),
    ("fx", equityExposureNormalizer),
    ("fx_forward", equityExposureNormalizer),
    ("swap", equityExposureNormalizer),
    ("private", equityExposureNormalizer)]

def normalizeExposure (position : PositionValue) (fxRate : Decimal) (normalizers : Normalizers) :
    Decimal :=
  let registry := if normalizers.isEmpty then exposureNormalizers else normalizers
  let assetClass := (position.assetClass.getD "").toLower
  ((registry.lookup assetClass).getD equityExposureNormalizer) position fxRate

/-- What every loop of the calculator takes as the exposure of a position. -/
def exposureOf (normalizers : Normalizers) (pv : PositionValue) : Decimal :=
  if normalizers.isEmpty then pv.marketValue else normalizeExposure pv 1 normalizers

/-! ## Dimensions -/

inductive ExposureDimension where
  | instrument
  | sector
  | country
  | currency
  | assetClass
  deriving DecidableEq, Repr

namespace ExposureDimension

def value : ExposureDimension → String
  | instrument => "instrument"
  | sector => "sector"
  | country => "country"
  | currency => "currency"
  | assetClass => "asset_class"

/-- The members, in the order of the class. -/
def all : List ExposureDimension := [instrument, sector, country, currency, assetClass]

end ExposureDimension

/-- `value or "Unknown"`. -/
def orUnknown : Option String → String
  | none | some "" => "Unknown"
  | some value => value

/-- `_get_dimension_key`. -/
def getDimensionKey (dim : ExposureDimension) (pv : PositionValue) : String :=
  match dim with
  | .instrument => pv.instrumentId
  | .sector => orUnknown pv.sector
  | .country => orUnknown pv.country
  | .currency => pv.currency
  | .assetClass => orUnknown pv.assetClass

structure ExposureBreakdown where
  dimension : ExposureDimension
  key : String
  longValue : Decimal
  shortValue : Decimal
  netValue : Decimal
  grossValue : Decimal
  weightPct : Decimal
  deriving DecidableEq, Repr

/-- The two dictionaries of a breakdown. -/
structure Sides where
  longs : List (String × Decimal) := []
  shorts : List (String × Decimal) := []

section Calculations

variable (ctx : Context)

def Sides.count (sides : Sides) (key : String) (exposure : Decimal) : Sides :=
  if 0 < exposure then
    { sides with longs := setItem key (ctx.add ((sides.longs.lookup key).getD 0) exposure) sides.longs }
  else if exposure < 0 then
    { sides with shorts := setItem key (ctx.add ((sides.shorts.lookup key).getD 0) exposure) sides.shorts }
  else sides

/-- A share of a total in percent; none of nothing. -/
def weightOf (gross grossTotal : Decimal) : Decimal :=
  if grossTotal ≠ 0 then ctx.multiply (ctx.divide gross grossTotal) 100 else 0

variable (normalizers : Normalizers) (positions : List PositionValue)

def sidesBy (dim : ExposureDimension) : Sides :=
  positions.foldl (fun sides pv => sides.count ctx (getDimensionKey dim pv) (exposureOf normalizers pv)) {}

/-- The keys of both dictionaries. -/
def Sides.allKeys (sides : Sides) : List String :=
  (sides.longs.map (·.1) ++ sides.shorts.map (·.1)).eraseDups

/-- `_breakdown_by_dimension`. -/
def breakdownByDimension (dim : ExposureDimension) (grossTotal : Decimal) :
    List ExposureBreakdown :=
  let sides := sidesBy ctx normalizers positions dim
  (sortOn id sides.allKeys).map fun key =>
    let longVal := (sides.longs.lookup key).getD 0
    let shortVal := (sides.shorts.lookup key).getD 0
    let grossVal := ctx.add longVal (ctx.abs shortVal)
    { dimension := dim
      key
      longValue := longVal
      shortValue := shortVal
      netValue := ctx.add longVal shortVal
      grossValue := grossVal
      weightPct := weightOf ctx grossVal grossTotal }

structure PortfolioExposure where
  portfolioId : UUID
  grossExposure : Decimal
  netExposure : Decimal
  longExposure : Decimal
  shortExposure : Decimal
  longCount : Nat
  shortCount : Nat
  breakdowns : List (String × List ExposureBreakdown)
  deriving DecidableEq, Repr

structure Totals where
  longTotal : Decimal := 0
  shortTotal : Decimal := 0
  longCount : Nat := 0
  shortCount : Nat := 0

def Totals.count (t : Totals) (exposure : Decimal) : Totals :=
  if 0 < exposure then
    { t with longTotal := ctx.add t.longTotal exposure, longCount := t.longCount + 1 }
  else if exposure < 0 then
    { t with shortTotal := ctx.add t.shortTotal exposure, shortCount := t.shortCount + 1 }
  else t

def calculateExposure (portfolioId : UUID) : PortfolioExposure :=
  let t : Totals := positions.foldl (fun t pv => t.count ctx (exposureOf normalizers pv)) {}
  let gross := ctx.add t.longTotal (ctx.abs t.shortTotal)
  { portfolioId
    grossExposure := gross
    netExposure := ctx.add t.longTotal t.shortTotal
    longExposure := t.longTotal
    shortExposure := t.shortTotal
    longCount := t.longCount
    shortCount := t.shortCount
    breakdowns := ExposureDimension.all.filterMap fun dim =>
      let bd := breakdownByDimension ctx normalizers positions dim gross
      if bd.isEmpty then none else some (dim.value, bd) }

structure DrilldownItem where
  instrumentId : String
  longValue : Decimal
  shortValue : Decimal
  netValue : Decimal
  grossValue : Decimal
  weightPct : Decimal
  deriving DecidableEq, Repr

structure DimensionDrilldown where
  dimension : String
  key : String
  items : List DrilldownItem
  deriving DecidableEq, Repr

def calculateDrilldown (dimension : ExposureDimension) (key : String) : DimensionDrilldown :=
  let isMatching := fun p => decide (getDimensionKey dimension p = key)
  let matching := positions.filter isMatching
  let grossTotal := matching.foldl (fun total p => ctx.add total (ctx.abs (exposureOf normalizers p))) 0
  let items := matching.map fun pv =>
    let mv := exposureOf normalizers pv
    { instrumentId := pv.instrumentId
      longValue := if 0 < mv then mv else 0
      shortValue := if mv < 0 then mv else 0
      netValue := mv
      grossValue := ctx.abs mv
      weightPct := weightOf ctx (ctx.abs mv) grossTotal : DrilldownItem }
  ⟨dimension.value, key, sortOn (fun i => -i.grossValue) items⟩

end Calculations

end MiniHedge.Exposure
