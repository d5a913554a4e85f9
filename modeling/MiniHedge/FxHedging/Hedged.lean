import MiniHedge.FxHedging.Service

/-! What a forward is marked at, after it is opened, and forwards that are opened as a
recommendation says.

The other open forwards of its portfolio are marked in the same call, and any of
them that divides by zero ends it.
-/

set_option autoImplicit false

namespace MiniHedge.FxHedging

open MiniHedge.Python MiniHedge.MarketData
open MiniHedge.Library (bind_eq_ok forall₂_mem mem_iff_lookup mem_latestRows mem_of_latestRow)

namespace FXHedgingService

variable (service : FXHedgingService) (today : Int) (now : Datetime)

/-- The call returns the forward with that value. -/
def MarksAt (portfolioId : String) (table : List FXForwardRecord) (id : Nat) (mtm : Decimal) :
    Prop :=
  ∃ results, (service.markToMarketAll today now portfolioId table).1 = .ok results ∧
    ∃ fwd ∈ results, fwd.id = id ∧ fwd.mtmValue = some mtm

/-- What accrues at the rate of its base currency for the days that remain is not nothing. -/
def Priced (fwd : FXForwardRecord) : Prop :=
  service.getSpot fwd.baseCurrency fwd.quoteCurrency = none ∨
    1 + service.getRateForCurrency fwd.baseCurrency *
      yearFraction (max (fwd.maturityDate - today) 0) ≠ 0

variable {service today now}

theorem valueForward_quoted {fwd : FXForwardRecord} {spot : Decimal}
    (quoted : service.getSpot fwd.baseCurrency fwd.quoteCurrency = some spot) :
    service.valueForward today fwd = some <$> markToMarketForward fwd.contractRate fwd.notional
      fwd.direction spot service.getDomesticRate (service.getRateForCurrency fwd.baseCurrency)
      (max (fwd.maturityDate - today) 0) fwd.quoteCurrency := by
  rw [valueForward, quoted]

theorem valueForward_unquoted {fwd : FXForwardRecord}
    (unquoted : service.getSpot fwd.baseCurrency fwd.quoteCurrency = none) :
    service.valueForward today fwd = .ok none := by
  rw [valueForward, unquoted]

theorem priced_iff {fwd : FXForwardRecord} :
    service.Priced today fwd ↔ ∃ value, service.valueForward today fwd = .ok value := by
  unfold Priced
  cases quoted : service.getSpot fwd.baseCurrency fwd.quoteCurrency with
  | none => simp [valueForward_unquoted quoted]
  | some spot =>
    rw [valueForward_quoted quoted, markToMarketForward_eq, parity]
    by_cases zero : 1 + service.getRateForCurrency fwd.baseCurrency *
        yearFraction (max (fwd.maturityDate - today) 0) = 0
    · simp [zero, divide, Except.map, Functor.map]
    · simp [zero, divide, Except.map, Functor.map]

/-- Where the base currency of a forward is that of the service, one rate is taken for both, so
that the current forward rate is the spot. -/
theorem valueForward_opened {create : FXForwardCreate} {id : Nat} {spot : Decimal}
    (home : create.baseCurrency = service.baseCurrency)
    (quoted : service.getSpot create.baseCurrency create.quoteCurrency = some spot)
    (priced : service.Priced today (create.record id).columns)
    (grid : OnGrid 8 create.contractRate) :
    ∃ value, service.valueForward today (create.record id).columns = .ok (some value) ∧
      value.mtmValue = quantize 2 .halfEven (create.direction.sign * numeric 4 create.notional *
        (quantize 6 .halfEven spot - create.contractRate)) := by
  have quote : service.getSpot (create.record id).columns.baseCurrency
      (create.record id).columns.quoteCurrency = some spot := quoted
  have same : service.getDomesticRate =
      service.getRateForCurrency (create.record id).columns.baseCurrency :=
    congrArg service.getRateForCurrency home.symm
  have current : parity spot service.getDomesticRate
      (service.getRateForCurrency (create.record id).columns.baseCurrency)
      (max ((create.record id).columns.maturityDate - today) 0) = .ok spot := by
    rw [same]
    rcases priced with unquoted | nonzero
    · rw [quote] at unquoted
      cases unquoted
    · exact parity_same spot nonzero
  rw [valueForward_quoted quote, markToMarketForward_eq, current]
  refine ⟨_, rfl, ?_⟩
  change quantize 2 .halfEven (create.direction.sign * numeric 4 create.notional *
    (quantize 6 .halfEven spot - numeric 8 create.contractRate)) = _
  rw [grid.numeric_eq]

/-- The call marks a forward with a new id at what its own valuation gives. -/
theorem marksAt_iff {create : FXForwardCreate} {table : List FXForwardRecord} {id : Nat}
    (fresh : ∀ fwd ∈ table, fwd.id ≠ id) {mtm : Decimal} :
    service.MarksAt today now create.portfolioId (openForward create id table) id mtm ↔
      (∀ fwd ∈ getOpenByPortfolio (openForward create id table) create.portfolioId,
        service.Priced today fwd) ∧
      ∃ value, service.valueForward today (create.record id).columns = .ok (some value) ∧
        value.mtmValue = mtm := by
  have own : ∀ fwd ∈ openForward create id table, fwd.id = id →
      fwd = (create.record id).columns := by
    intro fwd member same
    rcases List.mem_append.mp member with old | new
    · exact absurd same (fresh fwd old)
    · exact List.mem_singleton.mp new
  have opened : (create.record id).columns ∈
      getOpenByPortfolio (openForward create id table) create.portfolioId :=
    mem_getOpenByPortfolio.mpr ⟨List.mem_append_right table List.mem_cons_self, rfl, rfl⟩
  constructor
  · rintro ⟨results, marked, fwd, member, named, at_⟩
    have each := markEach_ok marked
    constructor
    · intro other inside
      obtain ⟨-, -, value, valued, -⟩ := forall₂_mem each inside
      exact priced_iff.mpr ⟨value, valued⟩
    · have origins : List.Forall₂ (flip fun fwd result => ∃ value,
          service.valueForward today fwd = .ok value ∧ result = value.elim fwd (fwd.marked · now))
          results (getOpenByPortfolio (openForward create id table) create.portfolioId) := each.flip
      obtain ⟨origin, inside, value, valued, rfl⟩ := forall₂_mem origins member
      have held := (mem_getOpenByPortfolio.mp inside).1
      cases value with
      -- a new row has no value of its own to return
      | none =>
        rw [own origin held named] at at_
        cases at_
      | some value =>
        rw [own origin held named] at valued
        exact ⟨value, valued, Option.some.inj at_⟩
  · rintro ⟨priced, value, valued, rfl⟩
    obtain ⟨results, marked⟩ : ∃ results, (service.markToMarketAll today now create.portfolioId
        (openForward create id table)).1 = .ok results :=
      exists_markEach _ _ fun fwd inside => priced_iff.mp (priced fwd inside)
    obtain ⟨result, member, other, found, rfl⟩ := forall₂_mem (markEach_ok marked) opened
    rw [valued] at found
    cases found
    exact ⟨results, marked, _, member, rfl, rfl⟩

theorem marksAt_opened_iff {create : FXForwardCreate} {table : List FXForwardRecord} {id : Nat}
    {spot mtm : Decimal} (home : create.baseCurrency = service.baseCurrency)
    (quoted : service.getSpot create.baseCurrency create.quoteCurrency = some spot)
    (grid : OnGrid 8 create.contractRate) (fresh : ∀ fwd ∈ table, fwd.id ≠ id) :
    service.MarksAt today now create.portfolioId (openForward create id table) id mtm ↔
      (∀ fwd ∈ getOpenByPortfolio (openForward create id table) create.portfolioId,
        service.Priced today fwd) ∧
      quantize 2 .halfEven (create.direction.sign * numeric 4 create.notional *
        (quantize 6 .halfEven spot - create.contractRate)) = mtm := by
  rw [marksAt_iff fresh]
  refine and_congr_right fun priced => ?_
  have own : (create.record id).columns ∈
      getOpenByPortfolio (openForward create id table) create.portfolioId :=
    mem_getOpenByPortfolio.mpr ⟨List.mem_append_right table List.mem_cons_self, rfl, rfl⟩
  obtain ⟨value, valued, same⟩ := valueForward_opened home quoted (priced _ own) grid
  rw [← same]
  constructor
  · rintro ⟨other, found, rfl⟩
    cases valued.symm.trans found
    rfl
  · rintro rfl
    exact ⟨value, valued, rfl⟩

end FXHedgingService

/-! ## Forwards that are opened as a recommendation says

A recommendation prices a forward with the interest rates of both currencies. Its
valuation takes that of the base currency for both, so that what the forward is
marked at is what the spot has moved from the rate of the recommendation.
-/

/-! ## What is to hold -/

/-- The forward is opened on the pair and at the rate of the recommendation. -/
structure FXForwardCreate.AtRate (create : FXForwardCreate) (r : HedgeRecommendation)
    (today : Int) : Prop where
  base : create.baseCurrency = r.baseCurrency
  quote : create.quoteCurrency = r.quoteCurrency
  rate : create.contractRate = r.estimatedForward
  maturity : create.maturityDate = today + r.tenorDays

structure FXForwardCreate.Follows (create : FXForwardCreate) (r : HedgeRecommendation)
    (today : Int) : Prop extends create.AtRate r today where
  notional : create.notional = r.notional
  direction : create.direction = r.direction

/-- The request that follows a recommendation. -/
def HedgeRecommendation.create (r : HedgeRecommendation) (portfolioId : String)
    (spotAtInception : Decimal) (today : Int) : FXForwardCreate where
  portfolioId := portfolioId
  baseCurrency := r.baseCurrency
  quoteCurrency := r.quoteCurrency
  direction := r.direction
  notional := r.notional
  contractRate := r.estimatedForward
  spotAtInception := spotAtInception
  tradeDate := today
  maturityDate := today + r.tenorDays

theorem follows_create (r : HedgeRecommendation) (portfolioId : String) (spotAtInception : Decimal)
    (today : Int) : (r.create portfolioId spotAtInception today).Follows r today where
  base := rfl
  quote := rfl
  rate := rfl
  maturity := rfl
  notional := rfl
  direction := rfl

/-- A unit of the base currency costs the spot in the other, and the other way round. -/
structure Quoted (fx : FXConverter) (baseCurrency ccy : String) (spot : Decimal) : Prop where
  positive : 0 < spot
  direct : fx.getRate baseCurrency ccy = some spot
  inverse : fx.getRate ccy baseCurrency = some (1 / spot)

/-- In the currency of the exposure, and up to the rounding of the value to cents, the value of
the forward and the change of the exposure's value in the base currency add up to nothing. -/
def Offsets (before later : FXConverter) (baseCurrency ccy : String) (exposure mtm : Decimal) :
    Prop :=
  ∃ old new change, before.convert exposure ccy baseCurrency = some old ∧
    later.convert exposure ccy baseCurrency = some new ∧
    later.convert (new - old) baseCurrency ccy = some change ∧ |mtm + change| ≤ 1 / 200

/-! ## Recommendations -/

section Recommended

variable {service : FXHedgingService} {exposures : List (String × Decimal)} {hedgeRatio : Decimal}
  {tenorDays : Int} {recs : List HedgeRecommendation} {r : HedgeRecommendation}

/-- What a recommendation says, from the exposure, the spot and both interest rates. -/
structure RecommendedFor (service : FXHedgingService) (hedgeRatio : Decimal) (tenorDays : Int)
    (exposure spot : Decimal) (r : HedgeRecommendation) : Prop where
  base : r.baseCurrency = service.baseCurrency
  tenor : r.tenorDays = tenorDays
  exposed : exposure ≠ 0
  positive : 0 < spot
  quoted : service.getSpot service.baseCurrency r.quoteCurrency = some spot
  notional : r.notional = quantize 2 .halfEven (|exposure| * hedgeRatio)
  direction : r.direction = if 0 < exposure then .sell else .buy
  nonzero : 1 + service.getRateForCurrency r.quoteCurrency * yearFraction tenorDays ≠ 0
  rate : r.estimatedForward = quantize 6 .halfEven
    (spot * (1 + service.getDomesticRate * yearFraction tenorDays) /
      (1 + service.getRateForCurrency r.quoteCurrency * yearFraction tenorDays))

theorem recommendedFor
    (recommended : service.getHedgeRecommendations exposures hedgeRatio tenorDays = .ok recs)
    (member : r ∈ recs) :
    ∃ exposure spot, (r.quoteCurrency, exposure) ∈ exposures ∧
      RecommendedFor service hedgeRatio tenorDays exposure spot r := by
  obtain ⟨⟨ccy, exposure⟩, inside, own⟩ := mem_recommendHedges recommended member
  obtain ⟨exposed, spot, quoted, positive, fwd, calculated, rfl⟩ := recommendHedge_ok own
  obtain ⟨exact, priced, rfl⟩ := calculateForwardRate_ok.mp calculated
  have nonzero : 1 + service.getRateForCurrency ccy * yearFraction tenorDays ≠ 0 := by
    intro zero
    obtain ⟨raised, failed⟩ := parity_fails spot service.getDomesticRate zero
    exact nomatch failed.symm.trans priced
  refine ⟨exposure, spot, inside, rfl, rfl, exposed, positive, quoted, rfl, rfl, nonzero, ?_⟩
  have value : parity spot service.getDomesticRate (service.getRateForCurrency ccy) tenorDays =
      .ok _ := divide_ok nonzero _
  rw [← Except.ok.inj (value.symm.trans priced)]
  rfl

theorem getRateForCurrency_zero (zero : ∀ row ∈ service.rates, row.rate = 0) (currency : String) :
    service.getRateForCurrency currency = 0 := by
  unfold FXHedgingService.getRateForCurrency
  cases found : service.getByCurrency currency with
  | none => rfl
  | some row =>
    have member := (mem_latestRows.mp (mem_of_latestRow found)).1
    exact zero row (List.mem_filter.mp member).1

end Recommended

theorem abs_sign (direction : FXForwardDirection) : |direction.sign| = 1 := by
  cases direction with
  | buy => exact abs_one
  | sell => exact (abs_neg _).trans abs_one

/-! ## On the same day -/

section SameDay

variable {service : FXHedgingService} {exposures : List (String × Decimal)} {hedgeRatio : Decimal}
  {tenorDays : Int} {recs : List HedgeRecommendation} {r : HedgeRecommendation}
  {create : FXForwardCreate} {table : List FXForwardRecord} {id : Nat} {today : Int}
  {now : Datetime} {spot : Decimal}

/-- A new forward is marked at zero where its rate is as good as the spot, both to the digits of
a rate, and no forward of the portfolio divides by zero. -/
theorem marksAt_zero_iff
    (recommended : service.getHedgeRecommendations exposures hedgeRatio tenorDays = .ok recs)
    (member : r ∈ recs) (opened : create.AtRate r today)
    (quoted : service.getSpot r.baseCurrency r.quoteCurrency = some spot)
    (fresh : ∀ fwd ∈ table, fwd.id ≠ id) :
    service.MarksAt today now create.portfolioId (openForward create id table) id 0 ↔
      (∀ fwd ∈ getOpenByPortfolio (openForward create id table) create.portfolioId,
        service.Priced today fwd) ∧
      |numeric 4 create.notional| * |quantize 6 .halfEven spot - quantize 6 .halfEven
        (spot * (1 + service.getDomesticRate * yearFraction tenorDays) /
          (1 + service.getRateForCurrency r.quoteCurrency * yearFraction tenorDays))| ≤ 1 / 200 := by
  obtain ⟨exposure, price, -, told⟩ := recommendedFor recommended member
  have same : price = spot := by
    rw [told.base, told.quoted] at quoted
    exact Option.some.inj quoted
  subst same
  have grid : OnGrid 8 create.contractRate := by
    rw [opened.rate, told.rate]
    exact (onGrid_quantize 6 .halfEven _).mono (by decide)
  have spotOf : service.getSpot create.baseCurrency create.quoteCurrency = some price := by
    rw [opened.base, opened.quote]
    exact quoted
  rw [FXHedgingService.marksAt_opened_iff (opened.base.trans told.base) spotOf grid fresh,
    quantize_halfEven_eq_zero, abs_mul, abs_mul, abs_sign, one_mul, opened.rate, told.rate]
  norm_num

end SameDay

/-- A dollar costs 0.9 euros; it earns five percent, and a euro three. -/
def dollarEuro : FXHedgingService where
  fx := some { rates := [("USD/EUR", 9 / 10)] }
  rates := [{ currency := "USD", rate := 5 / 100, updatedAt := 0 },
    { currency := "EUR", rate := 3 / 100, updatedAt := 0 }]

/-- What is recommended for a million euros and 90 days. -/
def sellDollars : HedgeRecommendation where
  currencyPair := "USD/EUR"
  baseCurrency := "USD"
  quoteCurrency := "EUR"
  notional := 1000000
  direction := .sell
  hedgeRatio := 1
  tenorDays := 90
  estimatedForward := 904467 / 1000000
  estimatedCostBps := 4963 / 100

/-- The table with the forward that is recommended. -/
def soldDollars : List FXForwardRecord := openForward (sellDollars.create "p1" (9 / 10) 0) 1 []

/-- It is worth 4467 euros at once. -/
theorem recommended_marksAt_gain :
    dollarEuro.getHedgeRecommendations [("EUR", 1000000)] 1 90 = .ok [sellDollars] ∧
      dollarEuro.MarksAt 0 0 "p1" soldDollars 1 4467 ∧
      ¬ dollarEuro.MarksAt 0 0 "p1" soldDollars 1 0 := by
  have marked : (dollarEuro.markToMarketAll 0 0 "p1" soldDollars).1 = .ok
      [{ (sellDollars.create "p1" (9 / 10) 0).record 1 with
        mtmValue := some 4467, mtmTimestamp := some 0 }] := by decide +kernel
  refine ⟨by decide +kernel, ?_, ?_⟩
  · exact ⟨_, marked, _, List.mem_cons_self, rfl, rfl⟩
  · rintro ⟨results, same, fwd, member, -, zero⟩
    cases marked.symm.trans same
    rw [List.mem_singleton.mp member] at zero
    revert zero
    decide +kernel

/-- Without interest rates it is worth nothing. -/
def flat : FXHedgingService := { dollarEuro with rates := [] }

theorem flat_rates : ∀ row ∈ flat.rates, row.rate = 0 := List.forall_mem_nil _

def sellFlat (notional : Decimal) : HedgeRecommendation :=
  { sellDollars with notional, estimatedForward := 9 / 10, estimatedCostBps := 0 }

theorem recommended_marksAt_zero :
    flat.MarksAt 0 0 "p1" (openForward ((sellFlat 1000000).create "p1" (9 / 10) 0) 1 []) 1 0 := by
  have recommended : flat.getHedgeRecommendations [("EUR", 1000000)] 1 90 =
      .ok [sellFlat 1000000] := by decide +kernel
  have quoted : flat.getSpot "USD" "EUR" = some (9 / 10) := by decide +kernel
  refine (marksAt_zero_iff recommended List.mem_cons_self
    (follows_create _ "p1" (9 / 10) 0).toAtRate quoted (List.forall_mem_nil _)).mpr
    ⟨fun fwd _ => .inr ?_, by decide +kernel⟩
  rw [getRateForCurrency_zero flat_rates, zero_mul, add_zero]
  exact one_ne_zero

/-! ## On a later day -/

/-- Opposite currencies of one pair: the change of the exposure's value, in its own currency. -/
theorem offsets_iff {before later : FXConverter} {baseCurrency ccy : String}
    {spot laterSpot : Decimal} (quoted : Quoted before baseCurrency ccy spot)
    (moved : Quoted later baseCurrency ccy laterSpot) (exposure mtm : Decimal) :
    Offsets before later baseCurrency ccy exposure mtm ↔
      |mtm + exposure * (spot - laterSpot) / spot| ≤ 1 / 200 := by
  have change : (exposure * (1 / laterSpot) - exposure * (1 / spot)) * laterSpot =
      exposure * (spot - laterSpot) / spot := by
    have := quoted.positive.ne'
    have := moved.positive.ne'
    field_simp
  unfold Offsets FXConverter.convert
  rw [quoted.inverse, moved.inverse, moved.direct, ← change]
  constructor
  · rintro ⟨old, new, moves, first, second, third, near⟩
    cases first
    cases second
    cases third
    exact near
  · exact fun near => ⟨_, _, _, rfl, rfl, rfl, near⟩

/-- What gains with the exposure does not offset it, unless both gain nothing. -/
theorem within_cent_iff {mtm change : Decimal} (grid : OnGrid 2 mtm) (together : 0 ≤ mtm * change) :
    |mtm + change| ≤ 1 / 200 ↔ mtm = 0 ∧ |change| ≤ 1 / 200 := by
  constructor
  · intro near
    rw [(abs_add_eq_add_abs_iff mtm change).mpr (mul_nonneg_iff.mp together)] at near
    have other := abs_nonneg change
    have own := abs_nonneg mtm
    exact ⟨grid.eq_zero (by norm_num; linarith), by linarith⟩
  · rintro ⟨rfl, near⟩
    rwa [zero_add]

section Later

variable {service later : FXHedgingService} {before after : FXConverter} {tenorDays : Int}
  {exposures : List (String × Decimal)} {recs : List HedgeRecommendation} {r : HedgeRecommendation}
  {create : FXForwardCreate} {table : List FXForwardRecord} {id : Nat} {today day : Int}
  {now : Datetime} {exposure spot laterSpot : Decimal}

/-- The forward gains when the exposure does: for an exposure to the other currency it sells the
base currency, and both gain as that falls. -/
theorem gains_together {amount : Decimal} (nonneg : 0 ≤ amount) (positive : 0 < spot) :
    0 ≤ quantize 2 .halfEven ((if 0 < exposure then FXForwardDirection.sell else .buy).sign *
        amount * (quantize 6 .halfEven laterSpot - quantize 6 .halfEven spot)) *
      (exposure * (spot - laterSpot) / spot) := by
  -- the sign of the exposure and that of the move decide both factors
  rcases le_total spot laterSpot with up | down
  · have rise := mul_nonneg nonneg (sub_nonneg.mpr (quantize_mono 6 .halfEven up))
    by_cases long : 0 < exposure
    · rw [if_pos long]
      refine mul_nonneg_of_nonpos_of_nonpos (quantize_nonpos ?_ 2 .halfEven) ?_
      · simp only [FXForwardDirection.sign]
        linarith
      · exact div_nonpos_of_nonpos_of_nonneg
          (mul_nonpos_of_nonneg_of_nonpos long.le (sub_nonpos.mpr up)) positive.le
    · rw [if_neg long]
      refine mul_nonneg (quantize_nonneg ?_ 2 .halfEven) ?_
      · simp only [FXForwardDirection.sign]
        linarith
      · exact div_nonneg
          (mul_nonneg_of_nonpos_of_nonpos (not_lt.mp long) (sub_nonpos.mpr up)) positive.le
  · have fall := mul_nonneg nonneg (sub_nonneg.mpr (quantize_mono 6 .halfEven down))
    by_cases long : 0 < exposure
    · rw [if_pos long]
      refine mul_nonneg (quantize_nonneg ?_ 2 .halfEven) ?_
      · simp only [FXForwardDirection.sign]
        linarith
      · exact div_nonneg (mul_nonneg long.le (sub_nonneg.mpr down)) positive.le
    · rw [if_neg long]
      refine mul_nonneg_of_nonpos_of_nonpos (quantize_nonpos ?_ 2 .halfEven) ?_
      · simp only [FXForwardDirection.sign]
        linarith
      · exact div_nonpos_of_nonpos_of_nonneg
          (mul_nonpos_of_nonpos_of_nonneg (not_lt.mp long) (sub_nonneg.mpr down)) positive.le

/-- A recommended forward offsets the exposure only where the spot moves too little for either to
be worth half a cent. -/
theorem offsets_recommended_iff (zero : ∀ row ∈ service.rates, row.rate = 0)
    (zeroLater : ∀ row ∈ later.rates, row.rate = 0)
    (sameBase : later.baseCurrency = service.baseCurrency)
    (fx : service.fx = some before) (fxLater : later.fx = some after)
    (quoted : Quoted before service.baseCurrency r.quoteCurrency spot)
    (moved : Quoted after service.baseCurrency r.quoteCurrency laterSpot)
    (distinct : (exposures.map (·.1)).Nodup) (exposed : (r.quoteCurrency, exposure) ∈ exposures)
    (recommended : service.getHedgeRecommendations exposures 1 tenorDays = .ok recs)
    (member : r ∈ recs) (opened : create.Follows r today) (fresh : ∀ fwd ∈ table, fwd.id ≠ id) :
    (∃ mtm, later.MarksAt day now create.portfolioId (openForward create id table) id mtm ∧
        Offsets before after service.baseCurrency r.quoteCurrency exposure mtm) ↔
      |exposure| * |laterSpot - spot| / spot ≤ 1 / 200 ∧
        quantize 2 .halfEven |exposure| *
          |quantize 6 .halfEven laterSpot - quantize 6 .halfEven spot| ≤ 1 / 200 := by
  obtain ⟨own, price, listed, told⟩ := recommendedFor recommended member
  have sameExposure : own = exposure :=
    Option.some.inj (((mem_iff_lookup distinct).mp listed).symm.trans
      ((mem_iff_lookup distinct).mp exposed))
  subst sameExposure
  have quote : service.getSpot service.baseCurrency r.quoteCurrency = some spot := by
    rw [FXHedgingService.getSpot, fx]
    exact quoted.direct
  have samePrice : price = spot := Option.some.inj (told.quoted.symm.trans quote)
  subst samePrice
  have rate : create.contractRate = quantize 6 .halfEven price := by
    rw [opened.rate, told.rate, FXHedgingService.getDomesticRate, getRateForCurrency_zero zero,
      getRateForCurrency_zero zero, zero_mul, add_zero, mul_one, div_one]
  have home : create.baseCurrency = later.baseCurrency :=
    (opened.base.trans told.base).trans sameBase.symm
  have quoteLater : later.getSpot create.baseCurrency create.quoteCurrency = some laterSpot := by
    rw [opened.base, opened.quote, told.base, FXHedgingService.getSpot, fxLater]
    exact moved.direct
  have notional : numeric 4 create.notional = quantize 2 .halfEven |own| := by
    rw [opened.notional, told.notional, mul_one]
    exact ((onGrid_quantize 2 .halfEven _).mono (by decide)).numeric_eq
  have priced : ∀ fwd ∈ getOpenByPortfolio (openForward create id table) create.portfolioId,
      later.Priced day fwd := by
    intro fwd _
    refine .inr ?_
    rw [getRateForCurrency_zero zeroLater, zero_mul, add_zero]
    exact one_ne_zero
  have grid : OnGrid 8 create.contractRate := by
    rw [rate]
    exact (onGrid_quantize 6 .halfEven price).mono (by decide)
  have nonneg : 0 ≤ quantize 2 .halfEven |own| := quantize_nonneg (abs_nonneg own) 2 .halfEven
  have change : |own * (price - laterSpot) / price| = |own| * |laterSpot - price| / price := by
    rw [abs_div, abs_mul, abs_sub_comm, abs_of_pos quoted.positive]
  have marks : ∀ mtm,
      later.MarksAt day now create.portfolioId (openForward create id table) id mtm ↔
        quantize 2 .halfEven (create.direction.sign * quantize 2 .halfEven |own| *
          (quantize 6 .halfEven laterSpot - quantize 6 .halfEven price)) = mtm := by
    intro mtm
    rw [FXHedgingService.marksAt_opened_iff home quoteLater grid fresh, notional, rate]
    exact and_iff_right priced
  -- there is one value, and it has the sign of the change that it should offset
  simp only [marks, exists_eq_left']
  rw [offsets_iff quoted moved, opened.direction, told.direction,
    within_cent_iff (onGrid_quantize 2 .halfEven _) (gains_together nonneg quoted.positive),
    quantize_halfEven_eq_zero, abs_mul, abs_mul, abs_sign, one_mul, abs_of_nonneg nonneg, change]
  norm_num [and_comm]

end Later

/-- A dollar costs 0.8 euros later. -/
def fallenDollar : FXHedgingService := { flat with fx := some { rates := [("USD/EUR", 8 / 10)] } }

/-- Both a million euros and the forward that is recommended for it gain: the sum is 211111 and
not nothing. -/
theorem recommended_doubles :
    flat.getHedgeRecommendations [("EUR", 1000000)] 1 90 = .ok [sellFlat 1000000] ∧
      fallenDollar.MarksAt 0 0 "p1" (openForward ((sellFlat 1000000).create "p1" (9 / 10) 0) 1 []) 1
        100000 ∧
      ¬ ∃ mtm, fallenDollar.MarksAt 0 0 "p1"
          (openForward ((sellFlat 1000000).create "p1" (9 / 10) 0) 1 []) 1 mtm ∧
        Offsets { rates := [("USD/EUR", 9 / 10)] } { rates := [("USD/EUR", 8 / 10)] } "USD" "EUR"
          1000000 mtm := by
  have marked : (fallenDollar.markToMarketAll 0 0 "p1"
      (openForward ((sellFlat 1000000).create "p1" (9 / 10) 0) 1 [])).1 = .ok
        [{ ((sellFlat 1000000).create "p1" (9 / 10) 0).record 1 with
          mtmValue := some 100000, mtmTimestamp := some 0 }] := by decide +kernel
  refine ⟨by decide +kernel, ⟨_, marked, _, List.mem_cons_self, rfl, rfl⟩, ?_⟩
  rintro ⟨mtm, ⟨results, same, fwd, member, -, value⟩, old, new, change, first, second, third, near⟩
  cases marked.symm.trans same
  rw [List.mem_singleton.mp member] at value
  cases value
  have atFirst : FXConverter.convert { rates := [("USD/EUR", 9 / 10)] } 1000000 "EUR" "USD" =
      some (10000000 / 9) := by decide +kernel
  have later : FXConverter.convert { rates := [("USD/EUR", 8 / 10)] } 1000000 "EUR" "USD" =
      some 1250000 := by decide +kernel
  cases atFirst.symm.trans first
  cases later.symm.trans second
  have gained : FXConverter.convert { rates := [("USD/EUR", 8 / 10)] } (1250000 - 10000000 / 9)
      "USD" "EUR" = some (1000000 / 9) := by decide +kernel
  cases gained.symm.trans third
  norm_num at near

theorem cent_offsets :
    ∃ mtm, fallenDollar.MarksAt 0 0 "p1"
        (openForward ((sellFlat (1 / 100)).create "p1" (9 / 10) 0) 1 []) 1 mtm ∧
      Offsets { rates := [("USD/EUR", 9 / 10)] } { rates := [("USD/EUR", 8 / 10)] } "USD" "EUR"
        (1 / 100) mtm := by
  have recommended : flat.getHedgeRecommendations [("EUR", 1 / 100)] 1 90 =
      .ok [sellFlat (1 / 100)] := by decide +kernel
  have quoted : Quoted { rates := [("USD/EUR", 9 / 10)] } flat.baseCurrency
      (sellFlat (1 / 100)).quoteCurrency (9 / 10) :=
    ⟨by norm_num, by decide +kernel, by decide +kernel⟩
  have moved : Quoted { rates := [("USD/EUR", 8 / 10)] } flat.baseCurrency
      (sellFlat (1 / 100)).quoteCurrency (8 / 10) :=
    ⟨by norm_num, by decide +kernel, by decide +kernel⟩
  have fx : flat.fx = some { rates := [("USD/EUR", 9 / 10)] } := rfl
  have distinct : (([("EUR", 1 / 100)] : List (String × Decimal)).map (·.1)).Nodup := by decide
  have zeroLater : ∀ row ∈ fallenDollar.rates, row.rate = 0 := flat_rates
  have fxLater : fallenDollar.fx = some { rates := [("USD/EUR", 8 / 10)] } := rfl
  exact (offsets_recommended_iff flat_rates zeroLater rfl fx fxLater quoted moved
    distinct List.mem_cons_self recommended
    List.mem_cons_self (follows_create _ "p1" (9 / 10) 0) (List.forall_mem_nil _)).mpr
    (by decide +kernel)

end MiniHedge.FxHedging
