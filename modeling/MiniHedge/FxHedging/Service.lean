import MiniHedge.FxHedging.Calculator
import MiniHedge.Library.Latest
import MiniHedge.MarketData.Fx

/-! `FXHedgingService`: opening and valuing forwards, and hedge recommendations.

Dates are counted in days. What is published and logged is left out.
-/

set_option autoImplicit false

namespace MiniHedge.FxHedging

open MiniHedge.Python MiniHedge.MarketData
open MiniHedge.Library (latestRow bind_eq_ok)

/-! ## Tables -/

inductive FXForwardStatus where
  | opened
  | closed
  | rolled
  | expired
  | settled
  deriving DecidableEq, Repr

structure FXForwardRecord where
  id : Nat
  portfolioId : String
  baseCurrency : String
  quoteCurrency : String
  direction : FXForwardDirection
  notional : Decimal
  contractRate : Decimal
  spotAtInception : Decimal
  tradeDate : Int
  maturityDate : Int
  status : FXForwardStatus
  counterparty : Option String
  rollFromId : Option Nat := none
  closeRate : Option Decimal := none
  closeSpot : Option Decimal := none
  closedAt : Option Datetime := none
  realizedPnl : Option Decimal := none
  mtmValue : Option Decimal := none
  mtmTimestamp : Option Datetime := none
  deriving DecidableEq, Repr

def FXForwardRecord.marked (fwd : FXForwardRecord) (mtm : ForwardMTM) (now : Datetime) :
    FXForwardRecord :=
  { fwd with mtmValue := some mtm.mtmValue, mtmTimestamp := some now }

/-- A new row, as its columns keep it. -/
def FXForwardRecord.columns (fwd : FXForwardRecord) : FXForwardRecord :=
  { fwd with
    notional := numeric 4 fwd.notional
    contractRate := numeric 8 fwd.contractRate
    spotAtInception := numeric 8 fwd.spotAtInception }

structure FXInterestRateRecord where
  currency : String
  rate : Decimal
  tenorDays : Int := 30
  source : String := "manual"
  updatedAt : Datetime
  deriving DecidableEq, Repr

section Repository

variable (table : List FXForwardRecord)

def insert (fwd : FXForwardRecord) : List FXForwardRecord := table ++ [fwd.columns]

def getOpenByPortfolio (portfolioId : String) : List FXForwardRecord :=
  (table.filter fun fwd => fwd.portfolioId = portfolioId ∧ fwd.status = .opened).mergeSort
    fun a b => a.maturityDate ≤ b.maturityDate

def updateMtm (id : Nat) (mtmValue : Decimal) (mtmTimestamp : Datetime) : List FXForwardRecord :=
  table.map fun fwd =>
    if fwd.id = id then
      { fwd with mtmValue := some (numeric 4 mtmValue), mtmTimestamp := some mtmTimestamp }
    else fwd

variable {table}

theorem mem_getOpenByPortfolio {portfolioId : String} {fwd : FXForwardRecord} :
    fwd ∈ getOpenByPortfolio table portfolioId ↔
      fwd ∈ table ∧ fwd.portfolioId = portfolioId ∧ fwd.status = .opened := by
  rw [getOpenByPortfolio, List.mem_mergeSort, List.mem_filter, decide_eq_true_iff]

end Repository

structure FXForwardCreate where
  portfolioId : String
  baseCurrency : String
  quoteCurrency : String
  direction : FXForwardDirection
  notional : Decimal
  contractRate : Decimal
  spotAtInception : Decimal
  tradeDate : Int
  maturityDate : Int
  counterparty : Option String := none
  deriving DecidableEq, Repr

def FXForwardCreate.record (create : FXForwardCreate) (id : Nat) : FXForwardRecord where
  id := id
  portfolioId := create.portfolioId
  baseCurrency := create.baseCurrency
  quoteCurrency := create.quoteCurrency
  direction := create.direction
  notional := create.notional
  contractRate := create.contractRate
  spotAtInception := create.spotAtInception
  tradeDate := create.tradeDate
  maturityDate := create.maturityDate
  status := .opened
  counterparty := create.counterparty

/-- `open_forward`, with the id of the new row. -/
def openForward (create : FXForwardCreate) (id : Nat) (table : List FXForwardRecord) :
    List FXForwardRecord := insert table (create.record id)

/-! ## The service -/

/-- The service with the market it sees: rates of the converter, and stored interest rates,
among which `tie` chooses when some are of the same time. -/
structure FXHedgingService where
  baseCurrency : String := "USD"
  fx : Option FXConverter
  rates : List FXInterestRateRecord
  tie : Nat := 0
  deriving DecidableEq, Repr

namespace FXHedgingService

variable (service : FXHedgingService)

def getSpot (base quote : String) : Option Decimal :=
  service.fx.bind fun fx => fx.getRate base quote

def getByCurrency (currency : String) : Option FXInterestRateRecord :=
  latestRow (·.updatedAt) (service.rates.filter (·.currency = currency)) service.tie

def getRateForCurrency (currency : String) : Decimal :=
  ((service.getByCurrency currency).map (·.rate)).getD 0

def getDomesticRate : Decimal := service.getRateForCurrency service.baseCurrency

def getHedgeRecommendations (currencyExposures : List (String × Decimal))
    (hedgeRatio : Decimal := 1) (tenorDays : Int := 30) : Except Exc (List HedgeRecommendation) :=
  recommendHedges service.baseCurrency (service.getSpot service.baseCurrency)
    service.getDomesticRate (fun ccy => some (service.getRateForCurrency ccy)) hedgeRatio tenorDays
    currencyExposures

section Mark

variable (today : Int) (now : Datetime)

/-- The value of a forward, where there is a spot. -/
def valueForward (fwd : FXForwardRecord) : Except Exc (Option ForwardMTM) :=
  match service.getSpot fwd.baseCurrency fwd.quoteCurrency with
  | none => .ok none
  -- the rate that is taken as foreign is that of the forward's base currency
  | some spot => some <$> markToMarketForward fwd.contractRate fwd.notional fwd.direction spot
      service.getDomesticRate (service.getRateForCurrency fwd.baseCurrency)
      (max (fwd.maturityDate - today) 0) fwd.quoteCurrency

/-- The loop over the forwards, and what it leaves in the table. -/
def markEach : List FXForwardRecord → List FXForwardRecord →
    Except Exc (List FXForwardRecord) × List FXForwardRecord
  | [], table => (.ok [], table)
  | fwd :: rest, table =>
    match service.valueForward today fwd with
    | .error raised => (.error raised, table)
    | .ok none =>
      let others := markEach rest table
      ((fwd :: ·) <$> others.1, others.2)
    | .ok (some mtm) =>
      let others := markEach rest (updateMtm table fwd.id mtm.mtmValue now)
      ((fwd.marked mtm now :: ·) <$> others.1, others.2)

def markToMarketAll (portfolioId : String) (table : List FXForwardRecord) :
    Except Exc (List FXForwardRecord) × List FXForwardRecord :=
  service.markEach today now (getOpenByPortfolio table portfolioId) table

variable {service today now}

theorem markEach_ok {fwds table results : List FXForwardRecord}
    (marked : (service.markEach today now fwds table).1 = .ok results) :
    List.Forall₂ (fun fwd result => ∃ value, service.valueForward today fwd = .ok value ∧
      result = value.elim fwd (fwd.marked · now)) fwds results := by
  induction fwds generalizing table results with
  | nil =>
    cases marked
    exact .nil
  | cons fwd rest ih =>
    unfold markEach at marked
    split at marked
    · cases marked
    · rename_i valued
      obtain ⟨others, later, same⟩ := bind_eq_ok.mp marked
      cases same
      exact .cons ⟨none, valued, rfl⟩ (ih later)
    · rename_i mtm valued
      obtain ⟨others, later, same⟩ := bind_eq_ok.mp marked
      cases same
      exact .cons ⟨some mtm, valued, rfl⟩ (ih later)

/-- All forwards are marked when none divides by zero. -/
theorem exists_markEach (fwds table : List FXForwardRecord)
    (valued : ∀ fwd ∈ fwds, ∃ value, service.valueForward today fwd = .ok value) :
    ∃ results, (service.markEach today now fwds table).1 = .ok results := by
  induction fwds generalizing table with
  | nil => exact ⟨[], rfl⟩
  | cons fwd rest ih =>
    obtain ⟨value, found⟩ := valued fwd List.mem_cons_self
    have later := fun table => ih table fun other inside =>
      valued other (List.mem_cons_of_mem fwd inside)
    unfold markEach
    rw [found]
    cases value with
    | none =>
      obtain ⟨results, others⟩ := later table
      exact ⟨fwd :: results, by simp only [others]; rfl⟩
    | some mtm =>
      obtain ⟨results, others⟩ := later (updateMtm table fwd.id mtm.mtmValue now)
      exact ⟨fwd.marked mtm now :: results, by simp only [others]; rfl⟩

end Mark

end FXHedgingService

end MiniHedge.FxHedging
