import MiniHedge.CapitalAccounts.Service
import MiniHedge.Eod.Orchestrator
import MiniHedge.FeeAccounting.Service
import MiniHedge.MarketData.Fx
import MiniHedge.Positions.Tables

/-! `NAVCalculator`, on the books of a fund.

A NAV is the market value of the positions and the cash, in one currency, less
the fees that have accrued. No NAV depends on the order of the rows, which is
that of the tables.
-/

set_option autoImplicit false

namespace MiniHedge.Eod

open MiniHedge.Python MiniHedge.Library
open MiniHedge.MarketData
open MiniHedge.Positions (CurrentPositionRecord)
open MiniHedge.CashManagement (Date CashBalance)

structure NAVSnapshotRecord where
  portfolioId : UUID
  businessDate : Date
  grossMarketValue : Decimal
  netMarketValue : Decimal
  cashBalance : Decimal
  accruedFees : Decimal
  nav : Decimal
  navPerShare : Decimal
  sharesOutstanding : Decimal
  currency : String
  deriving DecidableEq, Repr

def NAVSnapshotRecord.columns (r : NAVSnapshotRecord) : NAVSnapshotRecord :=
  { r with
    grossMarketValue := numeric 2 r.grossMarketValue
    netMarketValue := numeric 2 r.netMarketValue
    cashBalance := numeric 2 r.cashBalance
    accruedFees := numeric 2 r.accruedFees
    nav := numeric 2 r.nav
    navPerShare := numeric 8 r.navPerShare
    sharesOutstanding := numeric 8 r.sharesOutstanding }

structure PnLSnapshotRecord where
  portfolioId : UUID
  businessDate : Date
  totalRealizedPnl : Decimal
  totalUnrealizedPnl : Decimal
  totalPnl : Decimal
  positionCount : Nat
  deriving DecidableEq, Repr

def PnLSnapshotRecord.columns (r : PnLSnapshotRecord) : PnLSnapshotRecord :=
  { r with
    totalRealizedPnl := numeric 2 r.totalRealizedPnl
    totalUnrealizedPnl := numeric 2 r.totalUnrealizedPnl
    totalPnl := numeric 2 r.totalPnl }

/-- The tables that the snapshots of a fund are taken from, and those they are kept in. -/
structure FundBooks where
  positions : Positions.Database := {}
  cash : CashManagement.Tables := {}
  fees : FeeAccounting.FeeTables := {}
  accounts : List CapitalAccounts.CapitalAccountRecord := []
  navSnapshots : List ((UUID × Date) × NAVSnapshotRecord) := []
  pnlSnapshots : List ((UUID × Date) × PnLSnapshotRecord) := []
  deriving DecidableEq

namespace FundBooks

variable (books : FundBooks)

def getByPortfolio (portfolioId : UUID) : List CurrentPositionRecord :=
  books.positions.positions.filter (·.portfolioId = portfolioId)

/-- The balances with their currencies. -/
def getBalances (portfolioId : UUID) : List (String × CashBalance) :=
  (books.cash.balances.filter (·.1.portfolioId = portfolioId)).map fun (account, balance) =>
    (account.currency, balance)

/-- A conflict keeps the currency that the row has. -/
def upsertNav (r : NAVSnapshotRecord) : FundBooks :=
  let key := (r.portfolioId, r.businessDate)
  let currency := ((books.navSnapshots.lookup key).map (·.currency)).getD r.currency
  { books with navSnapshots := setItem key { r.columns with currency } books.navSnapshots }

def upsertPnl (r : PnLSnapshotRecord) : FundBooks :=
  { books with
    pnlSnapshots := setItem (r.portfolioId, r.businessDate) r.columns books.pnlSnapshots }

end FundBooks

def defaultShares : Decimal := 1000

/-- A service that is not wired is none. What is looked up for a portfolio can raise. -/
structure NAVCalculator where
  businessDate : Date
  currency : String := "USD"
  fx : Option FXConverter := none
  feeService : Option (UUID → Except Exc Unit) := none
  capitalService : Option (UUID → Except Exc Unit) := none

namespace NAVCalculator

variable (calculator : NAVCalculator) (books : FundBooks) (portfolioId : UUID)

/-- The market values of the positions, in the currency of the NAV. -/
def marketValues : List Decimal :=
  (books.getByPortfolio portfolioId).map fun p =>
    toBase calculator.fx p.marketValue p.currency calculator.currency

def grossMarketValue : Decimal :=
  ((calculator.marketValues books portfolioId).map fun mv => |mv|).sum

def netMarketValue : Decimal := (calculator.marketValues books portfolioId).sum

def cashBalance : Decimal :=
  ((books.getBalances portfolioId).map fun (currency, b) =>
    toBase calculator.fx b.totalBalance currency calculator.currency).sum

def accruedFees : Decimal :=
  match calculator.feeService with
  | none => 0
  | some lookup =>
    match lookup portfolioId with
    | .ok () => ((books.fees.getFeeSummary portfolioId.str).map (·.2)).sum
    | .error _ => 0

def nav : Decimal :=
  calculator.netMarketValue books portfolioId + calculator.cashBalance books portfolioId -
    calculator.accruedFees books portfolioId

def sharesOutstanding : Decimal :=
  match calculator.capitalService with
  | none => defaultShares
  | some lookup =>
    match lookup portfolioId with
    | .ok () =>
      let realShares := CapitalAccounts.totalShares books.accounts
      if 0 < realShares then realShares else defaultShares
    | .error _ => defaultShares

def record : NAVSnapshotRecord where
  portfolioId := portfolioId
  businessDate := calculator.businessDate
  grossMarketValue := calculator.grossMarketValue books portfolioId
  netMarketValue := calculator.netMarketValue books portfolioId
  cashBalance := calculator.cashBalance books portfolioId
  accruedFees := calculator.accruedFees books portfolioId
  nav := calculator.nav books portfolioId
  navPerShare :=
    if 0 < calculator.sharesOutstanding books portfolioId then
      calculator.nav books portfolioId / calculator.sharesOutstanding books portfolioId
    else 0
  sharesOutstanding := calculator.sharesOutstanding books portfolioId
  currency := calculator.currency

/-- What the caller gets of the row. -/
def snapshot : NAVSnapshot where
  nav := calculator.nav books portfolioId
  sharesOutstanding := calculator.sharesOutstanding books portfolioId

def calculateNav : Program FundBooks NAVSnapshot := do
  let books ← get
  set (books.upsertNav (calculator.record books portfolioId))
  return calculator.snapshot books portfolioId

/-- The shares of the fund can be read for the portfolio, and there are some. -/
def ReadsShares : Prop :=
  calculator.capitalService.map (· portfolioId) = some (.ok ()) ∧
    0 < CapitalAccounts.totalShares books.accounts

instance : Decidable (calculator.ReadsShares books portfolioId) :=
  inferInstanceAs (Decidable (_ ∧ _))

theorem sharesOutstanding_eq : calculator.sharesOutstanding books portfolioId =
    if calculator.ReadsShares books portfolioId then CapitalAccounts.totalShares books.accounts
    else defaultShares := by
  simp only [sharesOutstanding, ReadsShares]
  split
  · rename_i unwired
    simp [unwired]
  · rename_i lookup wired
    cases answered : lookup portfolioId with
    | error e => simp [wired, answered]
    | ok _ => simp [wired, answered]

theorem sharesOutstanding_pos : 0 < calculator.sharesOutstanding books portfolioId := by
  rw [sharesOutstanding_eq]
  split
  · rename_i reads
    exact reads.2
  · norm_num [defaultShares]

/-- A NAV that is kept changes none of the tables that NAVs are taken from. -/
@[simp] theorem snapshot_upsertNav (r : NAVSnapshotRecord) :
    calculator.snapshot (books.upsertNav r) portfolioId = calculator.snapshot books portfolioId :=
  rfl

end NAVCalculator

end MiniHedge.Eod
