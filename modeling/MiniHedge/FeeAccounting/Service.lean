import MiniHedge.Python.Dates
import MiniHedge.Python.Decimal
import MiniHedge.Library.Latest
import MiniHedge.Library.Mapping

/-! The fee calculations, and the service that accrues the fees. -/

set_option autoImplicit false

namespace MiniHedge.FeeAccounting

open MiniHedge.Python MiniHedge.Library

def calculateDailyManagementFee (nav : Decimal) (annualBps : Int) : Decimal :=
  quantize 2 .halfUp (nav * annualBps / 10000 / 365)

/-- The NAV that has to be exceeded, after so many days. -/
def hurdleAdjustedHwm (hwmNav hurdleAnnual : Decimal) (days : Int) : Decimal :=
  hwmNav * (1 + hurdleAnnual / 100 * days / 365)

def calculatePerformanceFee (currentNav hwmNav pct hurdleAnnual : Decimal) (days : Int) : Decimal :=
  if currentNav ≤ hwmNav then 0
  else
    let gain := currentNav - hurdleAdjustedHwm hwmNav hurdleAnnual days
    if gain ≤ 0 then 0 else quantize 2 .halfUp (gain * pct / 100)

/-- On the last day there is, the day after it cannot be built. -/
def shouldCrystallize (frequency : String) (currentDate : CivilDate) : Except Exc Bool :=
  if frequency = "quarterly" then
    if currentDate.month ∉ [3, 6, 9, 12] then .ok false
    else if currentDate.year = 9999 ∧ currentDate.month = 12 ∧ currentDate.day = 31 then
      .error (.valueError "year 10000 is out of range")
    else .ok (currentDate.day = daysInMonth currentDate.year currentDate.month)
  else if frequency = "annual" then .ok (currentDate.month = 12 ∧ currentDate.day = 31)
  else .ok false

/-! ## `FeeAccountingService`: the daily accrual and the crystallization

Each row is committed when it is inserted. The id of a row is its number in the
table. A query that takes the latest row may find several of one date, and `Ties`
says which of them it answers.
-/

/-! ## Tables -/

inductive FeeType where
  | management
  | performance
  | admin
  deriving DecidableEq, Repr

inductive AccrualStatus where
  | accrued
  | crystallized
  | paid
  deriving DecidableEq, Repr

structure FeeScheduleRecord where
  fundSlug : String
  shareClass : String := "default"
  managementFeeBps : Int
  performanceFeePct : Decimal
  hurdleRatePct : Decimal
  crystallizationFrequency : String
  deriving DecidableEq, Repr

structure FeeAccrualRecord where
  id : Nat
  portfolioId : String
  shareClass : String
  feeType : FeeType
  accrualDate : CivilDate
  navBasis : Decimal
  accruedAmount : Decimal
  cumulativeAmount : Decimal
  status : AccrualStatus
  deriving DecidableEq, Repr

def FeeAccrualRecord.columns (a : FeeAccrualRecord) : FeeAccrualRecord :=
  { a with
    navBasis := numeric 2 a.navBasis
    accruedAmount := numeric 2 a.accruedAmount
    cumulativeAmount := numeric 2 a.cumulativeAmount }

structure HighWaterMarkRecord where
  portfolioId : String
  shareClass : String
  hwmDate : CivilDate
  hwmNav : Decimal
  peakNav : Decimal
  deriving DecidableEq, Repr

def HighWaterMarkRecord.columns (r : HighWaterMarkRecord) : HighWaterMarkRecord :=
  { r with hwmNav := numeric 2 r.hwmNav, peakNav := numeric 2 r.peakNav }

structure FeeTables where
  schedules : List FeeScheduleRecord := []
  accruals : List FeeAccrualRecord := []
  marks : List HighWaterMarkRecord := []
  deriving DecidableEq, Repr

/-- What a call is for. -/
structure FeeCall where
  portfolioId : String
  fundSlug : String
  businessDate : CivilDate
  shareClass : String := "default"
  deriving DecidableEq, Repr

structure Ties where
  management : Nat := 0
  performance : Nat := 0
  accrual : Nat := 0
  mark : Nat := 0
  deriving DecidableEq, Repr

namespace FeeTables

variable (s : FeeTables)

def getByFundSlug (fundSlug shareClass : String) : Option FeeScheduleRecord :=
  s.schedules.find? fun r => r.fundSlug = fundSlug ∧ r.shareClass = shareClass

/-- The schedule of the class, or else that of the default class. -/
def scheduleOf (fundSlug shareClass : String) : Option FeeScheduleRecord :=
  (s.getByFundSlug fundSlug shareClass).or (s.getByFundSlug fundSlug "default")

def scheduleFor (call : FeeCall) : Option FeeScheduleRecord := s.scheduleOf call.fundSlug call.shareClass

/-- `get_latest_by_type`. -/
def latestByType (call : FeeCall) (feeType : FeeType) (tie : Nat) : Option FeeAccrualRecord :=
  latestRow (·.accrualDate.toordinal) (s.accruals.filter fun a =>
    a.portfolioId = call.portfolioId ∧ a.feeType = feeType ∧ a.shareClass = call.shareClass) tie

def insertAccrual (a : FeeAccrualRecord) : FeeTables :=
  { s with accruals := s.accruals ++ [a.columns] }

def updateStatus (id : Nat) (status : AccrualStatus) : FeeTables :=
  { s with accruals := s.accruals.map fun a => if a.id = id then { a with status } else a }

def marksOf (portfolioId shareClass : String) : List HighWaterMarkRecord :=
  s.marks.filter fun r => r.portfolioId = portfolioId ∧ r.shareClass = shareClass

/-- `get_latest` of the high-water marks. -/
def getLatest (portfolioId shareClass : String) (tie : Nat) : Option HighWaterMarkRecord :=
  latestRow (·.hwmDate.toordinal) (s.marksOf portfolioId shareClass) tie

/-- `get_fee_summary`: what has accrued of each fee. -/
def getFeeSummary (portfolioId : String) : List (FeeType × Decimal) :=
  totals (·.feeType) (·.accruedAmount) (s.accruals.filter (·.portfolioId = portfolioId))

/-- `upsert`, which inserts. -/
def insertMark (r : HighWaterMarkRecord) : FeeTables := { s with marks := s.marks ++ [r.columns] }

/-! ## Accrual -/

/-- The row that a fee is accrued with, after the latest of its type. -/
def accrual (call : FeeCall) (feeType : FeeType) (nav fee : Decimal) (tie : Nat) :
    FeeAccrualRecord where
  id := s.accruals.length
  portfolioId := call.portfolioId
  shareClass := call.shareClass
  feeType
  accrualDate := call.businessDate
  navBasis := nav
  accruedAmount := fee
  cumulativeAmount :=
    match s.latestByType call feeType tie with
    | some latest => latest.cumulativeAmount + fee
    | none => fee
  status := .accrued

def daysSince (call : FeeCall) (mark : HighWaterMarkRecord) : Int :=
  call.businessDate.toordinal - mark.hwmDate.toordinal

/-- Over the mark in force; without one, the NAV counts as the mark. -/
def performanceFee (schedule : FeeScheduleRecord) (call : FeeCall) (nav : Decimal) :
    Option HighWaterMarkRecord → Decimal
  | some mark => calculatePerformanceFee nav mark.hwmNav schedule.performanceFeePct
      schedule.hurdleRatePct (daysSince call mark)
  | none => calculatePerformanceFee nav nav schedule.performanceFeePct schedule.hurdleRatePct 0

/-- The rows that are inserted are returned. -/
def accrueDailyFees (call : FeeCall) (nav : Decimal) (ties : Ties) :
    FeeTables × List FeeAccrualRecord :=
  match s.scheduleFor call with
  | none => (s, [])
  | some schedule =>
    let mgmt := s.accrual call .management nav
      (calculateDailyManagementFee nav schedule.managementFeeBps) ties.management
    let s := s.insertAccrual mgmt
    let perfFee := performanceFee schedule call nav
      (s.getLatest call.portfolioId call.shareClass ties.mark)
    if 0 < perfFee then
      let perf := s.accrual call .performance nav perfFee ties.performance
      (s.insertAccrual perf, [mgmt.columns, perf.columns])
    else (s, [mgmt.columns])

theorem accrueDailyFees_schedules (call : FeeCall) (nav : Decimal) (ties : Ties) :
    (s.accrueDailyFees call nav ties).1.schedules = s.schedules := by
  unfold accrueDailyFees
  split
  · rfl
  · dsimp only
    split <;> rfl

/-! ## Crystallization -/

/-- The rows of the portfolio in the class. -/
def classAccruals (call : FeeCall) : List FeeAccrualRecord :=
  (s.accruals.filter fun a => a.portfolioId = call.portfolioId).filter fun a =>
    a.shareClass = call.shareClass

def crystallizeAccruals (call : FeeCall) : FeeTables :=
  ((s.classAccruals call).filter (·.status = .accrued)).foldl
    (fun s a => s.updateStatus a.id .crystallized) s

/-- The mark that is stored for the latest accrual. -/
def newMark (call : FeeCall) (latest : FeeAccrualRecord) (current : Option HighWaterMarkRecord) :
    HighWaterMarkRecord where
  portfolioId := call.portfolioId
  shareClass := call.shareClass
  hwmDate := call.businessDate
  hwmNav := latest.navBasis
  peakNav :=
    match current with
    | some mark => max latest.navBasis mark.peakNav
    | none => latest.navBasis

/-- The accrual whose NAV is taken for the mark, when the fees are crystallized. -/
def basis (call : FeeCall) (ties : Ties) : Except Exc (Option FeeAccrualRecord) :=
  match s.scheduleFor call with
  | none => .ok none
  | some schedule =>
    match shouldCrystallize schedule.crystallizationFrequency call.businessDate with
    | .error e => .error e
    | .ok false => .ok none
    | .ok true => .ok (latestRow (·.accrualDate.toordinal) (s.classAccruals call) ties.accrual)

def crystallizeFees (call : FeeCall) (ties : Ties) : Except Exc FeeTables :=
  match s.scheduleFor call with
  | none => .ok s
  | some schedule =>
    match shouldCrystallize schedule.crystallizationFrequency call.businessDate with
    | .error e => .error e
    | .ok false => .ok s
    | .ok true =>
      let accruals := s.classAccruals call
      let s := s.crystallizeAccruals call
      match latestRow (·.accrualDate.toordinal) accruals ties.accrual with
      | none => .ok s
      | some latest => .ok (s.insertMark
          (newMark call latest (s.getLatest call.portfolioId call.shareClass ties.mark)))

section Spec

variable {s} {call : FeeCall} {ties : Ties}

@[simp] theorem crystallizeAccruals_marks : (s.crystallizeAccruals call).marks = s.marks := by
  unfold crystallizeAccruals
  induction (s.classAccruals call).filter (·.status = .accrued) generalizing s with
  | nil => rfl
  | cons a rest ih => exact (ih (s := s.updateStatus a.id .crystallized)).trans rfl

/-- Only where there is an accrual to take the NAV from, something is written. -/
theorem crystallizeFees_eq : s.crystallizeFees call ties = (s.basis call ties).map fun
    | none => s
    | some latest => (s.crystallizeAccruals call).insertMark
        (newMark call latest (s.getLatest call.portfolioId call.shareClass ties.mark)) := by
  unfold crystallizeFees basis
  split
  · rfl
  · split
    · rfl
    · rfl
    · dsimp only
      split
      · rename_i nothing
        have empty := latestRow_eq_none_iff.mp nothing
        rw [nothing]
        simp [crystallizeAccruals, empty, Except.map]
      · rename_i latest taken
        simp [taken, Except.map, getLatest, marksOf]

end Spec

end FeeTables

end MiniHedge.FeeAccounting
