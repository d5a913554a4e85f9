import MiniHedge.CashManagement.Service
import MiniHedge.Python.Dates

/-! The terms of a share class, and the dates and thresholds that follow from them. -/

set_option autoImplicit false

namespace MiniHedge.InvestorOperations

open MiniHedge.Python
open MiniHedge.CashManagement (Date weekday)

inductive RedemptionFrequency where
  | monthly
  | quarterly
  | annual
  deriving DecidableEq, Repr

def RedemptionFrequency.ofValue : String → Except Exc RedemptionFrequency
  | "monthly" => .ok .monthly
  | "quarterly" => .ok .quarterly
  | "annual" => .ok .annual
  | value => .error (.valueError s!"'{value}' is not a valid RedemptionFrequency")

structure FundTermsRecord where
  shareClass : String
  lockUpMonths : Int := 12
  noticePeriodDays : Int := 45
  redemptionFrequency : String := "quarterly"
  gatePct : Decimal := 1 / 4
  minimumSubscription : Decimal := 1000000
  minimumRedemption : Decimal := 100000
  dealingDay : Int := -1
  paymentDays : Int := 30
  deriving DecidableEq, Repr

/-! ## Dealing dates -/

/-- `-1` is the last day of the month. -/
def resolveDealingDay (year month : Nat) (dealingDay : Int) : Except Exc CivilDate :=
  let maxDay : Int := daysInMonth year month
  if dealingDay = -1 then CivilDate.of year month maxDay
  else CivilDate.of year month (min dealingDay maxDay)

/-- Weekends go back to the Friday before. -/
def adjustToBusinessDay (d : Date) : Date :=
  if weekday d = 5 then d - 1 else if weekday d = 6 then d - 2 else d

def monthlyCandidates (year month : Nat) (dealingDay : Int) :
    Nat → Except Exc (List CivilDate)
  | 0 => .ok []
  | months + 1 => do
    let first ← resolveDealingDay year month dealingDay
    let rest ←
      if 12 < month + 1 then monthlyCandidates (year + 1) 1 dealingDay months
      else monthlyCandidates year (month + 1) dealingDay months
    return first :: rest

def quarterlyCandidates (year : Nat) (dealingDay : Int) : Except Exc (List CivilDate) :=
  ([year, year + 1].flatMap fun y => [3, 6, 9, 12].map (y, ·)).mapM fun (y, m) =>
    resolveDealingDay y m dealingDay

def annualCandidates (year : Nat) (dealingDay : Int) : Except Exc (List CivilDate) :=
  [year, year + 1, year + 2].mapM fun y => resolveDealingDay y 12 dealingDay

def computeNextDealingDate (frequency : RedemptionFrequency) (dealingDay : Int)
    (fromDate : CivilDate) : Except Exc Date := do
  let candidates ← match frequency with
    | .monthly => monthlyCandidates fromDate.year fromDate.month dealingDay 3
    | .quarterly => quarterlyCandidates fromDate.year dealingDay
    | .annual => annualCandidates fromDate.year dealingDay
  let adjusted := candidates.map fun d => adjustToBusinessDay d.toordinal
  match adjusted.find? (fromDate.toordinal ≤ ·) with
  | some d => .ok d
  | none => .ok (adjusted.getLastD 0)

/-! ## Notice, lock-up and payment -/

def addMonths (d : CivilDate) (months : Int) : Except Exc CivilDate :=
  let month := (d.month : Int) - 1 + months
  let year := ((d.year : Int) + month / 12).toNat
  let month := (month % 12 + 1).toNat
  CivilDate.of year month (min d.day (daysInMonth year month))

def computeLockUpExpiry (subscriptionDate : CivilDate) (lockUpMonths : Int) :
    Except Exc CivilDate :=
  addMonths subscriptionDate lockUpMonths

def computeNoticeDeadline (noticeDate : Date) (noticePeriodDays : Int) : Date :=
  noticeDate + noticePeriodDays

def computePaymentDueDate (dealingDate : Date) (paymentDays : Int) : Date :=
  dealingDate + paymentDays

def validateMinimumAmount (amount minimum : Decimal) : Bool := minimum ≤ amount

end MiniHedge.InvestorOperations
