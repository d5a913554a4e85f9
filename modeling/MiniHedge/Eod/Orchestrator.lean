import MiniHedge.Library.Mapping
import MiniHedge.Python.Values
import Mathlib.Algebra.BigOperators.Group.List.Basic

/-! `EODOrchestrator`: the twelve steps of a run and the data they hand on.

The services of the fund on the business date are programs on a state of their
own, which stays what it is when they raise. `step_data` is one object for the
whole run; a step gets it through `step_data or {}`, so that an empty object is
replaced by a new one, and what the step stores in that is lost. The details
that a step reports are left out.
-/

set_option autoImplicit false

namespace MiniHedge.Eod

open MiniHedge.Python
open MiniHedge.Library (setItem)

inductive EODStepName where
  | marketClose
  | priceFinalization
  | corporateActionProcessing
  | positionRecon
  | navCalculation
  | pnlSnapshot
  | eodRisk
  | feeAccrual
  | capitalAllocation
  | dealingDateExecution
  | performanceAttribution
  | reportGeneration
  deriving DecidableEq, Repr

def stepOrder : List EODStepName :=
  [.marketClose, .priceFinalization, .corporateActionProcessing, .positionRecon, .navCalculation,
    .feeAccrual, .pnlSnapshot, .capitalAllocation, .dealingDateExecution, .eodRisk,
    .performanceAttribution, .reportGeneration]

/-! ## What the steps hand on -/

structure NAVSnapshot where
  nav : Decimal
  sharesOutstanding : Decimal
  deriving DecidableEq, Repr

structure FeeAccrual where
  feeType : String
  accruedAmount : Decimal
  deriving DecidableEq, Repr

/-- The fees of a share class: management and performance. -/
abbrev ClassFees := List (String × (Decimal × Decimal))

structure StepData where
  navSnapshots : Option (List (UUID × NAVSnapshot)) := none
  fundPnl : Option Decimal := none
  managementFee : Option Decimal := none
  performanceFee : Option Decimal := none
  classFees : Option ClassFees := none
  deriving DecidableEq, Repr

/-- The arguments of `allocate_daily`. -/
structure DailyAllocation where
  fundPnl : Decimal
  managementFee : Decimal
  performanceFee : Decimal
  navPerShare : Decimal
  classFees : Option ClassFees
  deriving DecidableEq, Repr

/-! ## The services -/

section Services

variable (σ : Type)

abbrev Program := EStateM Exc σ

/-- The reads of the capital accounts: share classes, the capital of one, and
the ending capitals of `get_latest_by_fund`. -/
structure CapitalService where
  listShareClasses : Program σ (List String)
  shareClassAum : String → Program σ Decimal
  latestEndingCapitals : Program σ (List Decimal)

/-- What is not configured is none. -/
structure EodServices where
  finalizePrices : Program σ Unit
  fetchAndProcess : Option (UUID → Program σ Unit)
  reconcile : UUID → Program σ Unit
  calculateNav : UUID → Program σ NAVSnapshot
  snapshotPnl : UUID → Program σ Decimal
  accrueDailyFees : Option (UUID → Decimal → String → Program σ (List FeeAccrual))
  capitalService : Option (CapitalService σ)
  allocateDaily : Option (DailyAllocation → Program σ Nat)
  executeSubscriptions : Option (Decimal → UUID → Program σ Nat)
  executeRedemptions : Option (Decimal → UUID → Program σ Nat)
  takeSnapshot : UUID → Program σ Unit
  calculateBrinsonFachler : Option (UUID → Program σ Unit)
  generateReport : Option (StepData → Program σ Unit)

end Services

variable {σ : Type}

/-- `try: … except Exception: …` around a program without a result. -/
def suppress (x : Program σ Unit) : Program σ Unit := tryCatch x fun _ => pure ()

/-- The program, or how it has raised. -/
def attempt {α : Type} (x : Program σ α) : Program σ (Except Exc α) :=
  tryCatch (x >>= fun a => pure (.ok a)) fun e => pure (.error e)

/-! ## The steps -/

section Steps

variable (services : EodServices σ) (portfolioIds : List UUID)

def navCalculation (stepData : StepData) : Program σ StepData := do
  let snapshots ← portfolioIds.foldlM (fun snapshots pid => do
    return setItem pid (← services.calculateNav pid) snapshots) []
  return { stepData with navSnapshots := some snapshots }

def pnlSnapshot (stepData : StepData) : Program σ StepData := do
  let total ← portfolioIds.foldlM (fun total pid => do
    return total + (← services.snapshotPnl pid)) 0
  return { stepData with fundPnl := some total }

/-- The totals that the fee step accumulates. -/
structure FeeTotals where
  managementFee : Decimal := 0
  performanceFee : Decimal := 0
  classFees : ClassFees := []
  deriving DecidableEq, Repr

/-- What the accruals of one fee type add up to. -/
def accruedOf (feeType : String) (accruals : List FeeAccrual) : Decimal :=
  ((accruals.filter (·.feeType = feeType)).map (·.accruedAmount)).sum

def FeeTotals.add (totals : FeeTotals) (shareClass : String) (accruals : List FeeAccrual) :
    FeeTotals :=
  let management := accruedOf "management" accruals
  let performance := accruedOf "performance" accruals
  let (before, before') := (totals.classFees.lookup shareClass).getD (0, 0)
  { managementFee := totals.managementFee + management
    performanceFee := totals.performanceFee + performance
    classFees := setItem shareClass (before + management, before' + performance) totals.classFees }

/-- Without a list of share classes, or when it cannot be read, there is the default. -/
def shareClasses : Program σ (List String) :=
  match services.capitalService with
  | none => return ["default"]
  | some capital => do
    match ← attempt capital.listShareClasses with
    | .error _ | .ok [] => return ["default"]
    | .ok classes => return classes

/-- The part of a NAV that falls to a share class. -/
def classNav (nav clsAum totalAum : Decimal) : Decimal :=
  if 0 < totalAum then nav * clsAum / totalAum else nav

/-- The NAV that a share class is accrued on: with several classes, its part. -/
def shareClassNav (classes : List String) (nav : Decimal) (cls : String) : Program σ Decimal :=
  match services.capitalService with
  | none => return nav
  | some capital =>
    if 1 < classes.length then do
      let clsAum ← capital.shareClassAum cls
      let endingCapitals ← capital.latestEndingCapitals
      return classNav nav clsAum endingCapitals.sum
    else return nav

/-- One share class of one portfolio. -/
def accrueClass (accrue : UUID → Decimal → String → Program σ (List FeeAccrual))
    (classes : List String) (pid : UUID) (nav : Decimal) (cls : String) :
    Program σ (List FeeAccrual) := do
  let clsNav ← shareClassNav services classes nav cls
  accrue pid clsNav cls

/-- The loop over the share classes: an exception skips the rest of them. -/
def accrueClasses (accrue : UUID → Decimal → String → Program σ (List FeeAccrual))
    (classes : List String) (pid : UUID) (nav : Decimal) :
    List String → FeeTotals → Program σ FeeTotals
  | [], totals => pure totals
  | cls :: rest, totals => do
    match ← attempt (accrueClass services accrue classes pid nav cls) with
    | .error _ => pure totals
    | .ok accruals => accrueClasses accrue classes pid nav rest (totals.add cls accruals)

def feeAccrual (stepData : StepData) : Program σ StepData :=
  match services.accrueDailyFees with
  | none => return stepData
  | some accrue => do
    let navSnapshots := stepData.navSnapshots.getD []
    let classes ← shareClasses services
    let totals ← portfolioIds.foldlM (fun totals pid =>
      let nav := ((navSnapshots.lookup pid).map (·.nav)).getD 0
      accrueClasses services accrue classes pid nav classes totals) {}
    return { stepData with
      managementFee := some totals.managementFee
      performanceFee := some totals.performanceFee
      classFees := some totals.classFees }

def totalNav (snapshots : List (UUID × NAVSnapshot)) : Decimal :=
  (snapshots.map (·.2.nav)).sum

def totalShares (snapshots : List (UUID × NAVSnapshot)) : Decimal :=
  (snapshots.map (·.2.sharesOutstanding)).sum

def capitalAllocation (stepData : StepData) : Program σ Unit :=
  match services.allocateDaily with
  | none => return ()
  | some allocateDaily => do
    let snapshots := stepData.navSnapshots.getD []
    if totalShares snapshots ≤ 0 then return ()
    let _ ← allocateDaily {
      fundPnl := stepData.fundPnl.getD 0
      managementFee := stepData.managementFee.getD 0
      performanceFee := stepData.performanceFee.getD 0
      navPerShare := totalNav snapshots / totalShares snapshots
      classFees := stepData.classFees }

def dealingDateExecution (stepData : StepData) : Program σ Unit := do
  if services.executeSubscriptions.isNone ∧ services.executeRedemptions.isNone then return ()
  let snapshots := stepData.navSnapshots.getD []
  if totalShares snapshots ≤ 0 then return ()
  let navPerShare := totalNav snapshots / totalShares snapshots
  match portfolioIds with
  | [] => return ()
  | portfolioId :: _ => do
    if let some executeSubscriptions := services.executeSubscriptions then
      let _ ← executeSubscriptions navPerShare portfolioId
    if let some executeRedemptions := services.executeRedemptions then
      let _ ← executeRedemptions navPerShare portfolioId

/-- `_execute_step`, with what the step makes of the dictionary it is given. -/
def executeStep (step : EODStepName) (stepData : StepData) : Program σ StepData :=
  match step with
  | .marketClose => return stepData
  | .priceFinalization => do
    services.finalizePrices
    return stepData
  | .corporateActionProcessing => do
    if let some fetchAndProcess := services.fetchAndProcess then
      portfolioIds.forM fetchAndProcess
    return stepData
  | .positionRecon => do
    portfolioIds.forM services.reconcile
    return stepData
  | .navCalculation => navCalculation services portfolioIds stepData
  | .pnlSnapshot => pnlSnapshot services portfolioIds stepData
  | .eodRisk => do
    portfolioIds.forM fun pid => suppress (services.takeSnapshot pid)
    return stepData
  | .feeAccrual => feeAccrual services portfolioIds stepData
  | .capitalAllocation => do
    capitalAllocation services stepData
    return stepData
  | .dealingDateExecution => do
    dealingDateExecution services portfolioIds stepData
    return stepData
  | .performanceAttribution => do
    if let some calculateBrinsonFachler := services.calculateBrinsonFachler then
      portfolioIds.forM fun pid => suppress (calculateBrinsonFachler pid)
    return stepData
  | .reportGeneration => do
    if let some generateReport := services.generateReport then generateReport stepData
    return stepData

/-! ## Runs -/

inductive EODStepStatus where
  | completed
  | failed
  deriving DecidableEq, Repr

structure EODStepResult where
  step : EODStepName
  status : EODStepStatus
  errorMessage : Option String := none
  deriving DecidableEq, Repr

/-- `_run_step`: `step_data or {}` passes an empty dictionary on as a new one, and
then the caller's stays empty. -/
def runStep (step : EODStepName) (stepData : StepData) (s : σ) :
    EODStepResult × StepData × σ :=
  match executeStep services portfolioIds step stepData s with
  | .ok stored s =>
    (⟨step, .completed, none⟩, if stepData = {} then stepData else stored, s)
  | .error e s => (⟨step, .failed, some e.text⟩, stepData, s)

/-- The loop over the steps, which stops at the first that fails. -/
def runSteps : List EODStepName → StepData → σ → List EODStepResult × σ
  | [], _, s => ([], s)
  | step :: rest, stepData, s =>
    let (result, stepData, s) := runStep services portfolioIds step stepData s
    if result.status = .failed then ([result], s)
    else
      let (results, s) := runSteps rest stepData s
      (result :: results, s)

/-- The steps of `run_eod`. -/
def runAll (s : σ) : List EODStepResult × σ := runSteps services portfolioIds stepOrder {} s

/-- `all_ok`. -/
def isSuccessful (results : List EODStepResult) : Prop := ∀ r ∈ results, r.status = .completed

instance (results : List EODStepResult) : Decidable (isSuccessful results) :=
  inferInstanceAs (Decidable (∀ r ∈ results, _))

end Steps

end MiniHedge.Eod
