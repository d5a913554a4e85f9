import MiniHedge.CashManagement.Tables
import MiniHedge.Library.Mapping
import MiniHedge.Library.StableSort
import MiniHedge.Python.Decimal

/-! `PositionReconciler`, and the rules of `BreakAutoResolver` that it runs.

The maps are what the position service, the broker and the administrator have
answered. A set is iterated in an order of its own. The id of a break is its
number in the table; the summary of a reconciliation is left out.
-/

set_option autoImplicit false

namespace MiniHedge.Eod

open MiniHedge.Python MiniHedge.Library
open MiniHedge.CashManagement (Date)

inductive BreakType where
  | quantityMismatch
  | missingInternal
  | missingBroker
  | missingAdmin
  | brokerAdminMismatch
  | internalAdminMismatch
  | cashMismatch
  deriving DecidableEq, Repr

inductive BreakStatus where
  | opened
  | investigating
  | resolved
  | escalated
  deriving DecidableEq, Repr

structure ReconciliationBreak where
  instrumentId : String
  breakType : BreakType
  internalQuantity : Decimal
  brokerQuantity : Decimal
  adminQuantity : Option Decimal
  difference : Decimal
  isMaterial : Bool
  deriving DecidableEq, Repr

structure CashBreak where
  currency : String
  internalBalance : Decimal
  adminBalance : Decimal
  difference : Decimal
  isMaterial : Bool
  deriving DecidableEq, Repr

structure ReconciliationBreakRecord where
  portfolioId : UUID
  businessDate : Date
  instrumentId : Option String := none
  breakType : BreakType
  internalQuantity : Decimal
  brokerQuantity : Decimal
  adminQuantity : Option Decimal := none
  difference : Decimal
  isMaterial : Bool
  currency : Option String := none
  internalBalance : Option Decimal := none
  adminBalance : Option Decimal := none
  status : BreakStatus := .opened
  resolutionNote : Option String := none
  createdAt : Datetime
  resolvedAt : Option Datetime := none
  deriving DecidableEq, Repr

def ReconciliationBreakRecord.columns (r : ReconciliationBreakRecord) : ReconciliationBreakRecord :=
  { r with
    internalQuantity := numeric 8 r.internalQuantity
    brokerQuantity := numeric 8 r.brokerQuantity
    adminQuantity := r.adminQuantity.map (numeric 8)
    difference := numeric 8 r.difference
    internalBalance := r.internalBalance.map (numeric 2)
    adminBalance := r.adminBalance.map (numeric 2) }

abbrev Breaks := List ReconciliationBreakRecord

/-! ## Matching -/

/-- An order in which sets are iterated. -/
structure SetOrder where
  iterate : List String → List String
  perm : ∀ keys, (iterate keys).Perm keys.eraseDups

def materialThreshold : Decimal := 1 / 100

def cashMaterialThreshold : Decimal := 1

/-- `m.get(key, ZERO)`. -/
def quantityOf (m : List (String × Decimal)) (key : String) : Decimal := (m.lookup key).getD 0

def breakOf (iid : String) (breakType : BreakType) (intQty brkQty : Decimal)
    (admQty : Option Decimal) : ReconciliationBreak :=
  let diff := intQty - brkQty
  ⟨iid, breakType, intQty, brkQty, admQty, diff, materialThreshold < |diff|⟩

/-- Internal against broker, and where these agree against the administrator. -/
def internalBreaks (iid : String) (intQty brkQty : Decimal) (admQty : Option Decimal) :
    List ReconciliationBreak :=
  if intQty = 0 ∧ brkQty ≠ 0 then [breakOf iid .missingInternal intQty brkQty admQty]
  else if brkQty = 0 ∧ intQty ≠ 0 then [breakOf iid .missingBroker intQty brkQty admQty]
  else if intQty ≠ brkQty then [breakOf iid .quantityMismatch intQty brkQty admQty]
  else match admQty with
    | none => []
    | some adm =>
      if adm = 0 ∧ intQty ≠ 0 then [breakOf iid .missingAdmin intQty brkQty admQty]
      else if adm ≠ intQty then [breakOf iid .internalAdminMismatch intQty brkQty admQty]
      else []

/-- Broker against administrator, where all three disagree. -/
def brokerBreaks (iid : String) (intQty brkQty : Decimal) (admQty : Option Decimal) :
    List ReconciliationBreak :=
  match admQty with
  | none => []
  | some adm =>
    if brkQty ≠ adm ∧ intQty = brkQty ∧ intQty ≠ 0 then []
    else if brkQty ≠ adm ∧ intQty ≠ brkQty ∧ brkQty ≠ 0 ∧ adm ≠ 0 then
      [⟨iid, .brokerAdminMismatch, intQty, brkQty, admQty, brkQty - adm,
        materialThreshold < |brkQty - adm|⟩]
    else []

/-- What a reconciliation is about, and what the services answer. -/
structure Reconciliation where
  portfolioId : UUID
  businessDate : Date
  order : SetOrder
  positions : List (String × Decimal)
  broker : List (String × Decimal)
  admin : Option (List (String × Decimal))
  -- the balances and those of the administrator, where both are to be had
  cash : Option (List (String × Decimal) × List (String × Decimal))
  now : Datetime

namespace Reconciliation

variable (r : Reconciliation)

/-- `{p.instrument_id: p.quantity for p in internal_positions}`. -/
def internalMap : List (String × Decimal) :=
  r.positions.foldl (fun m p => setItem p.1 p.2 m) []

def allInstruments : List String :=
  r.order.iterate (r.internalMap.map (·.1) ++ r.broker.map (·.1) ++ (r.admin.getD []).map (·.1))

def matchPositions : List ReconciliationBreak :=
  r.allInstruments.flatMap fun iid =>
    let intQty := quantityOf r.internalMap iid
    let brkQty := quantityOf r.broker iid
    let admQty := r.admin.map (quantityOf · iid)
    internalBreaks iid intQty brkQty admQty ++ brokerBreaks iid intQty brkQty admQty

def reconcileCash : List CashBreak :=
  match r.cash with
  | none => []
  | some (balances, adminCash) =>
    let internalCash := totals (·.1) (·.2) balances
    (r.order.iterate (internalCash.map (·.1) ++ adminCash.map (·.1))).filterMap fun ccy =>
      let intBal := quantityOf internalCash ccy
      let admBal := quantityOf adminCash ccy
      let diff := intBal - admBal
      if cashMaterialThreshold < |diff| then some ⟨ccy, intBal, admBal, diff, true⟩ else none

def positionRecord (b : ReconciliationBreak) : ReconciliationBreakRecord :=
  { portfolioId := r.portfolioId, businessDate := r.businessDate, instrumentId := b.instrumentId
    breakType := b.breakType, internalQuantity := b.internalQuantity
    brokerQuantity := b.brokerQuantity, adminQuantity := b.adminQuantity
    difference := b.difference, isMaterial := b.isMaterial, createdAt := r.now }

def cashRecord (b : CashBreak) : ReconciliationBreakRecord :=
  { portfolioId := r.portfolioId, businessDate := r.businessDate, breakType := .cashMismatch
    internalQuantity := 0, brokerQuantity := 0, difference := b.difference
    isMaterial := b.isMaterial, currency := b.currency, internalBalance := b.internalBalance
    adminBalance := b.adminBalance, createdAt := r.now }

/-- The records of the breaks that are found. -/
def found : Breaks :=
  r.matchPositions.map r.positionRecord ++ r.reconcileCash.map r.cashRecord

end Reconciliation

/-! ## The rules -/

structure AutoResolutionRule where
  name : String
  applies : ReconciliationBreakRecord → Bool
  resolutionNote : ReconciliationBreakRecord → String
  targetStatus : BreakStatus := .resolved

def roundingThreshold : Decimal := 1 / 200

def cashTimingThreshold : Decimal := 100

def breakMaxAgeDays : Int := 5

/-- Microseconds. -/
def day : Datetime := 24 * 60 * 60 * 1000000

def roundingDifferenceRule : AutoResolutionRule where
  name := "rounding_difference"
  applies b := |b.difference| ≤ roundingThreshold ∧ b.status = .opened
  resolutionNote b := s!"Auto-resolved: rounding difference ({b.difference})"

def immaterialBreakRule : AutoResolutionRule where
  name := "immaterial_break"
  applies b := b.isMaterial = false ∧ b.status = .opened
  resolutionNote _ := "Auto-resolved: below materiality threshold"

def cashTimingRule : AutoResolutionRule where
  name := "cash_timing"
  applies b := b.breakType = .cashMismatch ∧ |b.difference| < cashTimingThreshold ∧ b.status = .opened
  resolutionNote _ := "Auto-resolved: likely settlement timing difference"

/-- With the keys that `set_resolved_context` has loaded. -/
def duplicateBreakRule (resolvedKeys : List (Option String × BreakType)) : AutoResolutionRule where
  name := "duplicate_break"
  applies b := b.status = .opened ∧ (b.instrumentId, b.breakType) ∈ resolvedKeys
  resolutionNote _ := "Auto-resolved: recurring immaterial break"

def staleBreakRule (now : Datetime) : AutoResolutionRule where
  name := "stale_break"
  applies b := b.status = .opened ∧ breakMaxAgeDays * day < now - b.createdAt
  resolutionNote _ := s!"Auto-escalated: open for more than {breakMaxAgeDays} days"
  targetStatus := .escalated

def defaultRules (resolvedKeys : List (Option String × BreakType)) (now : Datetime) :
    List AutoResolutionRule :=
  [roundingDifferenceRule, immaterialBreakRule, cashTimingRule, duplicateBreakRule resolvedKeys,
    staleBreakRule now]

/-! ## The run -/

/-- `list_open`. -/
def listOpen (portfolioId : UUID) (breaks : Breaks) : List (ReconciliationBreakRecord × Nat) :=
  sortOn (·.1.createdAt) (breaks.zipIdx.filter fun (b, _) => b.portfolioId = portfolioId ∧
    (b.status = .opened ∨ b.status = .investigating ∨ b.status = .escalated))

/-- `list_recently_resolved`. -/
def recentlyResolved (portfolioId : UUID) (since : Date) (breaks : Breaks) : Breaks :=
  breaks.filter fun b => b.portfolioId = portfolioId ∧ b.status = .resolved ∧ since ≤ b.businessDate

def resolvedKeys (recent : Breaks) : List (Option String × BreakType) :=
  recent.map fun b => (b.instrumentId, b.breakType)

/-- `update_status`, of a row that is there. -/
def updateStatus (rule : AutoResolutionRule) (now : Datetime) (b : ReconciliationBreakRecord) :
    ReconciliationBreakRecord :=
  { b with
    status := rule.targetStatus
    resolutionNote := some (rule.resolutionNote b)
    resolvedAt := if rule.targetStatus = .resolved then some now else b.resolvedAt }

structure AutoResolutionResult where
  autoResolved : Nat := 0
  autoEscalated : Nat := 0
  rulesApplied : List String := []
  deriving DecidableEq, Repr

def AutoResolutionResult.count (rule : AutoResolutionRule) (result : AutoResolutionResult) :
    AutoResolutionResult where
  autoResolved := result.autoResolved + if rule.targetStatus = .resolved then 1 else 0
  autoEscalated := result.autoEscalated + if rule.targetStatus = .escalated then 1 else 0
  rulesApplied :=
    if rule.name ∈ result.rulesApplied then result.rulesApplied
    else result.rulesApplied ++ [rule.name]

/-- The body of the loop: the first rule that matches wins. -/
def applyRules (rules : List AutoResolutionRule) (now : Datetime)
    (state : Breaks × AutoResolutionResult) (entry : ReconciliationBreakRecord × Nat) :
    Breaks × AutoResolutionResult :=
  match rules.find? (·.applies entry.1) with
  | some rule => (state.1.modify entry.2 (updateStatus rule now), state.2.count rule)
  | none => state

abbrev Reconciling := EStateM Exc Breaks

/-- `business_date - timedelta(days=3)` has to be a date. -/
def processBreaks (portfolioId : UUID) (businessDate : Date) (now : Datetime) :
    Reconciling AutoResolutionResult := do
  let breaks ← get
  if businessDate - 3 < 1 then throw (.exception "OverflowError" "date value out of range")
  else
    let keys := resolvedKeys (recentlyResolved portfolioId (businessDate - 3) breaks)
    let (processed, result) :=
      (listOpen portfolioId breaks).foldl (applyRules (defaultRules keys now) now) (breaks, {})
    set processed
    return result

structure ReconciliationResult where
  totalPositions : Nat
  matchedPositions : Int
  breaks : List ReconciliationBreak
  cashBreaks : List CashBreak
  isClean : Bool
  deriving DecidableEq, Repr

/-- `reconcile`, with an auto-resolver of the default rules. -/
def Reconciliation.reconcile (r : Reconciliation) : Reconciling ReconciliationResult := do
  let breaks := r.matchPositions
  let cashBreaks := r.reconcileCash
  modify (· ++ r.found.map ReconciliationBreakRecord.columns)
  let _ ← processBreaks r.portfolioId r.businessDate r.now
  return { totalPositions := r.allInstruments.length
           matchedPositions := r.allInstruments.length - breaks.length
           breaks, cashBreaks, isClean := breaks.length = 0 ∧ cashBreaks.length = 0 }

end MiniHedge.Eod
