import MiniHedge.CapitalAccounts.Service
import MiniHedge.InvestorOperations.GateEngine
import MiniHedge.InvestorOperations.Requests

/-! `RedemptionService`. Its queries write nothing and are left out. -/

set_option autoImplicit false

namespace MiniHedge.InvestorOperations

open MiniHedge.Python MiniHedge.Library MiniHedge.Shared
open MiniHedge.CashManagement (Date)
open MiniHedge.CapitalAccounts (sharesAt processRedemption keeps_processRedemption Notes)

def defaultShareClass : String := "default"

def defaultGatePct : Decimal := 1 / 4

section Service

variable (env : Env) (session : Option Nat)

def submitRedemption (investorId : UUID) (amount : Decimal) (noticeDate : Option Date) :
    Run RedemptionRequestRecord := do
  let noticeDate := noticeDate.getD env.today.toordinal
  let state ← ofExcept (applyRedemptionTransition .draft .pendingValidation)
  let record : RedemptionRequestRecord :=
    { investorId, requestedAmount := amount, state, noticeDate, submittedAt := env.now }
  let id ← insertRow redemptionTable env session .insertRequest record.columns
  await env (.publish id)
  return record

def advanceRedemption (id : Nat)
    (decision : RedemptionRequestRecord → Run (RedemptionRequestRecord → RedemptionRequestRecord)) :
    Run RedemptionRequestRecord :=
  advance redemptionTable env session "Redemption" (·.state.value) id decision

/-- Why the terms refuse a request, and when its lock-up expires. -/
def validationAgainst (terms : FundTermsRecord) (record : RedemptionRequestRecord)
    (subscriptionDate : Option CivilDate) : Except Exc (Option String × Option Date) := do
  let belowMinimum := !validateMinimumAmount record.requestedAmount terms.minimumRedemption
  match subscriptionDate with
  | some date =>
    if belowMinimum then
      return (some s!"Amount {record.requestedAmount} below minimum {terms.minimumRedemption}", none)
    else
      let expiry ← computeLockUpExpiry date terms.lockUpMonths
      if env.today.toordinal < expiry.toordinal then
        return (some s!"Lock-up expires {expiry.isoformat}, cannot redeem until then",
          some expiry.toordinal)
      else return (none, some expiry.toordinal)
  | none =>
    return (if belowMinimum then
      some s!"Amount {record.requestedAmount} below minimum {terms.minimumRedemption}" else none, none)

def validateRedemption (id : Nat) (shareClass : String) (subscriptionDate : Option CivilDate) :
    Run RedemptionRequestRecord :=
  advanceRedemption env session id fun record => do
    let terms ← termsByShareClass env shareClass
    let (failedReason, expiry) ← ofExcept (match terms with
      | some terms => validationAgainst env terms record subscriptionDate
      | none => .ok (none, none))
    let earliest := terms.map fun t => computeNoticeDeadline record.noticeDate t.noticePeriodDays
    let target := if failedReason.isSome then .validationFailed else .validated
    let target ← ofExcept (applyRedemptionTransition record.state target)
    return fun r => { r with
      state := target
      lockUpExpiryDate := expiry <|> r.lockUpExpiryDate
      earliestRedemptionDate := earliest <|> r.earliestRedemptionDate
      cancellationReason := failedReason <|> r.cancellationReason }

def confirmPayment (id : Nat) (paymentReference : String) : Run RedemptionRequestRecord :=
  advanceRedemption env session id fun record => do
    let current ← ofExcept (applyRedemptionTransition record.state .paymentSent)
    let target ← ofExcept (applyRedemptionTransition current .executed)
    return fun r => { r with
      state := target, paymentSentAt := env.now, paymentReference }

def cancelRedemption (id : Nat) (reason : String) : Run RedemptionRequestRecord :=
  advanceRedemption env session id fun record => do
    let target ← ofExcept (applyRedemptionTransition record.state .cancelled)
    return fun r => { r with
      state := target, cancelledAt := env.now, cancellationReason := reason }

/-! ## The gate check -/

/-- `list_pending_for_gate`. -/
def pendingForGate (db : Database) : List (Nat × RedemptionRequestRecord) :=
  sortOn (·.2.submittedAt) ((db.redemptions.rows session).filter fun (_, r) =>
    r.state = .validated ∨ r.state = .pendingGateCheck)

/-- What the check writes in a request. -/
def RedemptionRequestRecord.gated (r : RedemptionRequestRecord) (triggered : Bool)
    (gatePct approvedAmount : Decimal) (dealingDate : Date) : RedemptionRequestRecord :=
  if triggered then
    { r with state := .gateApplied, gateApplied := true, gatePct := some gatePct
             approvedAmount := some approvedAmount, dealingDate := some dealingDate
             : RedemptionRequestRecord }.columns
  else
    { r with state := .queuedForNav, approvedAmount := some approvedAmount
             dealingDate := some dealingDate : RedemptionRequestRecord }.columns

/-- The body of the loop over the allocations. -/
def applyAllocation (pending : List (Nat × RedemptionRequestRecord)) (triggered : Bool)
    (gatePct : Decimal) (dealingDate : Date) (allocation : GateAllocation) : Run Unit := do
  let target := if triggered then .gateApplied else .queuedForNav
  match pending.find? (·.1 = allocation.requestId) with
  | none => throw (.exception "StopIteration" "")
  | some (id, record) =>
    let current ← ofExcept (if record.state = .validated then
      applyRedemptionTransition record.state .pendingGateCheck else .ok record.state)
    let target ← ofExcept (applyRedemptionTransition current target)
    updateRow redemptionTable env session (.updateState id target.value) id fun r =>
      r.gated triggered gatePct allocation.approvedAmount dealingDate

/-- The percentage that is given, or that of the terms. -/
def gatePctOf (gatePct : Option Decimal) (shareClass : String) : Run Decimal := do
  match gatePct with
  | some pct => return pct
  | none => return ((← termsByShareClass env shareClass).map (·.gatePct)).getD defaultGatePct

def runGateCheck (dealingDate : Date) (fundNav : Decimal) (gatePct : Option Decimal)
    (shareClass : String) : Run GateCheckResult := do
  let gatePct ← gatePctOf env gatePct shareClass
  await env .listPendingForGate
  let pending := pendingForGate session (← get)
  let result := checkGate (pending.map fun (id, r) => (id, r.requestedAmount)) fundNav gatePct
  result.allocations.forM
    (applyAllocation env session pending result.gateTriggered gatePct dealingDate)
  if result.gateTriggered then await env (.publish none)
  return result

/-! ## Execution -/

/-- `list_by_dealing_date`. -/
def redemptionsDealingOn (dealingDate : Date) (db : Database) :
    List (Nat × RedemptionRequestRecord) :=
  sortOn (·.2.submittedAt) ((db.redemptions.rows session).filter fun (_, r) =>
    r.dealingDate = some dealingDate)

def queuedRedemptions (dealingDate : Date) (db : Database) : List (Nat × RedemptionRequestRecord) :=
  (redemptionsDealingOn session dealingDate db).filter fun (_, r) =>
    r.state = .queuedForNav ∨ r.state = .gateApplied

/-- `record.approved_amount or record.requested_amount`; zero is falsy. -/
def RedemptionRequestRecord.redemptionAmount (r : RedemptionRequestRecord) : Decimal :=
  match r.approvedAmount with
  | some amount => if amount = 0 then r.requestedAmount else amount
  | none => r.requestedAmount

/-- The body of the first loop over the queue. -/
def requeue (id : Nat) (record : RedemptionRequestRecord) : Run Unit := do
  if record.state = .gateApplied then
    let target ← ofExcept (applyRedemptionTransition record.state .queuedForNav)
    updateRow redemptionTable env session (.updateState id target.value) id fun r =>
      { r with state := target }

/-- The body of the second. -/
def executeRedemption (dealingDate : Date) (navPerShare : Decimal) (portfolioId : UUID)
    (paymentDays : Int) (id : Nat) (record : RedemptionRequestRecord) : Run Unit := do
  let shares := quantize 6 .halfEven (sharesAt record.redemptionAmount navPerShare)
  let current ← ofExcept (applyRedemptionTransition .queuedForNav .navCalculated)
  let target ← ofExcept (applyRedemptionTransition current .pendingPayment)
  processRedemption env session
    { investorId := record.investorId, amount := record.redemptionAmount, navPerShare
      businessDate := dealingDate, portfolioId, notes := some (.redemptionRequest id) }
  updateRow redemptionTable env session (.updateState id target.value) id fun r =>
    { r with state := target, navPerShare := some navPerShare, sharesRedeemed := some shares
             paymentDueDate := some (computePaymentDueDate dealingDate paymentDays)
             : RedemptionRequestRecord }.columns
  await env (.publish id)

def executeRedemptions (dealingDate : Date) (navPerShare : Decimal) (portfolioId : UUID) :
    Run Unit := do
  if navPerShare ≤ 0 then
    throw (.valueError
      s!"Cannot execute redemptions with non-positive NAV per share: {navPerShare}")
  else
    await env .listByDealingDate
    let queued := queuedRedemptions session dealingDate (← get)
    queued.forM fun (id, record) => requeue env session id record
    let terms ← termsByShareClass env defaultShareClass
    let paymentDays := (terms.map (·.paymentDays)).getD 30
    queued.forM fun (id, record) =>
      executeRedemption env session dealingDate navPerShare portfolioId paymentDays id record

end Service

inductive RedemptionCall where
  | submit (investorId : UUID) (amount : Decimal) (noticeDate : Option Date)
  | validate (id : Nat) (shareClass : String) (subscriptionDate : Option CivilDate)
  | checkGate (dealingDate : Date) (fundNav : Decimal) (gatePct : Option Decimal)
      (shareClass : String)
  | execute (dealingDate : Date) (navPerShare : Decimal) (portfolioId : UUID)
  | confirm (id : Nat) (paymentReference : String)
  | cancel (id : Nat) (reason : String)
  deriving DecidableEq, Repr

/-- A call, for what it does. -/
def RedemptionCall.run (env : Env) (session : Option Nat) : RedemptionCall → Run Unit
  | .submit investorId amount noticeDate => do
    let _ ← submitRedemption env session investorId amount noticeDate
  | .validate id shareClass subscriptionDate => do
    let _ ← validateRedemption env session id shareClass subscriptionDate
  | .checkGate dealingDate fundNav gatePct shareClass => do
    let _ ← runGateCheck env session dealingDate fundNav gatePct shareClass
  | .execute dealingDate navPerShare portfolioId =>
    executeRedemptions env session dealingDate navPerShare portfolioId
  | .confirm id paymentReference => do
    let _ ← confirmPayment env session id paymentReference
  | .cancel id reason => do
    let _ ← cancelRedemption env session id reason

/-! ## What the calls leave alone -/

section Keeps

variable {env : Env} {session : Option Nat} {inv : Database → Prop}

theorem keeps_requeue (apart : ∀ db t, inv db → inv (redemptionTable.set t db)) (id : Nat)
    (record : RedemptionRequestRecord) : Keeps inv (requeue env session id record) := by
  unfold requeue
  split
  · exact (keeps_ofExcept _).bind fun _ => keeps_updateRow (fun db => apart db _) _
  · exact .pure _

theorem keeps_applyAllocation (apart : ∀ db t, inv db → inv (redemptionTable.set t db))
    (pending : List (Nat × RedemptionRequestRecord)) (triggered : Bool) (gatePct : Decimal)
    (dealingDate : Date) (allocation : GateAllocation) :
    Keeps inv (applyAllocation env session pending triggered gatePct dealingDate allocation) := by
  unfold applyAllocation
  dsimp only
  split
  · exact keeps_throw _
  · exact (keeps_ofExcept _).bind fun _ => (keeps_ofExcept _).bind fun _ =>
      keeps_updateRow (fun db => apart db _) _

theorem keeps_executeRedemption (calm : Undisturbed session inv)
    (apart : ∀ db t, inv db → inv (redemptionTable.set t db)) (dealingDate : Date)
    (navPerShare : Decimal) (portfolioId : UUID) (paymentDays : Int) (id : Nat)
    (record : RedemptionRequestRecord) : Keeps inv
      (executeRedemption env session dealingDate navPerShare portfolioId paymentDays id record) :=
  (keeps_ofExcept _).bind fun _ => (keeps_ofExcept _).bind fun _ =>
    (keeps_processRedemption calm _).bind fun _ => (keeps_updateRow (fun db => apart db _) _).bind fun _ =>
      keeps_await _

theorem keeps_gatePctOf (gatePct : Option Decimal) (shareClass : String) :
    Keeps inv (gatePctOf env gatePct shareClass) := by
  unfold gatePctOf
  split
  · exact .pure _
  · exact (keeps_termsByShareClass _).bind fun _ => .pure _

theorem keeps_runGateCheck (apart : ∀ db t, inv db → inv (redemptionTable.set t db))
    (dealingDate : Date) (fundNav : Decimal) (gatePct : Option Decimal) (shareClass : String) :
    Keeps inv (runGateCheck env session dealingDate fundNav gatePct shareClass) := by
  refine (keeps_gatePctOf _ _).bind fun pct => (keeps_await _).bind fun _ =>
    keeps_get.bind fun db => ?_
  refine (Keeps.forM (fun a => keeps_applyAllocation apart _ _ _ _ a) _).bind fun _ => ?_
  dsimp only
  split
  · exact (keeps_await _).bind fun _ => .pure _
  · exact .pure _

theorem keeps_executeRedemptions (calm : Undisturbed session inv)
    (apart : ∀ db t, inv db → inv (redemptionTable.set t db)) (dealingDate : Date)
    (navPerShare : Decimal) (portfolioId : UUID) :
    Keeps inv (executeRedemptions env session dealingDate navPerShare portfolioId) := by
  unfold executeRedemptions
  split
  · exact keeps_throw _
  · refine (keeps_await _).bind fun _ => keeps_get.bind fun db => ?_
    refine (Keeps.forM (fun _ => keeps_requeue apart _ _) _).bind fun _ => ?_
    refine (keeps_termsByShareClass _).bind fun _ => ?_
    exact .forM (fun _ => keeps_executeRedemption calm apart _ _ _ _ _ _) _

theorem keeps_submitRedemption (apart : ∀ db t, inv db → inv (redemptionTable.set t db))
    (investorId : UUID) (amount : Decimal) (noticeDate : Option Date) :
    Keeps inv (submitRedemption env session investorId amount noticeDate) := by
  refine (keeps_ofExcept _).bind fun state => (keeps_insertRow (fun db => apart db _) _).bind fun id => ?_
  exact (keeps_await _).bind fun _ => .pure _

theorem keeps_validateRedemption (apart : ∀ db t, inv db → inv (redemptionTable.set t db))
    (id : Nat) (shareClass : String) (subscriptionDate : Option CivilDate) :
    Keeps inv (validateRedemption env session id shareClass subscriptionDate) := by
  unfold validateRedemption advanceRedemption
  refine keeps_advance (fun db _ => apart db _) fun record => (keeps_termsByShareClass _).bind fun terms => ?_
  refine (keeps_ofExcept _).bind fun checked => ?_
  dsimp only
  exact (keeps_ofExcept _).bind fun target => .pure _

theorem keeps_confirmPayment (apart : ∀ db t, inv db → inv (redemptionTable.set t db))
    (id : Nat) (paymentReference : String) :
    Keeps inv (confirmPayment env session id paymentReference) := by
  unfold confirmPayment advanceRedemption
  refine keeps_advance (fun db _ => apart db _) fun record => (keeps_ofExcept _).bind fun current => ?_
  exact (keeps_ofExcept _).bind fun target => .pure _

theorem keeps_cancelRedemption (apart : ∀ db t, inv db → inv (redemptionTable.set t db))
    (id : Nat) (reason : String) : Keeps inv (cancelRedemption env session id reason) := by
  unfold cancelRedemption advanceRedemption
  exact keeps_advance (fun db _ => apart db _) fun record => (keeps_ofExcept _).bind fun target => .pure _

/-- A call about redemptions keeps what is not about them. -/
theorem RedemptionCall.keeps (calm : Undisturbed session inv)
    (apart : ∀ db t, inv db → inv (redemptionTable.set t db)) (c : RedemptionCall) :
    Keeps inv (c.run env session) := by
  cases c with
  | submit investorId amount noticeDate =>
    exact (keeps_submitRedemption apart investorId amount noticeDate).bind fun _ => .pure _
  | validate id shareClass subscriptionDate =>
    exact (keeps_validateRedemption apart id shareClass subscriptionDate).bind fun _ => .pure _
  | checkGate dealingDate fundNav gatePct shareClass =>
    exact (keeps_runGateCheck apart dealingDate fundNav gatePct shareClass).bind fun _ => .pure _
  | execute dealingDate navPerShare portfolioId =>
    exact keeps_executeRedemptions calm apart dealingDate navPerShare portfolioId
  | confirm id paymentReference =>
    exact (keeps_confirmPayment apart id paymentReference).bind fun _ => .pure _
  | cancel id reason =>
    exact (keeps_cancelRedemption apart id reason).bind fun _ => .pure _

end Keeps

end MiniHedge.InvestorOperations
