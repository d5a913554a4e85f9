import MiniHedge.CapitalAccounts.Service
import MiniHedge.InvestorOperations.Requests

/-! `SubscriptionService`. Its two queries write nothing and are left out. -/

set_option autoImplicit false

namespace MiniHedge.InvestorOperations

open MiniHedge.Python MiniHedge.Library MiniHedge.Shared
open MiniHedge.CashManagement (Date)
open MiniHedge.CapitalAccounts (sharesAt processSubscription keeps_processSubscription Notes)

/-- The targets in turn, each by a move of the table. -/
def walkSubscription (current : SubscriptionState) (targets : List SubscriptionState) :
    Except Exc SubscriptionState :=
  targets.foldlM applySubscriptionTransition current

section Service

variable (env : Env) (session : Option Nat)

/-- The minimum applies where the class has terms. -/
def checkMinimum (terms : Option FundTermsRecord) (amount : Decimal) (shareClass : String) :
    Except Exc Unit :=
  match terms with
  | none => .ok ()
  | some t =>
    if validateMinimumAmount amount t.minimumSubscription then .ok ()
    else .error (.valueError (s!"Amount {amount} is below minimum subscription " ++
      s!"{t.minimumSubscription} for share class {shareClass}"))

def submitSubscription (investorId : UUID) (amount : Decimal) (shareClass : String) :
    Run SubscriptionRequestRecord := do
  let terms ← termsByShareClass env shareClass
  ofExcept (checkMinimum terms amount shareClass)
  let state ← ofExcept (applySubscriptionTransition .draft .pendingKyc)
  let record : SubscriptionRequestRecord :=
    { investorId, shareClass, requestedAmount := amount, state, submittedAt := env.now }
  let id ← insertRow subscriptionTable env session .insertRequest record.columns
  await env (.publish id)
  return record

def advanceSubscription (id : Nat)
    (decision : SubscriptionRequestRecord → Run (SubscriptionRequestRecord → SubscriptionRequestRecord)) :
    Run SubscriptionRequestRecord :=
  advance subscriptionTable env session "Subscription" (·.state.value) id decision

def recordKycDecision (id : Nat) (approved : Bool) (decisionBy notes : String) :
    Run SubscriptionRequestRecord :=
  advanceSubscription env session id fun record => do
    let target := if approved then .kycApproved else .kycRejected
    let target ← ofExcept (applySubscriptionTransition record.state target)
    return fun r => { r with
      state := target, kycDecisionAt := env.now, kycDecisionBy := decisionBy, kycNotes := notes }

def opsReview (id : Nat) (approved : Bool) (decisionBy notes : String) :
    Run SubscriptionRequestRecord :=
  advanceSubscription env session id fun record => do
    let current ← ofExcept (if record.state = .kycApproved then
      applySubscriptionTransition record.state .pendingOpsReview else .ok record.state)
    let target := if approved then .pendingGpApproval else .cancelled
    let target ← ofExcept (applySubscriptionTransition current target)
    return fun r => { r with
      state := target, opsDecisionAt := env.now, opsDecisionBy := decisionBy, opsNotes := notes }

/-- The dealing date that an approval sets, where the class has terms. -/
def nextDealingDate (shareClass : String) : Run (Option Date) := do
  match ← termsByShareClass env shareClass with
  | none => return none
  | some terms =>
    let frequency ← ofExcept (RedemptionFrequency.ofValue terms.redemptionFrequency)
    let dealing ← ofExcept (computeNextDealingDate frequency terms.dealingDay env.today)
    return some dealing

def gpDecision (id : Nat) (approved : Bool) (decisionBy : String) :
    Run SubscriptionRequestRecord :=
  advanceSubscription env session id fun record => do
    let target := if approved then .approved else .rejected
    let target ← ofExcept (applySubscriptionTransition record.state target)
    let dealing ← if approved then nextDealingDate env record.shareClass else pure none
    return fun r => { r with
      state := target, gpDecisionAt := env.now, gpDecisionBy := decisionBy
      dealingDate := dealing <|> r.dealingDate }

def confirmWire (id : Nat) (wireReference : String) : Run SubscriptionRequestRecord :=
  advanceSubscription env session id fun record => do
    let target ← ofExcept (walkSubscription record.state
      [.pendingWire, .wireConfirmed, .queuedForNav])
    return fun r => { r with state := target, wireConfirmedAt := env.now, wireReference }

def cancelSubscription (id : Nat) (reason : String) : Run SubscriptionRequestRecord :=
  advanceSubscription env session id fun record => do
    let target ← ofExcept (applySubscriptionTransition record.state .cancelled)
    return fun r => { r with
      state := target, cancelledAt := env.now, cancellationReason := reason }

/-! ## Execution -/

/-- `list_by_dealing_date`. -/
def subscriptionsDealingOn (dealingDate : Date) (db : Database) :
    List (Nat × SubscriptionRequestRecord) :=
  sortOn (·.2.submittedAt) ((db.subscriptions.rows session).filter fun (_, r) =>
    r.dealingDate = some dealingDate)

def queuedSubscriptions (dealingDate : Date) (db : Database) :
    List (Nat × SubscriptionRequestRecord) :=
  (subscriptionsDealingOn session dealingDate db).filter fun (_, r) => r.state = .queuedForNav

/-- The body of the loop over the queue. -/
def executeSubscription (dealingDate : Date) (navPerShare : Decimal) (portfolioId : UUID)
    (id : Nat) (record : SubscriptionRequestRecord) : Run Unit := do
  let target ← ofExcept (applySubscriptionTransition record.state .executed)
  let shares := quantize 6 .halfEven (sharesAt record.requestedAmount navPerShare)
  processSubscription env session
    { investorId := record.investorId, amount := record.requestedAmount, navPerShare
      businessDate := dealingDate, portfolioId, shareClass := record.shareClass
      notes := some (.subscriptionRequest id) }
  updateRow subscriptionTable env session (.updateState id target.value) id fun r =>
    { r with state := target, executedAt := env.now, navPerShare := some navPerShare
             sharesIssued := some shares : SubscriptionRequestRecord }.columns
  await env (.publish id)

def executeSubscriptions (dealingDate : Date) (navPerShare : Decimal) (portfolioId : UUID) :
    Run Unit := do
  if navPerShare ≤ 0 then
    throw (.valueError
      s!"Cannot execute subscriptions with non-positive NAV per share: {navPerShare}")
  else
    await env .listByDealingDate
    let queued := queuedSubscriptions session dealingDate (← get)
    queued.forM fun (id, record) =>
      executeSubscription env session dealingDate navPerShare portfolioId id record

end Service

inductive SubscriptionCall where
  | submit (investorId : UUID) (amount : Decimal) (shareClass : String)
  | decideKyc (id : Nat) (approved : Bool) (decisionBy notes : String)
  | reviewOps (id : Nat) (approved : Bool) (decisionBy notes : String)
  | decideGp (id : Nat) (approved : Bool) (decisionBy : String)
  | receiveWire (id : Nat) (wireReference : String)
  | execute (dealingDate : Date) (navPerShare : Decimal) (portfolioId : UUID)
  | cancel (id : Nat) (reason : String)
  deriving DecidableEq, Repr

/-- A call, for what it does. -/
def SubscriptionCall.run (env : Env) (session : Option Nat) : SubscriptionCall → Run Unit
  | .submit investorId amount shareClass => do
    let _ ← submitSubscription env session investorId amount shareClass
  | .decideKyc id approved decisionBy notes => do
    let _ ← recordKycDecision env session id approved decisionBy notes
  | .reviewOps id approved decisionBy notes => do
    let _ ← opsReview env session id approved decisionBy notes
  | .decideGp id approved decisionBy => do
    let _ ← gpDecision env session id approved decisionBy
  | .receiveWire id wireReference => do
    let _ ← confirmWire env session id wireReference
  | .execute dealingDate navPerShare portfolioId =>
    executeSubscriptions env session dealingDate navPerShare portfolioId
  | .cancel id reason => do
    let _ ← cancelSubscription env session id reason

/-! ## What the calls leave alone -/

section Keeps

variable {env : Env} {session : Option Nat} {inv : Database → Prop}

theorem keeps_nextDealingDate {inv : Database → Prop} (shareClass : String) :
    Keeps inv (nextDealingDate env shareClass) := by
  refine (keeps_termsByShareClass _).bind fun terms => ?_
  split
  · exact .pure _
  · exact (keeps_ofExcept _).bind fun _ => (keeps_ofExcept _).bind fun _ => .pure _

/-- What neither an update nor an insert of a request disturbs. -/
structure SubscriptionCall.Calm (session : Option Nat) (inv : Database → Prop) : Prop
    extends Undisturbed session inv where
  updated : ∀ db id change, inv db →
    inv (subscriptionTable.set ((subscriptionTable.get db).update session id change) db)
  inserted : ∀ db row, inv db →
    inv (subscriptionTable.set ((subscriptionTable.get db).insert session row) db)

theorem keeps_advanceSubscription (calm : SubscriptionCall.Calm session inv) (id : Nat)
    {decision : SubscriptionRequestRecord → Run (SubscriptionRequestRecord → SubscriptionRequestRecord)}
    (decided : ∀ record, Keeps inv (decision record)) :
    Keeps inv (advanceSubscription env session id decision) :=
  keeps_advance (fun db => calm.updated db id) decided

theorem keeps_executeSubscriptions (calm : SubscriptionCall.Calm session inv) (dealingDate : Date)
    (navPerShare : Decimal) (portfolioId : UUID) :
    Keeps inv (executeSubscriptions env session dealingDate navPerShare portfolioId) := by
  unfold executeSubscriptions
  split
  · exact keeps_throw _
  · refine (keeps_await _).bind fun _ => keeps_get.bind fun db => .forM (fun _ => ?_) _
    exact (keeps_ofExcept _).bind fun _ => (keeps_processSubscription calm.toUndisturbed _).bind fun _ =>
      (keeps_updateRow (fun db => calm.updated db _ _) _).bind fun _ => keeps_await _

/-- A call about subscriptions keeps what is not about them. -/
theorem SubscriptionCall.keeps (calm : SubscriptionCall.Calm session inv) (c : SubscriptionCall) :
    Keeps inv (c.run env session) := by
  have advances : ∀ {id : Nat}
      {decision : SubscriptionRequestRecord → Run (SubscriptionRequestRecord → SubscriptionRequestRecord)},
      (∀ record, Keeps inv (decision record)) →
        Keeps inv (advanceSubscription env session id decision >>= fun _ => pure ()) := fun decided =>
    (keeps_advanceSubscription calm _ decided).bind fun _ => .pure _
  cases c with
  | submit investorId amount shareClass =>
    refine Keeps.bind ?_ fun _ => .pure _
    refine (keeps_termsByShareClass _).bind fun _ => (keeps_ofExcept _).bind fun _ => ?_
    refine (keeps_ofExcept _).bind fun state => ?_
    refine (keeps_insertRow (fun db => calm.inserted db _) _).bind fun _ => ?_
    exact (keeps_await _).bind fun _ => .pure _
  | decideKyc id approved decisionBy notes =>
    exact advances fun record => (keeps_ofExcept _).bind fun target => .pure _
  | reviewOps id approved decisionBy notes =>
    exact advances fun record => (keeps_ofExcept _).bind fun current =>
      (keeps_ofExcept _).bind fun target => .pure _
  | decideGp id approved decisionBy =>
    refine advances fun record => (keeps_ofExcept _).bind fun target => ?_
    dsimp only
    split
    · exact (keeps_nextDealingDate _).bind fun _ => .pure _
    · exact .pure _
  | receiveWire id wireReference =>
    exact advances fun record => (keeps_ofExcept _).bind fun target => .pure _
  | execute dealingDate navPerShare portfolioId =>
    exact keeps_executeSubscriptions calm dealingDate navPerShare portfolioId
  | cancel id reason =>
    exact advances fun record => (keeps_ofExcept _).bind fun target => .pure _

end Keeps

end MiniHedge.InvestorOperations
