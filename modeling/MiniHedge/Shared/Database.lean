import MiniHedge.CashManagement.Tables
import MiniHedge.Library.Versions
import MiniHedge.InvestorOperations.FundTerms
import MiniHedge.InvestorOperations.StateMachine
import MiniHedge.Library.Raising

/-! The schema of a fund, and programs that work on it through sessions.

First the tables that these programs share: the capital accounts with the ledger of
what moved in them, and the requests to subscribe and to redeem. The id of a row is
its number in the table. An account row is a snapshot: each operation adds one with
what it moved and the capital that it leaves. A row is committed when it is inserted,
and of its columns only the ownership is updated.
-/

set_option autoImplicit false

namespace MiniHedge.CapitalAccounts

open MiniHedge.Python MiniHedge.Library
open MiniHedge.CashManagement (Date)

/-- What a transaction is noted to be for. -/
inductive Notes where
  | subscriptionRequest (id : Nat)
  | redemptionRequest (id : Nat)
  | text (text : String)
  deriving DecidableEq, Repr

structure CapitalAccountRecord where
  investorId : UUID
  shareClass : String
  beginningCapital : Decimal := 0
  contributions : Decimal := 0
  withdrawals : Decimal := 0
  pnlAllocation : Decimal := 0
  managementFeeAllocation : Decimal := 0
  performanceFeeAllocation : Decimal := 0
  endingCapital : Decimal := 0
  ownershipPct : Version Decimal := ⟨some 0, none⟩
  sharesHeld : Decimal := 0
  effectiveDate : Date
  -- not a column: the notes that the row was inserted for
  notes : Option Notes := none
  deriving DecidableEq, Repr

def CapitalAccountRecord.columns (a : CapitalAccountRecord) : CapitalAccountRecord :=
  { a with
    beginningCapital := numeric 2 a.beginningCapital
    contributions := numeric 2 a.contributions
    withdrawals := numeric 2 a.withdrawals
    pnlAllocation := numeric 2 a.pnlAllocation
    managementFeeAllocation := numeric 2 a.managementFeeAllocation
    performanceFeeAllocation := numeric 2 a.performanceFeeAllocation
    endingCapital := numeric 2 a.endingCapital
    sharesHeld := numeric 6 a.sharesHeld }

/-- The ownership that a session reads. -/
def CapitalAccountRecord.ownershipSeen (session : Option Nat) (a : CapitalAccountRecord) : Decimal :=
  (a.ownershipPct.seen session).getD 0

/-- The row but for its ownership. -/
def CapitalAccountRecord.withOwnership (pct : Version Decimal) (a : CapitalAccountRecord) :
    CapitalAccountRecord :=
  { a with ownershipPct := pct }

inductive TransactionType where
  | subscription
  | redemption
  | pnlAllocation
  | mgmtFeeAllocation
  | perfFeeAllocation
  deriving DecidableEq, Repr

structure CapitalTransactionRecord where
  capitalAccountId : Nat
  investorId : UUID
  transactionType : TransactionType
  amount : Decimal
  shares : Decimal
  navPerShare : Decimal
  businessDate : Date
  notes : Option Notes := none
  deriving DecidableEq, Repr

def CapitalTransactionRecord.columns (r : CapitalTransactionRecord) : CapitalTransactionRecord :=
  { r with
    amount := numeric 2 r.amount
    shares := numeric 6 r.shares
    navPerShare := numeric 6 r.navPerShare }

end MiniHedge.CapitalAccounts

/-! ## The requests to subscribe and to redeem

The id of a row is its number in the table.
-/

namespace MiniHedge.InvestorOperations

open MiniHedge.Python
open MiniHedge.CashManagement (Date)

structure SubscriptionRequestRecord where
  investorId : UUID
  shareClass : String := "default"
  requestedAmount : Decimal
  state : SubscriptionState
  submittedAt : Datetime
  kycDecisionAt : Option Datetime := none
  kycDecisionBy : Option String := none
  kycNotes : Option String := none
  opsDecisionAt : Option Datetime := none
  opsDecisionBy : Option String := none
  opsNotes : Option String := none
  gpDecisionAt : Option Datetime := none
  gpDecisionBy : Option String := none
  wireConfirmedAt : Option Datetime := none
  wireReference : Option String := none
  dealingDate : Option Date := none
  executedAt : Option Datetime := none
  navPerShare : Option Decimal := none
  sharesIssued : Option Decimal := none
  cancelledAt : Option Datetime := none
  cancellationReason : Option String := none
  deriving DecidableEq, Repr

def SubscriptionRequestRecord.columns (r : SubscriptionRequestRecord) :
    SubscriptionRequestRecord :=
  { r with
    requestedAmount := numeric 2 r.requestedAmount
    navPerShare := r.navPerShare.map (numeric 6)
    sharesIssued := r.sharesIssued.map (numeric 6) }

structure RedemptionRequestRecord where
  investorId : UUID
  requestedAmount : Decimal
  approvedAmount : Option Decimal := none
  state : RedemptionState
  submittedAt : Datetime
  noticeDate : Date
  earliestRedemptionDate : Option Date := none
  lockUpExpiryDate : Option Date := none
  gateApplied : Bool := false
  gatePct : Option Decimal := none
  dealingDate : Option Date := none
  navPerShare : Option Decimal := none
  sharesRedeemed : Option Decimal := none
  paymentDueDate : Option Date := none
  paymentSentAt : Option Datetime := none
  paymentReference : Option String := none
  cancelledAt : Option Datetime := none
  cancellationReason : Option String := none
  deriving DecidableEq, Repr

def RedemptionRequestRecord.columns (r : RedemptionRequestRecord) : RedemptionRequestRecord :=
  { r with
    requestedAmount := numeric 2 r.requestedAmount
    approvedAmount := r.approvedAmount.map (numeric 2)
    gatePct := r.gatePct.map (numeric 6)
    navPerShare := r.navPerShare.map (numeric 6)
    sharesRedeemed := r.sharesRedeemed.map (numeric 6) }

end MiniHedge.InvestorOperations

/-! ## Programs and their sessions

A call is given a session or none. With none, every repository opens a session
for one statement and closes it, so that what is not committed there is rolled
back. Whoever gave a session may commit or close it after the call, whether the
call has returned or raised; the commits of the repositories are commits of the
session that was given. Each statement and each event that is published may
raise, and a statement that would wait for the row of another session does.
-/

namespace MiniHedge.Shared

open MiniHedge.Python MiniHedge.Library
open MiniHedge.CapitalAccounts MiniHedge.InvestorOperations

structure Database where
  terms : List FundTermsRecord := []
  subscriptions : Versioned SubscriptionRequestRecord := []
  redemptions : Versioned RedemptionRequestRecord := []
  accounts : List CapitalAccountRecord := []
  transactions : List CapitalTransactionRecord := []
  cash : CashManagement.Tables := {}
  deriving DecidableEq

namespace Database

variable (db : Database)

/-- The rows of a session are committed; no session has none. -/
def commit (session : Option Nat) : Database :=
  { db with
    subscriptions := db.subscriptions.commit session
    redemptions := db.redemptions.commit session
    accounts := db.accounts.map fun a => a.withOwnership
      (session.elim a.ownershipPct a.ownershipPct.commit) }

/-- The rows of a session are rolled back. -/
def close (owner : Nat) : Database :=
  { db with
    subscriptions := db.subscriptions.close owner
    redemptions := db.redemptions.close owner
    accounts := db.accounts.map fun a => a.withOwnership (a.ownershipPct.release owner) }

end Database

/-! ## What a call depends on -/

/-- What the rows of a capital operation are written for. -/
inductive Subject where
  | processing (notes : Option Notes)
  | allocating (accountId : Nat)
  deriving DecidableEq, Repr

inductive CashStatement where
  | readBalance
  | findRow
  | storeRow
  | insertJournal
  deriving DecidableEq, Repr

/-- The statements and the events of a call, each of which may raise. -/
inductive Operation where
  | readTerms (shareClass : String)
  | getById (id : Nat)
  | insertRequest
  | listByDealingDate
  | listPendingForGate
  | updateState (id : Nat) (target : String)
  | publish (id : Option Nat)
  | latestForInvestor (notes : Option Notes)
  | latestByFund (notes : Option Notes)
  | insertAccount (subject : Subject)
  | refreshAccount (subject : Subject)
  | insertTransaction (subject : Subject) (type : TransactionType)
  | refreshTransaction (subject : Subject) (type : TransactionType)
  | cash (notes : Option Notes) (statement : CashStatement)
  | flushOwnership (notes : Option Notes)
  | publishCapital (notes : Option Notes)
  deriving DecidableEq, Repr

structure Env where
  now : Datetime := 0
  today : CivilDate := .min
  fails : Operation → Option Exc := fun _ => none
  -- which of the rows of one date a query with `LIMIT 1` answers
  tie : Option Notes → Nat := fun _ => 0
  hasCashService : Bool := true

abbrev Run := EStateM Exc Database

def await (env : Env) (op : Operation) : Run Unit :=
  match env.fails op with
  | some e => throw e
  | none => pure ()

def lockTimeout : Exc := .exception "OperationalError" "canceling statement due to lock timeout"

/-! ## Tables of the schema -/

structure Table (Row : Type) where
  get : Database → Versioned Row
  set : Versioned Row → Database → Database

def subscriptionTable : Table SubscriptionRequestRecord := ⟨(·.subscriptions), fun t db =>
  { db with subscriptions := t }⟩

def redemptionTable : Table RedemptionRequestRecord := ⟨(·.redemptions), fun t db =>
  { db with redemptions := t }⟩

section Statements

variable {Row : Type} (table : Table Row) (env : Env) (session : Option Nat)

/-- `session.add`, and the flush. -/
def insertRow (op : Operation) (row : Row) : Run Nat := do
  await env op
  let id := (table.get (← get)).length
  modify fun db => table.set ((table.get db).insert session row) db
  return id

def updateRow (op : Operation) (id : Nat) (change : Row → Row) : Run Unit := do
  await env op
  if (table.get (← get)).locked session id then throw lockTimeout
  else modify fun db => table.set ((table.get db).update session id change) db

end Statements

/-! ## What programs keep -/

/-- An invariant that the commits of a session and the writes of the capital
accounts do not disturb. -/
structure Undisturbed (session : Option Nat) (inv : Database → Prop) : Prop where
  commit : ∀ db, inv db → inv (db.commit session)
  accounts : ∀ db accounts, inv db → inv { db with accounts }
  transactions : ∀ db transactions, inv db → inv { db with transactions }
  cash : ∀ db cash, inv db → inv { db with cash }

section Rules

variable {α Row : Type} {inv : Database → Prop} {table : Table Row} {env : Env}
  {session : Option Nat}

theorem keeps_throw (e : Exc) : Keeps inv (throw e : Run α) := fun _ held => held

theorem keeps_get : Keeps inv (get : Run Database) := fun _ held => held

theorem keeps_modify {f : Database → Database} (kept : ∀ db, inv db → inv (f db)) :
    Keeps inv (modify f : Run PUnit) := kept

theorem keeps_await (op : Operation) : Keeps inv (await env op) := by
  unfold await
  split
  · exact keeps_throw _
  · exact .pure _

theorem keeps_ofExcept (x : Except Exc α) : Keeps inv (ofExcept x : Run α) := by
  cases x with
  | ok a => exact .pure a
  | error e => exact keeps_throw e

theorem triple_get {pre raised : Database → Prop} :
    Triple pre (get : Run Database) (fun seen db => seen = db ∧ pre db) raised :=
  fun _ met => ⟨rfl, met⟩

theorem triple_await {pre raised : Database → Prop} (refused : ∀ db, pre db → raised db)
    (op : Operation) : Triple pre (await env op) (fun _ => pre) raised :=
  Triple.weaken (keeps_await op) (fun _ met => met) (fun _ _ met => met) refused

/-- What a statement has not raised it may be assumed not to raise. -/
theorem triple_awaited {pre raised : Database → Prop} {op : Operation}
    (refused : env.fails op ≠ none → ∀ db, pre db → raised db) :
    Triple pre (await env op) (fun _ db => env.fails op = none ∧ pre db) raised := by
  intro db met
  unfold await
  cases failing : env.fails op with
  | none => exact ⟨rfl, met⟩
  | some e => exact refused (by simp [failing]) db met

/-- An exception is raised in the state as it is, and a result leaves the state. -/
theorem triple_ofExcept {x : Except Exc α} {pre : Database → Prop} :
    Triple pre (ofExcept x : Run α) (fun a db => x = .ok a ∧ pre db) pre := by
  intro db met
  cases x with
  | ok a => exact ⟨rfl, met⟩
  | error e => exact met

theorem keeps_insertRow {row : Row}
    (kept : ∀ db, inv db → inv (table.set ((table.get db).insert session row) db)) (op : Operation) :
    Keeps inv (insertRow table env session op row) :=
  (keeps_await op).bind fun _ => keeps_get.bind fun _ =>
    (keeps_modify kept).bind fun _ => .pure _

theorem keeps_updateRow {id : Nat} {change : Row → Row}
    (kept : ∀ db, inv db → inv (table.set ((table.get db).update session id change) db))
    (op : Operation) : Keeps inv (updateRow table env session op id change) := by
  refine (keeps_await op).bind fun _ => keeps_get.bind fun _ => ?_
  split
  · exact keeps_throw _
  · exact keeps_modify kept

/-- The update is of a row that no other session has written. -/
theorem triple_updateRow {pre post raised : Database → Prop} {op : Operation} {id : Nat}
    {change : Row → Row} (refused : ∀ db, pre db → raised db)
    (updated : ∀ db, pre db → (table.get db).locked session id = false →
      post (table.set ((table.get db).update session id change) db)) :
    Triple pre (updateRow table env session op id change) (fun _ => post) raised := by
  refine .bind (fun _ => pre) (triple_await refused op) fun _ =>
    .bind _ triple_get fun seen => ?_
  split
  · rintro db ⟨-, met⟩
    exact refused db met
  · rename_i free
    rintro db ⟨rfl, met⟩
    exact updated seen met (by simpa using free)

/-- An update that does not raise, of a row that no other session has written. -/
theorem triple_updateRow_free {pre post raised : Database → Prop} {op : Operation} {id : Nat}
    {change : Row → Row} (returns : ∀ db, pre db → env.fails op = none)
    (free : ∀ db, pre db → (table.get db).locked session id = false)
    (updated : ∀ db, pre db → post (table.set ((table.get db).update session id change) db)) :
    Triple pre (updateRow table env session op id change) (fun _ => post) raised := by
  refine .bind _ (triple_awaited fun failing db met => absurd (returns db met) failing) fun _ =>
    .bind _ triple_get fun seen => ?_
  split
  · rename_i locked
    rintro db ⟨rfl, -, met⟩
    rw [free seen met] at locked
    cases locked
  · rintro db ⟨rfl, -, met⟩
    exact updated seen met

end Rules

end MiniHedge.Shared
