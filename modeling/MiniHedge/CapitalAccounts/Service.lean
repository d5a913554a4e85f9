import MiniHedge.Library.Apportionment
import MiniHedge.Python.Context
import MiniHedge.Shared.Database
import Mathlib.Data.List.Forall2

/-! The allocation of amounts over accounts, as the pure functions compute it, and the
service that books it. -/

set_option autoImplicit false

namespace MiniHedge.CapitalAccounts

open MiniHedge.Python MiniHedge.Library MiniHedge.Shared
open MiniHedge.CashManagement (Date)

/-- An account in an allocation: its id, its ending capital and its ownership. -/
structure Holding where
  id : Nat
  capital : Decimal
  ownershipPct : Decimal
  deriving DecidableEq, Repr

structure Allocation where
  id : Nat
  amount : Decimal
  capital : Decimal
  deriving DecidableEq, Repr

/-- A total over the accounts, each amount applied to the capital of its account. -/
def allocate (apply : Decimal → Decimal → Decimal) (accounts : List Holding) (total : Decimal) :
    List Allocation :=
  let totalPct := (accounts.map (·.ownershipPct)).sum
  if total = 0 ∨ totalPct = 0 then accounts.map fun a => ⟨a.id, 0, a.capital⟩
  else
    accounts.zipWith (fun a amount => ⟨a.id, amount, apply a.capital amount⟩)
      (apportion (fun a => quantize 2 .halfUp (total * a.ownershipPct / totalPct)) total 0 accounts)

def allocatePnl (accounts : List Holding) (fundPnl : Decimal) : List Allocation :=
  allocate (· + ·) accounts fundPnl

def allocateFees (accounts : List Holding) (totalFee : Decimal) : List Allocation :=
  allocate (· - ·) accounts totalFee

def recomputeOwnership (accounts : List (Nat × Decimal)) : List (Nat × Decimal) :=
  let total := (accounts.map (·.2)).sum
  if total ≤ 0 then
    accounts.map fun (id, _) => (id, quantize 6 .halfUp (1 / accounts.length))
  else
    accounts.zipWith (fun (id, _) pct => (id, pct))
      (apportion (fun (_, capital) => quantize 6 .halfUp (capital / total)) 1 0 accounts)

/-- `amount / nav_per_share`, which has 28 digits. -/
def sharesAt (amount navPerShare : Decimal) : Decimal := Context.default.divide amount navPerShare

def computeSubscriptionShares (amount navPerShare : Decimal) : Decimal :=
  if navPerShare ≤ 0 then 0 else quantize 6 .halfUp (sharesAt amount navPerShare)

/-- Each account has its own allocation, applied to its own capital. -/
theorem allocate_each {apply : Decimal → Decimal → Decimal} (zero : ∀ capital, apply capital 0 = capital)
    (accounts : List Holding) (total : Decimal) :
    List.Forall₂ (fun a r => r.id = a.id ∧ r.capital = apply a.capital r.amount) accounts
      (allocate apply accounts total) := by
  simp only [allocate]
  split
  · rw [List.forall₂_map_right_iff, List.forall₂_same]
    exact fun a _ => ⟨rfl, (zero a.capital).symm⟩
  · rename_i shared
    clear shared
    generalize parted : apportion _ total 0 accounts = parts
    have lengths : parts.length = accounts.length := by rw [← parted, length_apportion]
    clear parted
    induction accounts generalizing parts with
    | nil => simp
    | cons a rest ih =>
      cases parts with
      | nil => cases lengths
      | cons part parts => exact .cons ⟨rfl, rfl⟩ (ih parts (Nat.succ.inj lengths))

/-! ## `CapitalTransactionService`, and the repositories and the cash that it works on -/

/-! ## The latest rows -/

/-- The rows, with their ids, of the latest date of their investor: `get_latest_by_fund`. -/
def latestByFund (accounts : List CapitalAccountRecord) : List (CapitalAccountRecord × Nat) :=
  accounts.zipIdx.filter fun (a, _) =>
    accounts.all fun b => b.investorId = a.investorId → b.effectiveDate ≤ a.effectiveDate

/-- `get_total_shares`. -/
def totalShares (accounts : List CapitalAccountRecord) : Decimal :=
  ((latestByFund accounts).map (·.1.sharesHeld)).sum

/-- The rows of the latest date of an investor in a class: one of them is what
`get_latest_for_investor` answers. -/
def latestOfClass (accounts : List CapitalAccountRecord) (investorId : UUID) (shareClass : String) :
    List CapitalAccountRecord :=
  let own := accounts.filter fun a => a.investorId = investorId ∧ a.shareClass = shareClass
  own.filter fun a => own.all fun b => b.effectiveDate ≤ a.effectiveDate

def latestForInvestor (accounts : List CapitalAccountRecord) (investorId : UUID)
    (shareClass : String) (tie : Nat) : Option CapitalAccountRecord :=
  let latest := latestOfClass accounts investorId shareClass
  latest[tie % latest.length]?

section Service

variable (env : Env) (session : Option Nat)

/-! ## Statements -/

def insertAccount (subject : Subject) (row : CapitalAccountRecord) : Run Nat := do
  await env (.insertAccount subject)
  let id := (← get).accounts.length
  modify fun db => { db with accounts := db.accounts ++ [row.columns] }.commit session
  await env (.refreshAccount subject)
  return id

def insertTransaction (subject : Subject) (row : CapitalTransactionRecord) : Run Nat := do
  await env (.insertTransaction subject row.transactionType)
  let id := (← get).transactions.length
  modify fun db => { db with transactions := db.transactions ++ [row.columns] }.commit session
  await env (.refreshTransaction subject row.transactionType)
  return id

/-- `credit` and `debit` of the cash service. -/
def moveCash (notes : Option Notes) (m : CashManagement.Movement) : Run Unit := do
  await env (.cash notes .readBalance)
  let cause := CashManagement.Cause.moved m
  let balance := cause.balance ((← get).cash.balance m.account)
  await env (.cash notes .findRow)
  await env (.cash notes .storeRow)
  modify fun db => { db with cash := db.cash.storeBalance m.account balance }.commit session
  await env (.cash notes .insertJournal)
  modify fun db =>
    { db with cash := db.cash.insertJournal (m.entry balance.availableBalance) }.commit session

/-- The ownership that is written by one flush, by account. -/
def writeOwnership (owner : Nat) (changes : List (Nat × Decimal))
    (accounts : List CapitalAccountRecord) : List CapitalAccountRecord :=
  changes.foldl (fun accounts (id, pct) => accounts.modify id fun a =>
    a.withOwnership (a.ownershipPct.hold owner fun _ => pct)) accounts

/-- Without a session the rows are no longer attached to one, and nothing is written. -/
def recomputeAllOwnership (notes : Option Notes) (businessDate : Date) : Run Unit := do
  await env (.latestByFund notes)
  let accounts := latestByFund (← get).accounts
  let ownership := recomputeOwnership (accounts.map fun (a, id) => (id, a.endingCapital))
  let dated := accounts.filter fun (a, _) => a.effectiveDate = businessDate
  match session with
  | none => pure ()
  | some owner =>
    if dated ≠ [] then
      await env (.flushOwnership notes)
      let changed := dated.filter fun (a, id) =>
        (ownership.lookup id).getD 0 ≠ a.ownershipSeen session
      let changes := changed.map fun (_, id) => (id, (ownership.lookup id).getD 0)
      if changed.any fun (a, _) => a.ownershipPct.locked session then throw lockTimeout
      else modify fun db => { db with accounts := writeOwnership owner changes db.accounts }

/-! ## Subscriptions and redemptions -/

structure Processing where
  investorId : UUID
  amount : Decimal
  navPerShare : Decimal
  businessDate : Date
  portfolioId : Option UUID := none
  currency : String := "USD"
  shareClass : String := "default"
  notes : Option Notes := none
  deriving DecidableEq, Repr

/-- The cash that goes with an operation, where there is a portfolio and a cash service. -/
def Processing.movement (p : Processing) (portfolioId : UUID)
    (entryType : CashManagement.JournalEntryType) (flowType : CashManagement.CashFlowType)
    (transactionId : Nat) (description : String) : CashManagement.Movement :=
  ⟨⟨portfolioId, p.currency⟩, entryType, p.amount, flowType, some (.other s!"{transactionId}"),
    description⟩

def Processing.subscribed (p : Processing) (existing : Option CapitalAccountRecord) :
    CapitalAccountRecord :=
  let shares := computeSubscriptionShares p.amount p.navPerShare
  match existing with
  | some a =>
    { investorId := p.investorId, shareClass := p.shareClass
      beginningCapital := a.endingCapital, contributions := p.amount
      endingCapital := a.endingCapital + p.amount, sharesHeld := a.sharesHeld + shares
      effectiveDate := p.businessDate, notes := p.notes }
  | none =>
    { investorId := p.investorId, shareClass := p.shareClass
      contributions := p.amount, endingCapital := p.amount, sharesHeld := shares
      effectiveDate := p.businessDate, notes := p.notes }

def Processing.redeemed (p : Processing) (existing : CapitalAccountRecord) : CapitalAccountRecord :=
  { investorId := p.investorId, shareClass := existing.shareClass
    beginningCapital := existing.endingCapital, withdrawals := p.amount
    endingCapital := existing.endingCapital - p.amount
    sharesHeld := Context.default.subtract existing.sharesHeld (sharesAt p.amount p.navPerShare)
    effectiveDate := p.businessDate, notes := p.notes }

/-- What a redemption checks before it writes. -/
def Processing.checkRedemption (p : Processing) (existing : Option CapitalAccountRecord) :
    Except Exc CapitalAccountRecord := do
  match existing with
  | none => .error (.valueError s!"No capital account found for investor {p.investorId.str}")
  | some a =>
    if a.endingCapital < p.amount then
      .error (.valueError s!"Redemption {p.amount} exceeds ending capital {a.endingCapital}")
    else if p.navPerShare ≤ 0 then
      .error (.valueError s!"Cannot redeem with non-positive NAV per share: {p.navPerShare}")
    else if Context.default.subtract a.sharesHeld (sharesAt p.amount p.navPerShare) < 0 then
      .error (.valueError (s!"Shares to redeem ({sharesAt p.amount p.navPerShare}) exceed shares held " ++
        s!"({a.sharesHeld}) for investor {p.investorId.str}"))
    else .ok a

/-- What follows the insert of the account, for both operations. -/
def Processing.complete (p : Processing) (accountId : Nat) (type : TransactionType)
    (amount shares : Decimal) (movement : UUID → Nat → CashManagement.Movement) : Run Unit := do
  let transactionId ← insertTransaction env session (.processing p.notes)
    { capitalAccountId := accountId, investorId := p.investorId, transactionType := type
      amount, shares, navPerShare := p.navPerShare, businessDate := p.businessDate
      notes := p.notes }
  match env.hasCashService, p.portfolioId with
  | true, some portfolioId => moveCash env session p.notes (movement portfolioId transactionId)
  | _, _ => pure ()
  recomputeAllOwnership env session p.notes p.businessDate
  await env (.publishCapital p.notes)

def processSubscription (p : Processing) : Run Unit := do
  await env (.latestForInvestor p.notes)
  let existing := latestForInvestor (← get).accounts p.investorId p.shareClass (env.tie p.notes)
  let accountId ← insertAccount env session (.processing p.notes) (p.subscribed existing)
  p.complete env session accountId .subscription p.amount
    (computeSubscriptionShares p.amount p.navPerShare) fun portfolioId transactionId =>
      p.movement portfolioId .credit .subscription transactionId
        s!"Subscription from investor {p.investorId.str}"

def processRedemption (p : Processing) : Run Unit := do
  await env (.latestForInvestor p.notes)
  let existing ← ofExcept (p.checkRedemption
    (latestForInvestor (← get).accounts p.investorId p.shareClass (env.tie p.notes)))
  let accountId ← insertAccount env session (.processing p.notes) (p.redeemed existing)
  p.complete env session accountId .redemption (-p.amount) (-sharesAt p.amount p.navPerShare)
    fun portfolioId transactionId =>
      p.movement portfolioId .debit .redemption transactionId
        s!"Redemption for investor {p.investorId.str}"

/-! ## Daily allocation -/

structure DailyAllocation where
  fundPnl : Decimal
  managementFee : Decimal
  performanceFee : Decimal
  navPerShare : Decimal
  businessDate : Date
  classFees : Option (List (String × (Decimal × Decimal))) := none
  deriving DecidableEq, Repr

/-- The fees of an account, and the capital that they leave. -/
structure Charge where
  id : Nat
  management : Decimal
  performance : Decimal
  capital : Decimal
  deriving DecidableEq, Repr

/-- The management fee, and then the performance fee on what it leaves. -/
def chargeFees (accounts : List Holding) (managementFee performanceFee : Decimal) : List Charge :=
  let mgmtResults := allocateFees accounts managementFee
  let postMgmt := accounts.zipWith (fun a r => ⟨a.id, r.capital, a.ownershipPct⟩) mgmtResults
  let perfResults := allocateFees postMgmt performanceFee
  mgmtResults.zipWith (fun m p => ⟨m.id, m.amount, p.amount, p.capital⟩) perfResults

/-- The ownership within the class, where the class has capital. -/
def intraClass (accounts : List Holding) : List Holding :=
  let total := (accounts.map (·.capital)).sum
  if 0 < total then accounts.map fun a => { a with ownershipPct := a.capital / total } else accounts

/-- The holdings after the P&L, with the classes of their accounts. -/
def DailyAllocation.charges (d : DailyAllocation) (postPnl : List (Holding × String)) :
    List Charge :=
  match d.classFees with
  | none | some [] => chargeFees (postPnl.map (·.1)) d.managementFee d.performanceFee
  | some fees =>
    (postPnl.map (·.2)).eraseDups.flatMap fun cls =>
      let (management, performance) := (fees.lookup cls).getD (0, 0)
      chargeFees (intraClass ((postPnl.filter (·.2 = cls)).map (·.1))) management performance

/-- What is computed for an account before any row is written. -/
structure Snapshot where
  account : CapitalAccountRecord
  id : Nat
  pnl : Decimal
  charge : Charge
  ownershipPct : Decimal
  deriving DecidableEq, Repr

/-- `d[key]`, for a result that is kept by account. -/
def resultOf {α : Type} (key : α → Nat) (results : List α) (id : Nat) : Except Exc α :=
  match results.find? (key · = id) with
  | some r => .ok r
  | none => .error (.keyError s!"{id}")

def DailyAllocation.snapshots (d : DailyAllocation)
    (current : List (CapitalAccountRecord × Nat)) : Except Exc (List Snapshot) := do
  let inputs := current.map fun (a, id) => (⟨id, a.endingCapital, a.ownershipSeen session⟩ : Holding)
  let pnlResults := allocatePnl inputs d.fundPnl
  let postPnl ← current.mapM fun (a, id) => do
    let r ← resultOf Allocation.id pnlResults id
    return (⟨id, r.capital, a.ownershipSeen session⟩, a.shareClass)
  let charges := d.charges postPnl
  let finalCapitals ← current.mapM fun (_, id) => do
    return (id, (← resultOf Charge.id charges id).capital)
  let ownership := recomputeOwnership finalCapitals
  current.mapM fun (a, id) => do
    let r ← resultOf Allocation.id pnlResults id
    let charge ← resultOf Charge.id charges id
    return ⟨a, id, r.amount, charge, (ownership.lookup id).getD 0⟩

def DailyAllocation.row (d : DailyAllocation) (s : Snapshot) : CapitalAccountRecord :=
  { investorId := s.account.investorId, shareClass := s.account.shareClass
    beginningCapital := s.account.endingCapital, pnlAllocation := s.pnl
    managementFeeAllocation := s.charge.management, performanceFeeAllocation := s.charge.performance
    endingCapital := s.charge.capital, ownershipPct := ⟨some (numeric 6 s.ownershipPct), none⟩
    sharesHeld := s.account.sharesHeld, effectiveDate := d.businessDate }

def DailyAllocation.transaction (d : DailyAllocation) (s : Snapshot) (accountId : Nat)
    (type : TransactionType) (amount : Decimal) : CapitalTransactionRecord :=
  { capitalAccountId := accountId, investorId := s.account.investorId, transactionType := type
    amount, shares := 0, navPerShare := d.navPerShare, businessDate := d.businessDate }

/-- The new row of one account and its transactions. -/
def DailyAllocation.write (d : DailyAllocation) (s : Snapshot) : Run Unit := do
  let subject := Subject.allocating s.id
  let accountId ← insertAccount env session subject (d.row s)
  [(TransactionType.pnlAllocation, s.pnl), (.mgmtFeeAllocation, s.charge.management),
    (.perfFeeAllocation, s.charge.performance)].forM fun (type, amount) => do
      if amount ≠ 0 then
        let _ ← insertTransaction env session subject (d.transaction s accountId type amount)

def allocateDaily (d : DailyAllocation) : Run Nat := do
  await env (.latestByFund none)
  let current := latestByFund (← get).accounts
  if current = [] then return 0
  let snapshots ← ofExcept (d.snapshots session current)
  snapshots.forM (d.write env session)
  await env (.publishCapital none)
  return snapshots.length

end Service

/-! ## What the operations leave alone -/

section Keeps

variable {env : Env} {session : Option Nat} {inv : Database → Prop}

theorem keeps_insertAccount (calm : Undisturbed session inv) (subject : Subject)
    (row : CapitalAccountRecord) : Keeps inv (insertAccount env session subject row) :=
  (keeps_await _).bind fun _ => keeps_get.bind fun _ =>
    (keeps_modify fun db held => calm.commit _ (calm.accounts db _ held)).bind fun _ =>
      (keeps_await _).bind fun _ => .pure _

theorem keeps_insertTransaction (calm : Undisturbed session inv) (subject : Subject)
    (row : CapitalTransactionRecord) : Keeps inv (insertTransaction env session subject row) :=
  (keeps_await _).bind fun _ => keeps_get.bind fun _ =>
    (keeps_modify fun db held => calm.commit _ (calm.transactions db _ held)).bind fun _ =>
      (keeps_await _).bind fun _ => .pure _

theorem keeps_moveCash (calm : Undisturbed session inv) (notes : Option Notes)
    (m : CashManagement.Movement) : Keeps inv (moveCash env session notes m) :=
  (keeps_await _).bind fun _ => keeps_get.bind fun _ => (keeps_await _).bind fun _ =>
    (keeps_await _).bind fun _ =>
      (keeps_modify fun db held => calm.commit _ (calm.cash db _ held)).bind fun _ =>
        (keeps_await _).bind fun _ =>
          keeps_modify fun db held => calm.commit _ (calm.cash db _ held)

theorem keeps_recomputeAllOwnership (calm : Undisturbed session inv) (notes : Option Notes)
    (businessDate : Date) : Keeps inv (recomputeAllOwnership env session notes businessDate) := by
  refine (keeps_await _).bind fun _ => keeps_get.bind fun db => ?_
  cases session with
  | none => exact .pure _
  | some owner =>
    dsimp only
    split
    · refine (keeps_await _).bind fun _ => ?_
      split
      · exact keeps_throw _
      · exact keeps_modify fun db held => calm.accounts db _ held
    · exact .pure _

theorem keeps_complete (calm : Undisturbed session inv) (p : Processing) (accountId : Nat)
    (type : TransactionType) (amount shares : Decimal)
    (movement : UUID → Nat → CashManagement.Movement) :
    Keeps inv (p.complete env session accountId type amount shares movement) := by
  have rest : Keeps inv (recomputeAllOwnership env session p.notes p.businessDate >>= fun _ =>
      await env (.publishCapital p.notes)) :=
    (keeps_recomputeAllOwnership calm _ _).bind fun _ => keeps_await _
  refine (keeps_insertTransaction calm _ _).bind fun transactionId => ?_
  dsimp only
  split
  · exact (keeps_moveCash calm _ _).bind fun _ => rest
  · exact rest

theorem keeps_processSubscription (calm : Undisturbed session inv) (p : Processing) :
    Keeps inv (processSubscription env session p) :=
  (keeps_await _).bind fun _ => keeps_get.bind fun _ =>
    (keeps_insertAccount calm _ _).bind fun _ => keeps_complete calm _ _ _ _ _ _

theorem keeps_processRedemption (calm : Undisturbed session inv) (p : Processing) :
    Keeps inv (processRedemption env session p) :=
  (keeps_await _).bind fun _ => keeps_get.bind fun _ => (keeps_ofExcept _).bind fun _ =>
    (keeps_insertAccount calm _ _).bind fun _ => keeps_complete calm _ _ _ _ _ _

theorem keeps_write (calm : Undisturbed session inv) (d : DailyAllocation) (s : Snapshot) :
    Keeps inv (d.write env session s) := by
  refine (keeps_insertAccount calm _ _).bind fun accountId => .forM (fun entry => ?_) _
  dsimp only
  split
  · exact (keeps_insertTransaction calm _ _).bind fun _ => .pure _
  · exact .pure _

theorem keeps_allocateDaily (calm : Undisturbed session inv) (d : DailyAllocation) :
    Keeps inv (allocateDaily env session d) := by
  refine (keeps_await _).bind fun _ => keeps_get.bind fun db => ?_
  dsimp only
  split
  · exact .pure _
  · exact (keeps_ofExcept _).bind fun snapshots =>
      (Keeps.forM (fun s => keeps_write calm d s) snapshots).bind fun _ =>
        (keeps_await _).bind fun _ => .pure _

end Keeps

end MiniHedge.CapitalAccounts
