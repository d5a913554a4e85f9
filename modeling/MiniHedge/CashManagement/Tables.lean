import MiniHedge.Library.Mapping
import MiniHedge.Library.Rows
import MiniHedge.Library.StableSort
import MiniHedge.Python.Decimal

/-! The cash tables: balances by account, the journal, and the settlements.

An account is a currency of a portfolio. Amounts are kept with four places.
-/

set_option autoImplicit false

namespace MiniHedge.CashManagement

open MiniHedge.Python MiniHedge.Library

/-- The number of a day, from 1 for the first Monday of the calendar. -/
abbrev Date := Int

structure Account where
  portfolioId : UUID
  currency : String
  deriving DecidableEq, Repr

structure CashBalance where
  availableBalance : Decimal := 0
  pendingInflows : Decimal := 0
  pendingOutflows : Decimal := 0
  deriving DecidableEq, Repr

/-- `available_balance + pending_inflows - pending_outflows`. -/
def CashBalance.totalBalance (b : CashBalance) : Decimal :=
  b.availableBalance + b.pendingInflows - b.pendingOutflows

def CashBalance.columns (b : CashBalance) : CashBalance :=
  ⟨numeric 4 b.availableBalance, numeric 4 b.pendingInflows, numeric 4 b.pendingOutflows⟩

inductive JournalEntryType where
  | credit
  | debit
  deriving DecidableEq, Repr

inductive CashFlowType where
  | tradeSettlement
  | dividend
  | fee
  | subscription
  | redemption
  | interest
  | transfer
  deriving DecidableEq, Repr

/-- What a journal entry refers to. -/
inductive Reference where
  | settlement (id : Nat)
  | other (text : String)
  deriving DecidableEq, Repr

structure JournalEntry where
  account : Account
  entryType : JournalEntryType
  amount : Decimal
  balanceAfter : Decimal
  flowType : CashFlowType
  referenceId : Option Reference
  description : Option String
  deriving DecidableEq, Repr

namespace JournalEntry

def columns (e : JournalEntry) : JournalEntry :=
  { e with amount := numeric 4 e.amount, balanceAfter := numeric 4 e.balanceAfter }

/-- The amount with the sign of the entry. -/
def signed (e : JournalEntry) : Decimal :=
  match e.entryType with
  | .credit => e.amount
  | .debit => -e.amount

end JournalEntry

inductive SettlementStatus where
  | pending
  | settled
  | failed
  | cancelled
  deriving DecidableEq, Repr

structure Settlement where
  id : Nat
  account : Account
  orderId : Option UUID
  instrumentId : String
  settlementAmount : Decimal
  tradeDate : Date
  settlementDate : Date
  status : SettlementStatus := .pending
  deriving DecidableEq, Repr

structure Tables where
  balances : List (Account × CashBalance) := []
  journal : List JournalEntry := []
  settlements : Numbered Settlement.id := .empty
  deriving DecidableEq

namespace Tables

variable (t : Tables)

/-- `get_by_portfolio_currency`. -/
def balance (account : Account) : Option CashBalance := t.balances.lookup account

def storeBalance (account : Account) (b : CashBalance) : Tables :=
  { t with balances := setItem account b.columns t.balances }

def insertJournal (e : JournalEntry) : Tables := { t with journal := t.journal ++ [e.columns] }

def insertSettlement (s : Settlement) : Tables :=
  let amount := numeric 4 s.settlementAmount
  let row := { s with id := t.settlements.rows.length, settlementAmount := amount }
  { t with settlements := t.settlements.append row rfl }

def setStatus (status : SettlementStatus) (id : Nat) : Tables :=
  { t with settlements := t.settlements.change (fun s => { s with status }) (fun _ => rfl) id }

/-- `get_due_settlements`. -/
def dueSettlements (asOf : Date) : List Settlement :=
  sortOn (·.settlementDate)
    (t.settlements.rows.filter fun s => s.status = .pending ∧ s.settlementDate ≤ asOf)

/-- What `get_balances` reports for the account, zero where it has no row. -/
def projected (account : Account) : Decimal := ((t.balance account).getD {}).totalBalance

def available (account : Account) : Decimal := ((t.balance account).getD {}).availableBalance

variable {t} in
theorem mem_setStatus {status : SettlementStatus} {id : Nat} {row : Settlement} :
    row ∈ (t.setStatus status id).settlements.rows ↔
      ∃ old ∈ t.settlements.rows, row = if old.id = id then { old with status } else old :=
  Numbered.mem_change (fun s : Settlement => { s with status }) fun _ => rfl

theorem balance_storeBalance (account other : Account) (b : CashBalance) :
    (t.storeBalance account b).balance other =
      if other = account then some b.columns else t.balance other :=
  lookup_setItem account b.columns t.balances other

theorem projected_storeBalance (account other : Account) (b : CashBalance) :
    (t.storeBalance account b).projected other =
      if other = account then b.columns.totalBalance else t.projected other := by
  unfold projected
  rw [balance_storeBalance]
  split <;> rfl

theorem available_storeBalance (account other : Account) (b : CashBalance) :
    (t.storeBalance account b).available other =
      if other = account then numeric 4 b.availableBalance else t.available other := by
  unfold available
  rw [balance_storeBalance]
  split <;> rfl

end Tables

end MiniHedge.CashManagement
