import MiniHedge.CashManagement.Tables
import MiniHedge.Library.Raising

/-! `CashManagementService`, at the granularity of database statements.

A call is the list of the statements that it is still to make; a statement reads
or writes the tables, and what it has read decides which statements come next.
Every write is committed at once, whatever session is given: an upsert reads
whether there is a row before it writes, and a session does not keep rows that
nobody holds.
-/

set_option autoImplicit false

namespace MiniHedge.CashManagement

open MiniHedge.Python MiniHedge.Library

/-! ## Settlement dates -/

/-- Monday is 0. -/
def weekday (d : Date) : Int := (d + 6) % 7

def settlementConventions : String → Option Nat
  | "US" | "CA" | "GB" => some 1
  | "DE" | "FR" | "CH" | "JP" | "KR" | "AU" => some 2
  | _ => none

def defaultSettlementDays : Nat := 2

/-- The first day after this one that is not on a weekend. -/
def nextBusinessDay (d : Date) : Date :=
  if weekday (d + 1) = 5 then d + 3 else if weekday (d + 1) = 6 then d + 2 else d + 1

def calculateSettlementDate (tradeDate : Date) (country : String) : Date :=
  nextBusinessDay^[(settlementConventions country).getD defaultSettlementDays] tradeDate

/-! ## Statements -/

/-- What `credit` and `debit` are called with. -/
structure Movement where
  account : Account
  entryType : JournalEntryType
  amount : Decimal
  flowType : CashFlowType
  referenceId : Option Reference
  description : Option String
  deriving DecidableEq, Repr

structure SettlementRequest where
  account : Account
  orderId : Option UUID
  instrumentId : String
  amount : Decimal
  tradeDate : Date
  deriving DecidableEq, Repr

def SettlementRequest.row (r : SettlementRequest) (settlementDate : Date) : Settlement :=
  ⟨0, r.account, r.orderId, r.instrumentId, r.amount, r.tradeDate, settlementDate, .pending⟩

/-- What a balance is written for. -/
inductive Cause where
  | moved (m : Movement)
  | registered (r : SettlementRequest)
  deriving DecidableEq, Repr

def Cause.account : Cause → Account
  | .moved m => m.account
  | .registered r => r.account

/-- The balance that is written after `record` has been read. -/
def Cause.balance (record : Option CashBalance) : Cause → CashBalance
  | .moved m =>
    let held := record.getD {}
    match m.entryType with
    | .credit => { held with availableBalance := held.availableBalance + m.amount }
    | .debit => { held with availableBalance := held.availableBalance - m.amount }
  | .registered r =>
    let held := record.getD {}
    if 0 < r.amount then { held with pendingInflows := held.pendingInflows + r.amount }
    else { held with pendingOutflows := held.pendingOutflows + |r.amount| }

def Movement.signed (m : Movement) : Decimal :=
  match m.entryType with
  | .credit => m.amount
  | .debit => -m.amount

theorem Cause.balance_moved (m : Movement) (record : Option CashBalance) :
    (Cause.moved m).balance record = { record.getD {} with
      availableBalance := (record.getD {}).availableBalance + m.signed } := by
  obtain ⟨account, entryType, amount, flowType, referenceId, description⟩ := m
  cases entryType with
  | credit => rfl
  | debit => simp [Cause.balance, Movement.signed, sub_eq_add_neg]

/-- The entry that follows the write of a balance. -/
def Movement.entry (m : Movement) (newBalance : Decimal) : JournalEntry :=
  ⟨m.account, m.entryType, m.amount, newBalance, m.flowType, m.referenceId, m.description⟩

inductive Statement where
  | getByTicker (r : SettlementRequest)
  | insertSettlement (r : SettlementRequest) (settlementDate : Date)
  | readBalance (cause : Cause)
  | findRow (cause : Cause) (record : Option CashBalance)
  | storeRow (cause : Cause) (record : Option CashBalance) (found : Bool)
  | insertJournal (e : JournalEntry)
  | getDue (asOf : Date)
  | settle (id : Nat)
  | markPending (id : Nat)
  deriving DecidableEq, Repr

abbrev Program := List Statement

def Statement.isUpsert : Statement → Bool
  | .findRow .. | .storeRow .. => true
  | _ => false

def Statement.isJournal : Statement → Bool
  | .insertJournal _ => true
  | _ => false

/-! ## Calls -/

def credit (account : Account) (amount : Decimal) (flowType : CashFlowType)
    (referenceId : Option Reference) (description : Option String) : Program :=
  [.readBalance (.moved ⟨account, .credit, amount, flowType, referenceId, description⟩)]

def debit (account : Account) (amount : Decimal) (flowType : CashFlowType)
    (referenceId : Option Reference) (description : Option String) : Program :=
  [.readBalance (.moved ⟨account, .debit, amount, flowType, referenceId, description⟩)]

def createSettlement (r : SettlementRequest) : Program := [.getByTicker r]

def processDueSettlements (asOf : Date) : Program := [.getDue asOf]

def retrySettlement (id : Nat) : Program := [.markPending id]

/-- The body of the loop over the settlements that are due. -/
def Settlement.process (s : Settlement) : Program :=
  let description := s!"Settlement: {s.instrumentId}"
  (if 0 < s.settlementAmount then
    credit s.account s.settlementAmount .tradeSettlement (some (.settlement s.id)) description
  else
    debit s.account |s.settlementAmount| .tradeSettlement (some (.settlement s.id)) description) ++
  [.settle s.id]

/-- A movement that refers to the settlement, and then its status. -/
theorem process_shape (s : Settlement) : ∃ m : Movement,
    m.referenceId = some (.settlement s.id) ∧
      s.process = [.readBalance (.moved m), .settle s.id] := by
  unfold Settlement.process credit debit
  split
  · exact ⟨_, rfl, rfl⟩
  · exact ⟨_, rfl, rfl⟩

/-- A security master whose instruments are all American. -/
def american (_ : String) : Except Exc (Option String) := .ok (some "US")

section Execute

-- the country of an instrument, from the security master
variable (getByTicker : String → Except Exc (Option String))

/-- A statement, and the statements that come next. -/
def Statement.execute (t : Tables) : Statement → Except Exc (Tables × Program)
  | .getByTicker r => do
    match ← getByTicker r.instrumentId with
    | none | some "" => .error (.valueError
        (s!"Instrument {r.instrumentId} has no country set — " ++
          "cannot determine settlement convention"))
    | some country =>
      .ok (t, [.insertSettlement r (calculateSettlementDate r.tradeDate country),
        .readBalance (.registered r)])
  | .insertSettlement r settlementDate =>
    .ok (t.insertSettlement (r.row settlementDate), [])
  | .readBalance cause =>
    let record := t.balance cause.account
    match cause with
    | .moved m => .ok (t, [.findRow cause record,
        .insertJournal (m.entry (cause.balance record).availableBalance)])
    | .registered _ => .ok (t, [.findRow cause record])
  | .findRow cause record => .ok (t, [.storeRow cause record (t.balance cause.account).isSome])
  | .storeRow cause record found =>
    -- the index on portfolio and currency is unique
    if !found ∧ (t.balance cause.account).isSome then .error .integrityError
    else .ok (t.storeBalance cause.account (cause.balance record), [])
  | .insertJournal e => .ok (t.insertJournal e, [])
  | .getDue asOf => .ok (t, (t.dueSettlements asOf).flatMap Settlement.process)
  | .settle id => .ok (t.setStatus .settled id, [])
  | .markPending id => .ok (t.setStatus .pending id, [])

/-- The next statement of a program; an exception ends the call. -/
def Program.next (t : Tables) (ending : Ending) : Program → Option (Tables × Program)
  | [] => none
  | statement :: rest =>
    match ending, statement.execute getByTicker t with
    | .raisedBefore, _ | _, .error _ => some (t, [])
    | .raisedAfter, .ok (t', _) => some (t', [])
    | .returned, .ok (t', more) => some (t', more ++ rest)

end Execute

/-! ## What a statement does -/

/-- The effect of each statement and what it leads to. -/
inductive Executed (t : Tables) : Statement → Tables → Program → Prop where
  | looked (r : SettlementRequest) (settlementDate : Date) : Executed t (.getByTicker r) t
      [.insertSettlement r settlementDate, .readBalance (.registered r)]
  | inserted (r : SettlementRequest) (settlementDate : Date) :
      Executed t (.insertSettlement r settlementDate) (t.insertSettlement (r.row settlementDate)) []
  | readMoved (m : Movement) : Executed t (.readBalance (.moved m)) t
      [.findRow (.moved m) (t.balance m.account), .insertJournal
        (m.entry ((Cause.moved m).balance (t.balance m.account)).availableBalance)]
  | readRegistered (r : SettlementRequest) : Executed t (.readBalance (.registered r)) t
      [.findRow (.registered r) (t.balance r.account)]
  | found (cause : Cause) (record : Option CashBalance) : Executed t (.findRow cause record) t
      [.storeRow cause record (t.balance cause.account).isSome]
  | stored (cause : Cause) (record : Option CashBalance) (found : Bool)
      (free : found = true ∨ t.balance cause.account = none) : Executed t (.storeRow cause record found)
        (t.storeBalance cause.account (cause.balance record)) []
  | journaled (e : JournalEntry) : Executed t (.insertJournal e) (t.insertJournal e) []
  | due (asOf : Date) :
      Executed t (.getDue asOf) t ((t.dueSettlements asOf).flatMap Settlement.process)
  | settled (id : Nat) : Executed t (.settle id) (t.setStatus .settled id) []
  | pended (id : Nat) : Executed t (.markPending id) (t.setStatus .pending id) []

section Inversion

variable {getByTicker : String → Except Exc (Option String)} {t t' : Tables} {ending : Ending}
  {p p' : Program}

theorem Statement.executed {statement : Statement} {more : Program}
    (ran : statement.execute getByTicker t = .ok (t', more)) : Executed t statement t' more := by
  cases statement with
  | getByTicker r =>
    simp only [Statement.execute] at ran
    obtain ⟨country, -, decided⟩ := bind_eq_ok.mp ran
    split at decided <;> cases decided
    exact .looked r _
  | insertSettlement r settlementDate =>
    cases ran
    exact .inserted r settlementDate
  | readBalance cause =>
    cases cause with
    | moved m =>
      cases ran
      exact .readMoved m
    | registered r =>
      cases ran
      exact .readRegistered r
  | findRow cause record =>
    cases ran
    exact .found cause record
  | storeRow cause record found =>
    simp only [Statement.execute] at ran
    split at ran
    · cases ran
    · rename_i free
      cases ran
      refine .stored cause record found ?_
      cases found
      · simpa using free
      · exact .inl rfl
  | insertJournal e =>
    cases ran
    exact .journaled e
  | getDue asOf =>
    cases ran
    exact .due asOf
  | settle id =>
    cases ran
    exact .settled id
  | markPending id =>
    cases ran
    exact .pended id

/-- A turn of a program: the call ends without effect, or the statement is
executed and the call goes on or ends. -/
theorem Program.next_cases (moved : p.next getByTicker t ending = some (t', p')) :
    ∃ statement rest, p = statement :: rest ∧
      ((t' = t ∧ p' = [] ∧ (ending = .raisedBefore ∨
          ∃ e, statement.execute getByTicker t = .error e)) ∨
        ∃ more, Executed t statement t' more ∧
          (ending = .returned ∧ p' = more ++ rest ∨ ending = .raisedAfter ∧ p' = [])) := by
  cases p with
  | nil => cases moved
  | cons statement rest =>
    refine ⟨statement, rest, rfl, ?_⟩
    cases ran : statement.execute getByTicker t with
    | error e =>
      have ended : t = t' ∧ [] = p' := by
        cases ending <;> simpa [Program.next, ran] using moved
      exact .inl ⟨ended.1.symm, ended.2.symm, .inr ⟨e, rfl⟩⟩
    | ok done =>
      obtain ⟨after, more⟩ := done
      have executed := Statement.executed ran
      cases ending with
      | raisedBefore =>
        cases moved
        exact .inl ⟨rfl, rfl, .inl rfl⟩
      | returned =>
        simp only [Program.next, ran, Option.some.injEq, Prod.mk.injEq] at moved
        obtain ⟨rfl, rfl⟩ := moved
        exact .inr ⟨more, executed, .inl ⟨rfl, rfl⟩⟩
      | raisedAfter =>
        simp only [Program.next, ran, Option.some.injEq, Prod.mk.injEq] at moved
        obtain ⟨rfl, rfl⟩ := moved
        exact .inr ⟨more, executed, .inr ⟨rfl, rfl⟩⟩

end Inversion

end MiniHedge.CashManagement
