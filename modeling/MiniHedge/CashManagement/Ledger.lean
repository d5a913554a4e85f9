import MiniHedge.CashManagement.Service
import MiniHedge.Library.Interleaving
import Mathlib.Data.List.Perm.Basic

/-! The balance of an account against its journal, with calls that take turns.

A call writes the balance and then the entry. Between the two it is outstanding
on the account, and the balance is ahead of the journal by the amount.
-/

set_option autoImplicit false

namespace MiniHedge.CashManagement

open MiniHedge.Python MiniHedge.Library

/-! ## The journal -/

/-- Each entry has the balance of the one before it plus its own amount. -/
def Chained : Decimal → List JournalEntry → Prop
  | _, [] => True
  | b, e :: rest => e.balanceAfter = b + e.signed ∧ Chained e.balanceAfter rest

theorem chained_append {b : Decimal} {l : List JournalEntry} {e : JournalEntry} :
    Chained b (l ++ [e]) ↔
      Chained b l ∧ e.balanceAfter = b + (l.map (·.signed)).sum + e.signed := by
  induction l generalizing b with
  | nil => simp [Chained]
  | cons first rest ih =>
    rw [List.cons_append, Chained, Chained, ih, List.map_cons, List.sum_cons, and_assoc]
    refine and_congr_right fun own => ?_
    rw [own, add_assoc b]

namespace Tables

variable (t : Tables)

/-- The entries of an account, in the order of their writes. -/
def journalOf (account : Account) : List JournalEntry := t.journal.filter fun e => e.account = account

def journalSum (account : Account) : Decimal := ((t.journalOf account).map (·.signed)).sum

theorem journalOf_insertJournal (e : JournalEntry) (account : Account) :
    (t.insertJournal e).journalOf account =
      t.journalOf account ++ if e.account = account then [e.columns] else [] := by
  unfold journalOf insertJournal
  rw [List.filter_append]
  by_cases own : e.account = account <;> simp [JournalEntry.columns, own]

theorem journalSum_insertJournal (e : JournalEntry) (account : Account) :
    (t.insertJournal e).journalSum account =
      t.journalSum account + if e.account = account then e.columns.signed else 0 := by
  unfold journalSum
  rw [journalOf_insertJournal]
  split <;> simp

end Tables

/-! ## Calls that take turns -/

inductive Operation where
  | credit (account : Account) (amount : Decimal) (flowType : CashFlowType)
      (referenceId : Option Reference) (description : Option String)
  | debit (account : Account) (amount : Decimal) (flowType : CashFlowType)
      (referenceId : Option Reference) (description : Option String)
  | create (r : SettlementRequest)
  | processDue (asOf : Date)
  | retry (id : Nat)
  deriving DecidableEq, Repr

def Operation.program : Operation → Program
  | .credit account amount flowType referenceId description =>
    CashManagement.credit account amount flowType referenceId description
  | .debit account amount flowType referenceId description =>
    CashManagement.debit account amount flowType referenceId description
  | .create r => createSettlement r
  | .processDue asOf => processDueSettlements asOf
  | .retry id => retrySettlement id

def ledger (getByTicker : String → Except Exc (Option String)) : Processes Tables Program Ending where
  advance t _ p ending := p.next getByTicker t ending

namespace Program

/-- The entry that the call is to write next for the account, which has the
balance already. -/
def outstanding (p : Program) (account : Account) : Option JournalEntry :=
  match p with
  | .insertJournal e :: _ => if e.account = account then some e else none
  | _ => none

def weight (account : Account) (p : Program) : Decimal :=
  ((p.outstanding account).map fun e => e.columns.signed).getD 0

/-- No statement that belongs to a write that has begun. -/
def Plain (p : Program) : Prop := ∀ st ∈ p, st.isUpsert = false ∧ st.isJournal = false

/-- A balance that is written for a movement is followed by its entry. -/
def Shaped : Program → Prop
  | [] => True
  | .findRow (.moved m) record :: rest | .storeRow (.moved m) record _ :: rest =>
    ∃ rest', rest = .insertJournal
      (m.entry ((Cause.moved m).balance record).availableBalance) :: rest' ∧ Plain rest'
  | _ :: rest => Plain rest

/-- A balance is written on the available balance that is stored; for a movement,
the column keeps the sum as it keeps its parts, no other call is outstanding on
the account, and the call goes on to its entry. -/
def Undisturbed (t : Tables) (others : List Program) (p : Program) (ending : Ending) : Prop :=
  match p with
  | .storeRow cause record found :: _ =>
    ending ≠ .raisedBefore → (found = true ∨ t.balance cause.account = none) →
      t.available cause.account = (record.getD {}).availableBalance ∧
      match cause with
      | .registered _ => True
      | .moved m => ending ≠ .raisedAfter ∧
          numeric 4 ((record.getD {}).availableBalance + m.signed) =
            (record.getD {}).availableBalance + numeric 4 m.signed ∧
          ∀ q ∈ others, q.outstanding m.account = none
  | .insertJournal _ :: _ => ending ≠ .raisedBefore
  | _ => True

instance (t : Tables) (others : List Program) (ending : Ending) :
    (p : Program) → Decidable (p.Undisturbed t others ending)
  | .storeRow (.moved _) _ _ :: _ =>
    inferInstanceAs (Decidable (_ → _ → _ ∧ _ ∧ _ ∧ ∀ _ ∈ _, _))
  | .storeRow (.registered _) _ _ :: _ => inferInstanceAs (Decidable (_ → _ → _ ∧ True))
  | .insertJournal _ :: _ => inferInstanceAs (Decidable (_ ≠ _))
  | [] | .getByTicker _ :: _ | .insertSettlement .. :: _ | .readBalance _ :: _ | .findRow .. :: _
  | .getDue _ :: _ | .settle _ :: _ | .markPending _ :: _ => isTrue trivial

section Shape

variable {t t' : Tables} {statement : Statement} {p rest more : Program}

theorem Plain.outstanding (plain : p.Plain) (account : Account) : p.outstanding account = none := by
  unfold Program.outstanding
  split
  · rename_i e rest
    have journal := (plain _ List.mem_cons_self).2
    cases journal
  · rfl

theorem plain_process {settlements : List Settlement} :
    Plain (settlements.flatMap Settlement.process) := by
  intro st member
  obtain ⟨s, -, inside⟩ := List.mem_flatMap.mp member
  obtain ⟨m, -, shape⟩ := process_shape s
  rw [shape] at inside
  simp only [List.mem_cons, List.not_mem_nil, or_false] at inside
  rcases inside with rfl | rfl <;> exact ⟨rfl, rfl⟩

theorem Plain.shaped (plain : p.Plain) : p.Shaped := by
  cases p with
  | nil => trivial
  | cons head rest =>
    have tail : Plain rest := fun st member => plain st (List.mem_cons_of_mem _ member)
    have own := (plain head List.mem_cons_self).1
    cases head <;> first | exact tail | cases own

theorem shaped_program (operation : Operation) : operation.program.Shaped := by
  cases operation <;> exact fun _ member => by cases member

theorem Plain.append (first : Plain more) (last : Plain rest) : Plain (more ++ rest) :=
  fun st member => (List.mem_append.mp member).elim (first st) (last st)

theorem Shaped.executed (shaped : Shaped (statement :: rest))
    (executed : Executed t statement t' more) : Shaped (more ++ rest) := by
  cases executed with
  | readMoved m => exact ⟨rest, rfl, shaped⟩
  | found cause record =>
    cases cause with
    | moved m => exact shaped
    | registered r => exact shaped
  | stored cause record found free =>
    cases cause with
    | moved m =>
      obtain ⟨rest', rfl, plain⟩ := shaped
      exact plain
    | registered r => exact Plain.shaped shaped
  | due asOf => exact (plain_process.append shaped).shaped
  | looked r settlementDate =>
    refine Plain.shaped (Plain.append (fun st member => ?_) shaped)
    simp only [List.mem_cons, List.not_mem_nil, or_false] at member
    rcases member with rfl | rfl <;> exact ⟨rfl, rfl⟩
  | readRegistered r => exact shaped
  | inserted | journaled | settled | pended => exact Plain.shaped shaped

/-- What a turn does to the balances and the journal, and what it leaves outstanding. -/
inductive Turned (t : Tables) (p : Program) (ending : Ending) : Tables → Program → Prop where
  | other {t' : Tables} {p' : Program} (balances : t'.balances = t.balances)
      (journal : t'.journal = t.journal) (before : ∀ account, p.outstanding account = none)
      (after : ∀ account, p'.outstanding account = none) : Turned t p ending t' p'
  | dropped (e : JournalEntry) (rest : Program) (entry : p = .insertJournal e :: rest)
      (raised : ending = .raisedBefore) : Turned t p ending t []
  | journaled {p' : Program} (e : JournalEntry) (rest : Program)
      (entry : p = .insertJournal e :: rest)
      (after : ∀ account, p'.outstanding account = none) : Turned t p ending (t.insertJournal e) p'
  | registered {p' : Program} (r : SettlementRequest) (record : Option CashBalance) (found : Bool)
      (rest : Program) (row : p = .storeRow (.registered r) record found :: rest)
      (effective : ending ≠ .raisedBefore) (free : found = true ∨ t.balance r.account = none)
      (after : ∀ account, p'.outstanding account = none) :
      Turned t p ending (t.storeBalance r.account ((Cause.registered r).balance record)) p'
  | moved {p' : Program} (m : Movement) (record : Option CashBalance) (found : Bool)
      (rest : Program) (row : p = .storeRow (.moved m) record found :: rest)
      (effective : ending ≠ .raisedBefore) (free : found = true ∨ t.balance m.account = none)
      (after : ending ≠ .raisedAfter → ∀ account, p'.outstanding account =
        if m.account = account then
          some (m.entry ((Cause.moved m).balance record).availableBalance)
        else none) :
      Turned t p ending (t.storeBalance m.account ((Cause.moved m).balance record)) p'

theorem outstanding_other (other : statement.isJournal = false) (account : Account) :
    outstanding (statement :: rest) account = none := by
  cases statement with
  | insertJournal e => cases other
  | _ => rfl

theorem Shaped.turned {getByTicker : String → Except Exc (Option String)} {ending : Ending}
    {p' : Program} (shaped : p.Shaped) (moved : p.next getByTicker t ending = some (t', p')) :
    Turned t p ending t' p' := by
  obtain ⟨statement, rest, rfl, ⟨rfl, rfl, cut⟩ | ⟨more, executed, ended⟩⟩ := next_cases moved
  · cases journal : statement.isJournal with
    | false => exact .other rfl rfl (outstanding_other journal) fun account => rfl
    | true =>
      cases statement with
      | insertJournal e =>
        refine .dropped e rest rfl ?_
        rcases cut with raised | ⟨_, raised⟩
        · exact raised
        · cases raised
      | _ => cases journal
  · have effective : ending ≠ .raisedBefore := by
      rintro rfl
      simp at ended
    have left : (∀ account, outstanding (more ++ rest) account = none) →
        ∀ account, p'.outstanding account = none := by
      intro continued account
      rcases ended with ⟨-, rfl⟩ | ⟨-, rfl⟩
      · exact continued account
      · rfl
    cases executed with
    | stored cause record found free =>
      cases cause with
      | moved m =>
        obtain ⟨rest', rfl, -⟩ := shaped
        refine .moved m record found _ rfl effective free fun ending_kept account => ?_
        rcases ended with ⟨-, rfl⟩ | ⟨raised, -⟩
        · rfl
        · exact absurd raised ending_kept
      | registered r =>
        exact .registered r record found rest rfl effective free (left (Plain.outstanding shaped))
    | journaled e => exact .journaled e rest rfl (left (Plain.outstanding shaped))
    | readMoved | readRegistered | found | looked =>
      exact .other rfl rfl (fun _ => rfl) (left fun _ => rfl)
    | due asOf =>
      exact .other rfl rfl (fun _ => rfl) (left (plain_process.append shaped).outstanding)
    | inserted | settled | pended =>
      exact .other rfl rfl (fun _ => rfl) (left (Plain.outstanding shaped))

end Shape

end Program

/-! ## What a turn keeps -/

structure Tables.Accounted (t : Tables) : Prop where
  grid : ∀ account, OnGrid 4 (t.available account)
  chained : ∀ account, Chained 0 (t.journalOf account)

/-- The entry that is outstanding is the next one of the journal, and has the
balance that is stored. -/
structure Program.Accounted (t : Tables) (p : Program) : Prop where
  shaped : p.Shaped
  stored : ∀ account, ∀ e ∈ p.outstanding account, e.columns.balanceAfter = t.available account
  next : ∀ account, ∀ e ∈ p.outstanding account,
    e.columns.balanceAfter = t.journalSum account + e.columns.signed

/-- No two calls are outstanding on one account. -/
def Apart (p q : Program) : Prop :=
  ∀ account, p.outstanding account = none ∨ q.outstanding account = none

/-- The balance is ahead of the journal by what is outstanding. -/
def Ahead (t : Tables) (others : List Program) (p : Program) : Prop :=
  ∀ account, t.available account = t.journalSum account +
    (p.weight account + (others.map (Program.weight account)).sum)

section Turn

variable {t t' : Tables} {others : List Program} {p p' : Program} {ending : Ending}

theorem signed_columns_entry (m : Movement) (b : Decimal) :
    (m.entry b).columns.signed = numeric 4 m.signed := by
  unfold JournalEntry.signed Movement.signed
  obtain ⟨account, entryType, amount, flowType, referenceId, description⟩ := m
  cases entryType with
  | credit => rfl
  | debit => exact (numeric_neg 4 amount).symm

theorem weight_none {account : Account} (nothing : p.outstanding account = none) :
    p.weight account = 0 := by
  simp [Program.weight, nothing]

theorem weights_none {account : Account}
    (nothing : ∀ q ∈ others, q.outstanding account = none) :
    (others.map (Program.weight account)).sum = 0 := by
  apply List.sum_eq_zero
  intro w member
  obtain ⟨q, inside, rfl⟩ := List.mem_map.mp member
  exact weight_none (nothing q inside)

theorem available_registered (accounted : t.Accounted) {r : SettlementRequest}
    {record : Option CashBalance}
    (current : t.available r.account = (record.getD {}).availableBalance) (account : Account) :
    (t.storeBalance r.account ((Cause.registered r).balance record)).available account =
      t.available account := by
  rw [Tables.available_storeBalance]
  split
  · rename_i same
    have kept : ((Cause.registered r).balance record).availableBalance =
        (record.getD {}).availableBalance := by
      unfold Cause.balance
      simp only
      split <;> rfl
    rw [kept, ← current, (accounted.grid r.account).numeric_eq, same]
  · rfl

theorem available_moved {m : Movement} {record : Option CashBalance}
    (current : t.available m.account = (record.getD {}).availableBalance)
    (exactly : numeric 4 ((record.getD {}).availableBalance + m.signed) =
      (record.getD {}).availableBalance + numeric 4 m.signed) (account : Account) :
    (t.storeBalance m.account ((Cause.moved m).balance record)).available account =
      t.available account + if m.account = account then numeric 4 m.signed else 0 := by
  rw [Tables.available_storeBalance, Cause.balance_moved]
  by_cases own : account = m.account
  · rw [if_pos own, if_pos own.symm, own, current]
    exact exactly
  · rw [if_neg own, if_neg (Ne.symm own), add_zero]

/-- A turn moves the balance, the journal and what is outstanding by the same. -/
theorem Program.Turned.balanced (turned : p.Turned t ending t' p') (accounted : t.Accounted)
    (undisturbed : p.Undisturbed t others ending) (account : Account) :
    t'.available account - t'.journalSum account - p'.weight account =
      t.available account - t.journalSum account - p.weight account := by
  cases turned with
  | other balances journal before after =>
    rw [weight_none (before account), weight_none (after account)]
    unfold Tables.available Tables.balance Tables.journalSum Tables.journalOf
    rw [balances, journal]
  | dropped e rest entry raised =>
    subst entry
    exact absurd raised undisturbed
  | journaled e rest entry after =>
    subst entry
    rw [weight_none (after account), Tables.journalSum_insertJournal]
    have same : (t.insertJournal e).available account = t.available account := rfl
    have own : Program.weight account (.insertJournal e :: rest) =
        if e.account = account then e.columns.signed else 0 := by
      change ((if e.account = account then some e else none).map _).getD 0 = _
      split <;> rfl
    rw [same, own]
    ring
  | registered r record found rest row effective free after =>
    subst row
    obtain ⟨current, -⟩ := undisturbed effective free
    rw [weight_none (after account), available_registered accounted current]
    rfl
  | moved m record found rest row effective free after =>
    subst row
    obtain ⟨current, goes_on, exactly, -⟩ := undisturbed effective free
    have own : p'.weight account = if m.account = account then numeric 4 m.signed else 0 := by
      unfold Program.weight
      rw [after goes_on]
      split
      · exact signed_columns_entry m _
      · rfl
    rw [available_moved current exactly, own]
    have same : (t.storeBalance m.account ((Cause.moved m).balance record)).journalSum account =
      t.journalSum account := rfl
    have before : Program.weight account (.storeRow (.moved m) record found :: rest) = 0 := rfl
    rw [same, before]
    ring

theorem Program.Shaped.next {getByTicker : String → Except Exc (Option String)} (shaped : p.Shaped)
    (moved : p.next getByTicker t ending = some (t', p')) : p'.Shaped := by
  obtain ⟨statement, rest, rfl, ⟨-, rfl, -⟩ | ⟨more, executed, ⟨-, rfl⟩ | ⟨-, rfl⟩⟩⟩ :=
    Program.next_cases moved
  · trivial
  · exact shaped.executed executed
  · trivial

/-- Calls stay accounted for where balance and journal of their accounts stay. -/
theorem Program.Accounted.same {q : Program} (accounted : q.Accounted t)
    (available : ∀ account, q.outstanding account ≠ none →
      t'.available account = t.available account)
    (journal : ∀ account, q.outstanding account ≠ none →
      t'.journalSum account = t.journalSum account) : q.Accounted t' where
  shaped := accounted.shaped
  stored account e inside := by
    rw [available account (by simp [Option.mem_def.mp inside])]
    exact accounted.stored account e inside
  next account e inside := by
    rw [journal account (by simp [Option.mem_def.mp inside])]
    exact accounted.next account e inside

theorem accounted_of_none (shaped : p'.Shaped) (nothing : ∀ account, p'.outstanding account = none) :
    p'.Accounted t' where
  shaped := shaped
  stored account e inside := by simp [nothing account] at inside
  next account e inside := by simp [nothing account] at inside

/-- A turn that leaves balances and entries as they are. -/
theorem kept_still (accounted : t.Accounted) (shaped : p'.Shaped) (apart : ∀ q ∈ others, q.Accounted t ∧ Apart p q)
    (after : ∀ account, p'.outstanding account = none)
    (available : ∀ account, t'.available account = t.available account)
    (entries : ∀ account, t'.journalOf account = t.journalOf account) :
    t'.Accounted ∧ p'.Accounted t' ∧ ∀ q ∈ others, q.Accounted t' ∧ Apart p' q := by
  have sums : ∀ account, t'.journalSum account = t.journalSum account := fun account => by
    unfold Tables.journalSum
    rw [entries]
  refine ⟨⟨?_, ?_⟩, accounted_of_none shaped after, fun q member => ⟨?_, fun account => .inl (after account)⟩⟩
  · simpa only [available] using accounted.grid
  · simpa only [entries] using accounted.chained
  · exact (apart q member).1.same (fun account _ => available account) fun account _ => sums account

theorem kept_insertJournal {e : JournalEntry} {rest : Program} (accounted : t.Accounted)
    (own : Program.Accounted t (.insertJournal e :: rest)) (shaped : p'.Shaped)
    (apart : ∀ q ∈ others, q.Accounted t ∧ Apart (.insertJournal e :: rest) q)
    (after : ∀ account, p'.outstanding account = none) :
    (t.insertJournal e).Accounted ∧ p'.Accounted (t.insertJournal e) ∧
      ∀ q ∈ others, q.Accounted (t.insertJournal e) ∧ Apart p' q := by
  have written : e ∈ Program.outstanding (.insertJournal e :: rest) e.account := if_pos rfl
  refine ⟨⟨accounted.grid, fun account => ?_⟩, accounted_of_none shaped after,
    fun q member => ⟨?_, fun account => .inl (after account)⟩⟩
  · rw [Tables.journalOf_insertJournal]
    split
    · rename_i same
      -- the entry goes on from the total of those before it
      refine chained_append.mpr ⟨accounted.chained account, ?_⟩
      rw [zero_add, ← same]
      exact own.next e.account e written
    · rw [List.append_nil]
      exact accounted.chained account
  · refine (apart q member).1.same (fun account _ => rfl) fun account busy => ?_
    -- two calls are never at one account, so that the others keep their totals
    have other : e.account ≠ account := by
      rintro rfl
      rcases (apart q member).2 e.account with nothing | nothing
      · rw [nothing] at written
        cases written
      · exact busy nothing
    rw [Tables.journalSum_insertJournal, if_neg other, add_zero]

/-- A movement: the balance is ahead of its entries by the one that is to come. -/
theorem kept_moved {m : Movement} {record : Option CashBalance} (accounted : t.Accounted) (shaped : p'.Shaped)
    (each : ∀ q ∈ others, q.Accounted t)
    (available : ∀ account, (t.storeBalance m.account ((Cause.moved m).balance record)).available account =
      t.available account + if m.account = account then numeric 4 m.signed else 0)
    (nobody : ∀ q ∈ others, q.outstanding m.account = none)
    (level : t.available m.account = t.journalSum m.account)
    (left : ∀ account, p'.outstanding account = if m.account = account
      then some (m.entry ((Cause.moved m).balance record).availableBalance) else none) :
    (t.storeBalance m.account ((Cause.moved m).balance record)).Accounted ∧
      p'.Accounted (t.storeBalance m.account ((Cause.moved m).balance record)) ∧
      ∀ q ∈ others, q.Accounted (t.storeBalance m.account ((Cause.moved m).balance record)) ∧ Apart p' q := by
  refine ⟨⟨fun account => ?_, accounted.chained⟩, ⟨shaped, fun account e inside => ?_,
    fun account e inside => ?_⟩, fun q member => ⟨?_, fun account => ?_⟩⟩
  · rw [available]
    refine (accounted.grid account).add ?_
    split
    · exact onGrid_numeric 4 _
    · exact onGrid_zero
  · rw [Option.mem_def, left] at inside
    split at inside
    · rename_i same
      cases inside
      rw [Tables.available_storeBalance, if_pos same.symm]
      rfl
    · cases inside
  · rw [Option.mem_def, left] at inside
    split at inside
    · rename_i same
      cases inside
      have stored := available m.account
      rw [if_pos rfl, level, Tables.available_storeBalance, if_pos rfl] at stored
      rw [signed_columns_entry, ← same]
      exact stored
    · cases inside
  · refine (each q member).same (fun account busy => ?_) fun account _ => rfl
    have other : m.account ≠ account := by
      rintro rfl
      exact busy (nobody q member)
    rw [available, if_neg other, add_zero]
  · rw [left]
    split
    · rename_i same
      exact .inr (same ▸ nobody q member)
    · exact .inl rfl

theorem Program.Turned.kept (turned : p.Turned t ending t' p') (accounted : t.Accounted)
    (own : p.Accounted t) (shaped : p'.Shaped)
    (apart : ∀ q ∈ others, q.Accounted t ∧ Apart p q)
    (undisturbed : p.Undisturbed t others ending) (ahead : Ahead t others p) :
    t'.Accounted ∧ p'.Accounted t' ∧ ∀ q ∈ others, q.Accounted t' ∧ Apart p' q := by
  cases turned with
  | other balances journal before after =>
    refine kept_still accounted shaped apart after (fun account => ?_) fun account => ?_
    · unfold Tables.available Tables.balance
      rw [balances]
    · unfold Tables.journalOf
      rw [journal]
  | dropped e rest entry raised =>
    subst entry
    exact absurd raised undisturbed
  | journaled e rest entry after =>
    subst entry
    exact kept_insertJournal accounted own shaped apart after
  | registered r record found rest row effective free after =>
    subst row
    obtain ⟨current, -⟩ := undisturbed effective free
    -- a registration leaves what is available as it is
    exact kept_still accounted shaped apart after (available_registered accounted current) fun _ => rfl
  | moved m record found rest row effective free after =>
    subst row
    obtain ⟨current, goes_on, exactly, nobody⟩ := undisturbed effective free
    refine kept_moved accounted shaped (fun q member => (apart q member).1) (available_moved current exactly)
      nobody ?_ (after goes_on)
    -- nobody has an entry to come for the account
    have level := ahead m.account
    rwa [weights_none nobody, weight_none rfl, add_zero, add_zero] at level

end Turn

/-! ## Runs -/

section Runs

variable {getByTicker : String → Except Exc (Option String)}

abbrev LedgerState := Processes.State Tables Program

structure Balanced (s : LedgerState) : Prop where
  holds : Processes.Holds Tables.Accounted (fun t p => Program.Accounted t p) Apart s
  ahead : ∀ account, s.shared.available account - s.shared.journalSum account -
    (s.processes.map (Program.weight account)).sum = 0

theorem balanced_start (operations : List Operation) :
    Balanced ⟨{}, operations.map Operation.program⟩ := by
  have idle : ∀ p ∈ operations.map Operation.program, ∀ account, p.outstanding account = none := by
    intro p member account
    obtain ⟨operation, -, rfl⟩ := List.mem_map.mp member
    cases operation <;> rfl
  refine ⟨⟨⟨fun _ => onGrid_zero, fun _ => trivial⟩, fun p member => ?_, ?_⟩, fun account => ?_⟩
  · refine accounted_of_none ?_ (idle p member)
    obtain ⟨operation, -, rfl⟩ := List.mem_map.mp member
    exact Program.shaped_program operation
  · exact List.pairwise_of_forall_mem_list fun p member q _ account => .inl (idle p member account)
  · rw [weights_none fun p member => idle p member account, sub_zero]
    exact sub_self 0

theorem Balanced.ahead_at {s : LedgerState} (balanced : Balanced s) {index : Nat} {p : Program}
    (found : s.processes[index]? = some p) : Ahead s.shared (s.processes.eraseIdx index) p := by
  intro account
  obtain ⟨inside, rfl⟩ := List.getElem?_eq_some_iff.mp found
  have sums := ((List.getElem_cons_eraseIdx_perm inside).map (Program.weight account)).sum_eq
  rw [List.map_cons, List.sum_cons] at sums
  rw [sums]
  have level := balanced.ahead account
  linarith

theorem Balanced.step {s next : LedgerState} {turn : Processes.Turn Ending} (balanced : Balanced s)
    (undisturbed : Processes.When (fun t others p ending => p.Undisturbed t others ending) s turn)
    (stepped : (ledger getByTicker).system.step s turn = some next) : Balanced next := by
  have met : Processes.When (fun t others p ending =>
      p.Undisturbed t others ending ∧ Ahead t others p) s turn :=
    fun p found => ⟨undisturbed p found, balanced.ahead_at found⟩
  constructor
  · refine Processes.step_keeps (fun p q apart account => (apart account).symm) ?_ balanced.holds met
      stepped
    intro t t' others p p' ending accounted own apart condition advanced
    have turned := own.shaped.turned advanced
    exact turned.kept accounted own (own.shaped.next advanced) apart condition.1 condition.2
  · intro account
    rw [← balanced.ahead account]
    have kept : ∀ (t t' : Tables) (others : List Program) (p p' : Program) (ending : Ending),
        t.Accounted → p.Accounted t → p.Undisturbed t others ending ∧ Ahead t others p →
        (ledger getByTicker).advance t others p ending = some (t', p') →
        t'.available account - t'.journalSum account - p'.weight account =
          t.available account - t.journalSum account - p.weight account :=
      fun t t' others p p' ending accounted own condition advanced =>
        (own.shaped.turned advanced).balanced accounted condition.1 account
    exact Processes.step_balance kept balanced.holds met stepped

/-- In every interleaving of such turns: the journal of each account is chained,
and its balance is the sum of the journal whenever no call is outstanding on it. -/
theorem available_eq_journalSum {operations : List Operation}
    {turns : List (Processes.Turn Ending)} {final : LedgerState}
    (along : (ledger getByTicker).system.Along
      (Processes.When fun t others p ending => p.Undisturbed t others ending)
      ⟨{}, operations.map Operation.program⟩ turns)
    (ran : (ledger getByTicker).system.run ⟨{}, operations.map Operation.program⟩ turns = some final)
    (account : Account) :
    Chained 0 (final.shared.journalOf account) ∧
    ((∀ p ∈ final.processes, p.outstanding account = none) →
      final.shared.available account = final.shared.journalSum account) := by
  have balanced := System.invariant_along
    (fun _ _ _ balanced undisturbed stepped => Balanced.step balanced undisturbed stepped) along ran
    (balanced_start operations)
  refine ⟨balanced.holds.shared.chained account, fun quiet => ?_⟩
  have level := balanced.ahead account
  rw [weights_none quiet, sub_zero] at level
  exact sub_eq_zero.mp level

end Runs

/-! ## Three credits -/

section Credits

def dollarAccount : Account := ⟨.ofNat 1, "USD"⟩

def credits : List Operation :=
  [10, 100, 50].map fun amount => .credit dollarAccount amount .interest none none

def turnsOf (indices : List Nat) : List (Processes.Turn Ending) := indices.map (⟨·, .returned⟩)

/-- Each credit reads after the one before it has ended. -/
def inOrder : List (Processes.Turn Ending) := turnsOf [0, 0, 0, 0, 2, 2, 2, 2, 1, 1, 1, 1]

theorem available_inOrder : ∃ final,
    (ledger american).system.run ⟨{}, credits.map Operation.program⟩ inOrder = some final ∧
    Chained 0 (final.shared.journalOf dollarAccount) ∧
    ((∀ p ∈ final.processes, p.outstanding dollarAccount = none) →
      final.shared.available dollarAccount = final.shared.journalSum dollarAccount) := by
  have ends : ((ledger american).system.run ⟨{}, credits.map Operation.program⟩ inOrder).isSome := by
    decide +kernel
  obtain ⟨final, ran⟩ := Option.isSome_iff_exists.mp ends
  have along : (ledger american).system.Along
      (Processes.When fun t others p ending => p.Undisturbed t others ending)
      ⟨{}, credits.map Operation.program⟩ inOrder := by decide +kernel
  exact ⟨final, ran, available_eq_journalSum along ran dollarAccount⟩

/-- The second and the third both read the balance before either writes it. -/
def together : List (Processes.Turn Ending) := turnsOf [0, 0, 0, 0, 1, 2, 1, 2, 1, 2, 1, 2]

/-- The balance is 60 where the journal says 160. -/
theorem credit_lost : ∃ final,
    (ledger american).system.run ⟨{}, credits.map Operation.program⟩ together = some final ∧
    (∀ p ∈ final.processes, p.outstanding dollarAccount = none) ∧
    final.shared.available dollarAccount ≠ final.shared.journalSum dollarAccount := by
  have ends : ((ledger american).system.run ⟨{}, credits.map Operation.program⟩ together).isSome := by
    decide +kernel
  obtain ⟨final, ran⟩ := Option.isSome_iff_exists.mp ends
  have reached : ((ledger american).system.run ⟨{}, credits.map Operation.program⟩ together).map
      (fun s => (s.processes, s.shared.available dollarAccount,
        s.shared.journalSum dollarAccount)) = some ([[], [], []], 60, 160) := by decide +kernel
  rw [ran, Option.map_some, Option.some.injEq, Prod.mk.injEq, Prod.mk.injEq] at reached
  obtain ⟨ended, available, journal⟩ := reached
  refine ⟨final, ran, ?_, ?_⟩
  · rw [ended]
    decide
  · rw [available, journal]
    decide

end Credits

end MiniHedge.CashManagement
