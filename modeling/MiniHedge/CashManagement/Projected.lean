import MiniHedge.CashManagement.Sequential

/-! The projected total of an account.

Registering a settlement moves the total by its amount. Settling it writes the
available balance and leaves what is pending, so that the amount counts twice.
-/

set_option autoImplicit false

namespace MiniHedge.CashManagement

open MiniHedge.Python MiniHedge.Library

/-! ## Balances -/

/-- The amounts have four places, and nothing pending is negative. -/
structure CashBalance.Kept (b : CashBalance) : Prop where
  available : OnGrid 4 b.availableBalance
  inflows : OnGrid 4 b.pendingInflows
  outflows : OnGrid 4 b.pendingOutflows
  inflows_nonneg : 0 ≤ b.pendingInflows
  outflows_nonneg : 0 ≤ b.pendingOutflows

section Balance

variable {record : Option CashBalance} {m : Movement} {r : SettlementRequest}

theorem kept_empty : CashBalance.Kept {} :=
  ⟨onGrid_zero, onGrid_zero, onGrid_zero, le_rfl, le_rfl⟩

theorem pending_nonneg (kept : (record.getD {}).Kept) (cause : Cause) :
    0 ≤ (cause.balance record).pendingInflows ∧ 0 ≤ (cause.balance record).pendingOutflows := by
  cases cause with
  | moved m =>
    rw [Cause.balance_moved]
    exact ⟨kept.inflows_nonneg, kept.outflows_nonneg⟩
  | registered r =>
    simp only [Cause.balance]
    split
    · rename_i inflow
      exact ⟨add_nonneg kept.inflows_nonneg inflow.le, kept.outflows_nonneg⟩
    · exact ⟨kept.inflows_nonneg, add_nonneg kept.outflows_nonneg (abs_nonneg _)⟩

theorem kept_columns (kept : (record.getD {}).Kept) (cause : Cause) :
    (cause.balance record).columns.Kept where
  available := onGrid_numeric 4 _
  inflows := onGrid_numeric 4 _
  outflows := onGrid_numeric 4 _
  inflows_nonneg := numeric_nonneg (pending_nonneg kept cause).1
  outflows_nonneg := numeric_nonneg (pending_nonneg kept cause).2

theorem total_moved (kept : (record.getD {}).Kept) (exactly : OnGrid 4 m.amount) :
    ((Cause.moved m).balance record).columns.totalBalance =
      (record.getD {}).totalBalance + m.signed := by
  have signed : OnGrid 4 m.signed := by
    unfold Movement.signed
    split
    · exact exactly
    · exact exactly.neg
  rw [Cause.balance_moved]
  simp only [CashBalance.columns, CashBalance.totalBalance, (kept.available.add signed).numeric_eq,
    kept.inflows.numeric_eq, kept.outflows.numeric_eq]
  ring

/-- What is pending grows by the amount as the settlement has it. -/
theorem total_registered (kept : (record.getD {}).Kept) :
    ((Cause.registered r).balance record).columns.totalBalance =
      (record.getD {}).totalBalance + numeric 4 r.amount := by
  unfold Cause.balance CashBalance.columns CashBalance.totalBalance
  simp only
  split
  · rename_i inflow
    simp only [kept.inflows.numeric_add kept.inflows_nonneg inflow.le, kept.available.numeric_eq,
      kept.outflows.numeric_eq]
    ring
  · rename_i outflow
    have size : |r.amount| = -r.amount := abs_of_nonpos (not_lt.mp outflow)
    have grown := kept.outflows.numeric_add kept.outflows_nonneg (abs_nonneg r.amount)
    rw [size, numeric_neg] at grown
    simp only [size, grown, kept.available.numeric_eq, kept.inflows.numeric_eq]
    ring

end Balance

/-! ## Runs -/

/-- The movement that the statement is about has no more than four places. -/
def Statement.Exact : Statement → Prop
  | .readBalance (.moved m) | .findRow (.moved m) _ | .storeRow (.moved m) _ _ => OnGrid 4 m.amount
  | _ => True

structure Till.Kept (s : Till) : Prop where
  balances : ∀ account, ((s.tables.balance account).getD {}).Kept
  amounts : ∀ row ∈ s.tables.settlements.rows, OnGrid 4 row.settlementAmount
  exactly : ∀ st ∈ s.program, st.Exact
  fresh : s.program.Fresh s.tables

section Steps

variable {getByTicker : String → Except Exc (Option String)} {t t' : Tables} {p : Program}
  {statement : Statement}

theorem kept_start : Till.Kept {} where
  balances _ := kept_empty
  amounts := by simp [Numbered.empty]
  exactly := by simp
  fresh := trivial

theorem process_exact {s : Settlement} (amount : OnGrid 4 s.settlementAmount) {st : Statement}
    (member : st ∈ s.process) : st.Exact := by
  unfold Settlement.process credit debit at member
  split at member
  · simp only [List.cons_append, List.nil_append, List.mem_cons, List.not_mem_nil,
      or_false] at member
    rcases member with rfl | rfl
    · exact amount
    · trivial
  · rename_i outflow
    simp only [List.cons_append, List.nil_append, List.mem_cons, List.not_mem_nil,
      or_false] at member
    rcases member with rfl | rfl
    · unfold Statement.Exact
      rw [abs_of_nonpos (not_lt.mp outflow)]
      exact amount.neg
    · trivial

theorem amounts_executed {more : Program}
    (amounts : ∀ row ∈ t.settlements.rows, OnGrid 4 row.settlementAmount)
    (executed : Executed t statement t' more) :
    ∀ row ∈ t'.settlements.rows, OnGrid 4 row.settlementAmount := by
  have status : ∀ (status : SettlementStatus) (id : Nat),
      ∀ row ∈ (t.setStatus status id).settlements.rows, OnGrid 4 row.settlementAmount := by
    intro status id row member
    obtain ⟨old, inside, rfl⟩ := Tables.mem_setStatus.mp member
    split <;> exact amounts old inside
  cases executed with
  | inserted r settlementDate =>
    intro row member
    rcases List.mem_append.mp member with old | new
    · exact amounts row old
    · rw [List.mem_singleton.mp new]
      exact onGrid_numeric 4 _
  | settled id => exact status .settled id
  | pended id => exact status .pending id
  | _ => exact amounts

theorem exactly_executed {more : Program}
    (amounts : ∀ row ∈ t.settlements.rows, OnGrid 4 row.settlementAmount)
    (exactly : statement.Exact) (executed : Executed t statement t' more) :
    ∀ st ∈ more, st.Exact := by
  cases executed with
  | readMoved m => simpa [Statement.Exact] using exactly
  | found cause record =>
    cases cause with
    | moved m => simpa [Statement.Exact] using exactly
    | registered r => simp [Statement.Exact]
  | due asOf =>
    intro st member
    obtain ⟨row, inside, processed⟩ := List.mem_flatMap.mp member
    exact process_exact (amounts row (List.mem_of_mem_filter ((mem_sortOn _).mp inside))) processed
  | _ => simp [Statement.Exact]

theorem Till.Kept.step {s s' : Till} {occasion : Occasion} (kept : s.Kept)
    (stepped : (till getByTicker).step s occasion = some s') : s'.Kept := by
  cases occasion with
  | call c =>
    obtain ⟨idle, rfl⟩ := till_call stepped
    refine ⟨kept.balances, kept.amounts, fun st member => ?_, c.fresh⟩
    cases c <;> (rw [List.mem_singleton.mp member]; trivial)
  | turn ending =>
    have moved := till_turn stepped
    have fresh := kept.fresh.next moved
    obtain ⟨tables, program⟩ := s'
    simp only at moved fresh
    obtain ⟨statement, rest, started, ⟨same, ended, -⟩ | ⟨more, executed, continued⟩⟩ :=
      Program.next_cases moved
    · exact ⟨same ▸ kept.balances, same ▸ kept.amounts, by simp [ended], fresh⟩
    · have before := kept.fresh
      rw [started] at before
      have exactly : ∀ st ∈ statement :: rest, st.Exact := started ▸ kept.exactly
      refine ⟨fun account => ?_, ?_, fun st member => ?_, fresh⟩
      · cases executed with
        | stored cause record found free =>
          rw [Tables.balance_storeBalance, before.1.1]
          split
          · exact kept_columns (kept.balances cause.account) cause
          · exact kept.balances account
        | _ => exact kept.balances account
      · exact amounts_executed kept.amounts executed
      · rcases continued with ⟨-, shown⟩ | ⟨-, ended⟩
        · rw [shown] at member
          rcases List.mem_append.mp member with new | old
          · exact exactly_executed kept.amounts (exactly statement (by simp)) executed st new
          · exact exactly st (by simp [old])
        · simp [ended] at member

end Steps

/-! ## Changes of the total -/

/-- The settlement whose pending flow is written next. -/
def Program.registering : Program → Option SettlementRequest
  | .storeRow (.registered r) _ _ :: _ => some r
  | _ => none

/-- The settled movement whose balance is written next. -/
def Program.settling : Program → Option Movement
  | .storeRow (.moved m) _ _ :: _ => some m
  | _ => none

variable (getByTicker : String → Except Exc (Option String))

/-- The total of an account stays, or a settlement of the account is registered
and the total moves by its amount. -/
def TotalKept (s : Till) (occasion : Occasion) : Prop :=
  ∀ s', (till getByTicker).step s occasion = some s' → ∀ account,
    s'.tables.projected account = s.tables.projected account ∨
    ∃ r ∈ s.program.registering, r.account = account ∧
      s'.tables.projected account = s.tables.projected account + numeric 4 r.amount

/-- No balance is written for a settlement, unless of a zero amount. -/
def Unsettled (s : Till) : Occasion → Prop
  | .call _ => True
  | .turn ending => ending ≠ .raisedBefore → ∀ m ∈ s.program.settling, m.amount = 0

section Changes

variable {getByTicker} {s : Till}

theorem Movement.signed_eq_zero {m : Movement} : m.signed = 0 ↔ m.amount = 0 := by
  unfold Movement.signed
  split <;> simp

theorem projected_moved (kept : s.Kept) {m : Movement} {record : Option CashBalance} {found : Bool}
    {rest : Program} (next : s.program = .storeRow (.moved m) record found :: rest)
    (account : Account) :
    (s.tables.storeBalance m.account ((Cause.moved m).balance record)).projected account =
      s.tables.projected account + if account = m.account then m.signed else 0 := by
  have fresh := kept.fresh
  have exactly := kept.exactly
  rw [next] at fresh exactly
  obtain ⟨⟨rfl, -⟩, -⟩ := fresh
  rw [Tables.projected_storeBalance]
  split
  · rename_i same
    rw [same]
    exact total_moved (kept.balances m.account) (exactly _ List.mem_cons_self)
  · rw [add_zero]

theorem projected_registered (kept : s.Kept) {r : SettlementRequest} {record : Option CashBalance}
    {found : Bool} {rest : Program}
    (next : s.program = .storeRow (.registered r) record found :: rest) (account : Account) :
    (s.tables.storeBalance r.account ((Cause.registered r).balance record)).projected account =
      s.tables.projected account + if account = r.account then numeric 4 r.amount else 0 := by
  have fresh := kept.fresh
  rw [next] at fresh
  obtain ⟨⟨rfl, -⟩, -⟩ := fresh
  rw [Tables.projected_storeBalance]
  split
  · rename_i same
    rw [same]
    exact total_registered (kept.balances r.account)
  · rw [add_zero]

theorem totalKept_of_unsettled {occasion : Occasion} (kept : s.Kept)
    (unsettled : Unsettled s occasion) : TotalKept getByTicker s occasion := by
  intro s' stepped account
  cases occasion with
  | call c =>
    obtain ⟨-, rfl⟩ := till_call stepped
    exact .inl rfl
  | turn ending =>
    have moved := till_turn stepped
    obtain ⟨tables, program⟩ := s'
    simp only at moved
    obtain ⟨statement, rest, started, ⟨rfl, -, -⟩ | ⟨more, executed, ended⟩⟩ :=
      Program.next_cases moved
    · exact .inl rfl
    · have effective : ending ≠ .raisedBefore := by
        rintro rfl
        simp at ended
      cases executed with
      | stored cause record found free =>
        cases cause with
        | moved m =>
          have nothing : m.signed = 0 :=
            Movement.signed_eq_zero.mpr (unsettled effective m (by simp [Program.settling, started]))
          left
          change (s.tables.storeBalance m.account _).projected account = _
          rw [projected_moved kept started, nothing, ite_self, add_zero]
        | registered r =>
          have changed := projected_registered kept started account
          by_cases own : account = r.account
          · rw [if_pos own] at changed
            exact .inr ⟨r, by simp [Program.registering, started], own.symm, changed⟩
          · rw [if_neg own, add_zero] at changed
            exact .inl changed
      | _ => exact .inl rfl

theorem unsettled_of_totalKept {occasion : Occasion} (kept : s.Kept)
    (total : TotalKept getByTicker s occasion) : Unsettled s occasion := by
  cases occasion with
  | call c => trivial
  | turn ending =>
    intro effective m settling
    obtain ⟨record, found, rest, started⟩ :
        ∃ record found rest, s.program = .storeRow (.moved m) record found :: rest := by
      unfold Program.settling at settling
      split at settling
      · rename_i m' record found rest started
        cases settling
        exact ⟨record, found, rest, started⟩
      · cases settling
    have fresh := kept.fresh
    rw [started] at fresh
    have written : ∃ s', (till getByTicker).step s (.turn ending) = some s' ∧
        s'.tables = s.tables.storeBalance m.account ((Cause.moved m).balance record) := by
      have stored : (Statement.storeRow (.moved m) record found).execute getByTicker s.tables = _ :=
        fresh.stored
      rw [← fresh.1.1] at stored
      cases ending with
      | raisedBefore => exact absurd rfl effective
      | returned | raisedAfter =>
        simp only [till, started, Program.next, stored, Option.bind_eq_bind, Option.bind_some,
          Option.pure_def, Option.some.injEq]
        exact ⟨_, rfl, rfl⟩
    obtain ⟨s', stepped, same⟩ := written
    have moved := projected_moved kept started m.account
    rw [if_pos rfl, ← same] at moved
    rcases total s' stepped m.account with unchanged | ⟨r, registering, -⟩
    · rw [unchanged, left_eq_add] at moved
      exact Movement.signed_eq_zero.mp moved
    · rw [started] at registering
      cases registering

theorem totalKept_iff {occasion : Occasion} (kept : s.Kept) :
    TotalKept getByTicker s occasion ↔ Unsettled s occasion :=
  ⟨unsettled_of_totalKept kept, totalKept_of_unsettled kept⟩

end Changes

/-- Over every sequence of calls and failures from empty tables: the totals are
kept exactly when no settlement of an amount gets as far as its balance. -/
theorem totalKept_iff_unsettled (occasions : List Occasion) :
    (till getByTicker).Along (TotalKept getByTicker) {} occasions ↔
      (till getByTicker).Along Unsettled {} occasions :=
  System.along_iff (fun _ _ _ kept stepped => Till.Kept.step kept stepped)
    (fun _ _ kept => totalKept_iff kept) kept_start occasions

/-! ## A sale that is settled -/

section Sale

def dollars : Account := ⟨.ofNat 1, "USD"⟩

/-- Shares are sold for 100 on a Monday. -/
def sale : SettlementRequest := ⟨dollars, none, "AAPL", 100, 8⟩

/-- The sale is registered, and is settled as far as reading the balance. -/
def beforeSettling : List Occasion :=
  .call (.create sale) :: returning 5 ++ .call (.processDue 9) :: returning 3

/-- The total goes from 100 to 200 as the sale is settled. -/
theorem sale_counted_twice :
    ¬ (till american).Along (TotalKept american) {} (beforeSettling ++ returning 1) := by
  intro along
  have reached : (((till american).run {} beforeSettling).bind fun s =>
      ((till american).step s (.turn .returned)).map fun s' =>
        (s.tables.projected dollars, s'.tables.projected dollars, s.program.registering)) =
      some (100, 200, none) := by decide +kernel
  obtain ⟨s, ran, reached⟩ := Option.bind_eq_some_iff.mp reached
  obtain ⟨s', stepped, shown⟩ := Option.map_eq_some_iff.mp reached
  simp only [Prod.mk.injEq] at shown
  obtain ⟨before, after, none_registering⟩ := shown
  rcases (along.append ran).head s' stepped dollars with same | ⟨r, registering, -⟩
  · rw [before, after] at same
    exact absurd same (by decide)
  · rw [none_registering] at registering
    cases registering

end Sale

end MiniHedge.CashManagement
