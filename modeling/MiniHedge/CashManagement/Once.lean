import MiniHedge.CashManagement.Sequential

/-! How often the cash of a settlement is moved.

A call that processes settlements owes each of them a journal entry until it has
been written, and its status until it has been set. What a settlement has in the
journal and what it is owed is what is still to be settled of it.
-/

set_option autoImplicit false

namespace MiniHedge.CashManagement

open MiniHedge.Python MiniHedge.Library

/-- The entries of a settlement in the journal. -/
def Tables.entries (t : Tables) (id : Nat) : Nat :=
  t.journal.countP fun e => e.referenceId = some (.settlement id)

/-- The reference of the entry that the statement will bring about. -/
def Statement.owes : Statement → Option Reference
  | .readBalance (.moved m) => m.referenceId
  | .insertJournal e => e.referenceId
  | _ => none

def Statement.settling : Statement → Option Nat
  | .settle id => some id
  | _ => none

namespace Program

/-- The entries that the program still owes a settlement. -/
def owed (p : Program) (id : Nat) : Nat := p.countP fun st => st.owes = some (.settlement id)

def settles (p : Program) (id : Nat) : Nat := p.count (.settle id)

/-- Nothing that the program is still to settle is in the journal. -/
def Unpaid (t : Tables) (p : Program) : Prop := ∀ id, .settle id ∈ p → t.entries id = 0

/-- A call that begins. -/
def Begins (st : Statement) : Prop :=
  (∃ r, st = .getByTicker r) ∨ (∃ asOf, st = .getDue asOf) ∨ ∃ id, st = .markPending id

/-- Each settlement has one entry if it is settled, and otherwise has or is owed
as many as are still to be settled: one or none. -/
structure Once (t : Tables) (p : Program) : Prop where
  settled : ∀ row ∈ t.settlements.rows, row.status = .settled →
    t.entries row.id = 1 ∧ p.owed row.id = 0 ∧ p.settles row.id = 0
  unsettled : ∀ row ∈ t.settlements.rows, row.status ≠ .settled →
    t.entries row.id + p.owed row.id = p.settles row.id ∧ p.settles row.id ≤ 1
  known : ∀ id, t.settlements.rows.length ≤ id →
    t.entries id = 0 ∧ p.owed id = 0 ∧ p.settles id = 0
  ordered : p.Pairwise fun a b => ∀ id, a = .settle id → b.owes ≠ some (.settlement id)
  alone : ∀ st ∈ p, Begins st → p = [st]

end Program

section Counts

variable {t t' : Tables} {p : Program} {settlements : List Settlement}

theorem owed_cons (st : Statement) (p : Program) (id : Nat) :
    Program.owed (st :: p) id = p.owed id + if st.owes = some (.settlement id) then 1 else 0 := by
  simp [Program.owed, List.countP_cons]

theorem settles_cons (st : Statement) (p : Program) (id : Nat) :
    Program.settles (st :: p) id = p.settles id + if st = .settle id then 1 else 0 := by
  simp [Program.settles, List.count_cons]

theorem entries_insertJournal (t : Tables) (e : JournalEntry) (id : Nat) :
    (t.insertJournal e).entries id =
      t.entries id + if e.referenceId = some (.settlement id) then 1 else 0 := by
  simp [Tables.entries, Tables.insertJournal, JournalEntry.columns, List.countP_append,
    List.countP_cons]

theorem owed_process (distinct : (settlements.map (·.id)).Nodup) (id : Nat) :
    Program.owed (settlements.flatMap Settlement.process) id =
      if id ∈ settlements.map (·.id) then 1 else 0 := by
  induction settlements with
  | nil => rfl
  | cons s rest ih =>
    obtain ⟨m, refers, shape⟩ := process_shape s
    rw [List.map_cons, List.nodup_cons] at distinct
    rw [List.flatMap_cons, shape, List.cons_append, List.cons_append, List.nil_append, owed_cons,
      owed_cons, ih distinct.2]
    by_cases own : s.id = id
    · have later : id ∉ rest.map (·.id) := own ▸ distinct.1
      simp [Statement.owes, refers, own, later]
    · simp [Statement.owes, refers, own, Ne.symm own]

theorem settles_process (distinct : (settlements.map (·.id)).Nodup) (id : Nat) :
    Program.settles (settlements.flatMap Settlement.process) id =
      if id ∈ settlements.map (·.id) then 1 else 0 := by
  induction settlements with
  | nil => rfl
  | cons s rest ih =>
    obtain ⟨m, -, shape⟩ := process_shape s
    rw [List.map_cons, List.nodup_cons] at distinct
    rw [List.flatMap_cons, shape, List.cons_append, List.cons_append, List.nil_append, settles_cons,
      settles_cons, ih distinct.2]
    by_cases own : s.id = id
    · have later : id ∉ rest.map (·.id) := own ▸ distinct.1
      simp [own, later]
    · simp [own, Ne.symm own]

theorem ordered_process (distinct : (settlements.map (·.id)).Nodup) :
    (settlements.flatMap Settlement.process).Pairwise
      fun a b => ∀ id, a = .settle id → b.owes ≠ some (.settlement id) := by
  induction settlements with
  | nil => exact List.Pairwise.nil
  | cons s rest ih =>
    obtain ⟨m, refers, shape⟩ := process_shape s
    rw [List.map_cons, List.nodup_cons] at distinct
    rw [List.flatMap_cons, shape, List.cons_append, List.cons_append, List.nil_append,
      List.pairwise_cons, List.pairwise_cons]
    refine ⟨fun _ _ id same => (by cases same), fun st member id same owes => ?_, ih distinct.2⟩
    cases same
    obtain ⟨other, inside, processed⟩ := List.mem_flatMap.mp member
    obtain ⟨m', refers', shape'⟩ := process_shape other
    rw [shape'] at processed
    rcases List.mem_cons.mp processed with rfl | last
    · have same : other.id = s.id := by
        rw [Statement.owes, refers'] at owes
        injection owes with owes
        injection owes
      exact distinct.1 (same ▸ List.mem_map_of_mem inside)
    · rw [List.mem_singleton.mp last] at owes
      cases owes

end Counts

/-! ## Steps -/

namespace Program

section Steps

variable {getByTicker : String → Except Exc (Option String)} {t t' : Tables} {p p' rest more : Program}
  {statement : Statement}

theorem once_start : Once {} [] where
  settled := by simp [Numbered.empty]
  unsettled := by simp [Numbered.empty]
  known _ _ := ⟨rfl, rfl, rfl⟩
  ordered := List.Pairwise.nil
  alone := by simp

theorem settles_pos {id : Nat} : 0 < p.settles id ↔ .settle id ∈ p := List.count_pos_iff

/-- A program with nothing to settle and nothing owed may take the place of another. -/
theorem Once.replaced (once : Once t p) (owed : ∀ id, p'.owed id = p.owed id)
    (settles : ∀ id, p'.settles id = p.settles id)
    (ordered : p'.Pairwise fun a b => ∀ id, a = .settle id → b.owes ≠ some (.settlement id))
    (alone : ∀ st ∈ p', Begins st → p' = [st]) : Once t p' := by
  refine ⟨?_, ?_, ?_, ordered, alone⟩
  · simpa only [owed, settles] using once.settled
  · simpa only [owed, settles] using once.unsettled
  · simpa only [owed, settles] using once.known

/-- A call may be cut where nothing that it is still to settle is in the journal. -/
theorem Once.cut (once : Once t p) (unpaid : Unpaid t p) : Once t [] where
  settled row member settled := ⟨(once.settled row member settled).1, rfl, rfl⟩
  unsettled row member unsettled := by
    refine ⟨?_, Nat.zero_le 1⟩
    change t.entries row.id + 0 = 0
    obtain ⟨balanced, -⟩ := once.unsettled row member unsettled
    rcases Nat.eq_zero_or_pos (p.settles row.id) with none_left | some_left
    · omega
    · rw [unpaid row.id (settles_pos.mp some_left)]
  known id fresh := ⟨(once.known id fresh).1, rfl, rfl⟩
  ordered := List.Pairwise.nil
  alone := by simp

theorem Once.begun (once : Once t []) (c : Call) : Once t c.program := by
  refine once.replaced (fun id => ?_) (fun id => ?_) ?_ fun st member begins => ?_
  · cases c <;> rfl
  · cases c <;> rfl
  · cases c <;> exact List.pairwise_singleton _ _
  · cases c <;> (rw [List.mem_singleton.mp member]; rfl)

theorem ordered_cons (other : ∀ id, statement ≠ .settle id)
    (ordered : rest.Pairwise fun a b => ∀ id, a = .settle id → b.owes ≠ some (.settlement id)) :
    (statement :: rest).Pairwise fun a b => ∀ id, a = .settle id → b.owes ≠ some (.settlement id) :=
  List.pairwise_cons.mpr ⟨fun _ _ id same => absurd same (other id), ordered⟩

theorem Once.rest_begins (once : Once t (statement :: rest)) : ∀ st ∈ rest, ¬ Begins st := by
  intro st member begins
  have only := once.alone st (List.mem_cons_of_mem _ member) begins
  rw [List.cons.injEq] at only
  rw [only.2] at member
  cases member

theorem dueSettlements_distinct (t : Tables) (asOf : Date) :
    ((t.dueSettlements asOf).map (·.id)).Nodup := by
  have rows : ((t.settlements.rows.filter fun s =>
      s.status = .pending ∧ s.settlementDate ≤ asOf).map (·.id)).Nodup :=
    Numbered.distinct.sublist (List.filter_sublist.map _)
  exact ((sortOn_perm _ _).map _).nodup_iff.mpr rows

theorem due_pending {asOf : Date} {row : Settlement} (member : row ∈ t.settlements.rows)
    (due : row.id ∈ (t.dueSettlements asOf).map (·.id)) : row.status = .pending := by
  obtain ⟨other, inside, same⟩ := List.mem_map.mp due
  have held := List.mem_filter.mp ((mem_sortOn _).mp inside)
  rw [← Numbered.unique held.1 member same]
  exact (of_decide_eq_true held.2).1

theorem Once.due {asOf : Date} (once : Once t [.getDue asOf]) :
    Once t ((t.dueSettlements asOf).flatMap Settlement.process) := by
  have distinct := dueSettlements_distinct t asOf
  refine ⟨fun row member settled => ?_, fun row member unsettled => ?_, fun id fresh => ?_,
    ordered_process distinct, fun st member begins => ?_⟩
  · have undue : row.id ∉ (t.dueSettlements asOf).map (·.id) := fun due => by
      rw [due_pending member due] at settled
      cases settled
    rw [owed_process distinct, settles_process distinct, if_neg undue]
    exact ⟨(once.settled row member settled).1, rfl, rfl⟩
  · obtain ⟨balanced, -⟩ := once.unsettled row member unsettled
    have nothing : t.entries row.id = 0 := balanced
    rw [owed_process distinct, settles_process distinct, nothing, zero_add]
    exact ⟨rfl, by split <;> omega⟩
  · have undue : id ∉ (t.dueSettlements asOf).map (·.id) := by
      intro due
      obtain ⟨row, inside, rfl⟩ := List.mem_map.mp due
      have member := List.mem_of_mem_filter ((mem_sortOn _).mp inside)
      exact absurd (Numbered.key_lt member) (not_lt.mpr fresh)
    rw [owed_process distinct, settles_process distinct, if_neg undue]
    exact ⟨(once.known id fresh).1, rfl, rfl⟩
  · obtain ⟨s, -, processed⟩ := List.mem_flatMap.mp member
    obtain ⟨m, -, shape⟩ := process_shape s
    rw [shape] at processed
    simp only [List.mem_cons, List.not_mem_nil, or_false] at processed
    rcases processed with rfl | rfl <;> simp [Begins] at begins

theorem Once.journaled {e : JournalEntry} (once : Once t (.insertJournal e :: rest)) :
    Once (t.insertJournal e) rest := by
  have counted : ∀ id, owed (.insertJournal e :: rest) id =
      rest.owed id + if e.referenceId = some (.settlement id) then 1 else 0 := owed_cons _ rest
  have settles : ∀ id, settles (.insertJournal e :: rest) id = rest.settles id := fun id => by
    simp [settles_cons]
  refine ⟨fun row member settled => ?_, fun row member unsettled => ?_, fun id fresh => ?_,
    once.ordered.of_cons, fun st member begins => absurd begins (once.rest_begins st member)⟩
  · have before := once.settled row member settled
    rw [counted, settles] at before
    rw [entries_insertJournal]
    omega
  · have before := once.unsettled row member unsettled
    rw [counted, settles] at before
    rw [entries_insertJournal]
    omega
  · have before := once.known id fresh
    rw [counted, settles] at before
    rw [entries_insertJournal]
    omega

theorem Once.settle {id : Nat} (once : Once t (.settle id :: rest)) :
    Once (t.setStatus .settled id) rest := by
  have owed : ∀ other, owed (.settle id :: rest) other = rest.owed other := fun other => by
    simp [owed_cons, Statement.owes]
  have own : settles (.settle id :: rest) id = rest.settles id + 1 := by simp [settles_cons]
  have others : ∀ other, id ≠ other → settles (.settle id :: rest) other = rest.settles other :=
    fun other apart => by simp [settles_cons, apart]
  have paid : rest.owed id = 0 := by
    rw [Program.owed, List.countP_eq_zero]
    intro st member
    have before := (List.pairwise_cons.mp once.ordered).1 st member id rfl
    simpa using before
  refine ⟨fun row member settled => ?_, fun row member unsettled => ?_, fun other fresh => ?_,
    once.ordered.of_cons, fun st member begins => absurd begins (once.rest_begins st member)⟩
  · obtain ⟨old, inside, rfl⟩ := Tables.mem_setStatus.mp member
    by_cases same : old.id = id
    · rw [if_pos same]
      subst same
      have open_before : old.status ≠ .settled := fun done => by
        have none_left := (once.settled old inside done).2.2
        omega
      have before := once.unsettled old inside open_before
      rw [owed] at before
      change t.entries old.id = 1 ∧ rest.owed old.id = 0 ∧ rest.settles old.id = 0
      omega
    · rw [if_neg same] at settled ⊢
      have before := once.settled old inside settled
      rw [owed, others _ (Ne.symm same)] at before
      exact before
  · obtain ⟨old, inside, rfl⟩ := Tables.mem_setStatus.mp member
    by_cases same : old.id = id
    · rw [if_pos same] at unsettled
      exact absurd rfl unsettled
    · rw [if_neg same] at unsettled ⊢
      have before := once.unsettled old inside unsettled
      rw [owed, others _ (Ne.symm same)] at before
      exact before
  · have before := once.known other (by simpa [Tables.setStatus, Numbered.change, changeRow] using fresh)
    by_cases same : id = other
    · subst same
      omega
    · rw [owed, others _ same] at before
      exact before

theorem Once.pended {id : Nat} (once : Once t (.markPending id :: rest))
    (open_before : ∀ row ∈ t.settlements.rows, row.id = id → row.status ≠ .settled) :
    Once (t.setStatus .pending id) rest := by
  have owed : ∀ other, owed (.markPending id :: rest) other = rest.owed other := fun other => by
    simp [owed_cons, Statement.owes]
  have settles : ∀ other, settles (.markPending id :: rest) other = rest.settles other :=
    fun other => by simp [settles_cons]
  refine ⟨fun row member settled => ?_, fun row member unsettled => ?_, fun other fresh => ?_,
    once.ordered.of_cons, fun st member begins => absurd begins (once.rest_begins st member)⟩
  · obtain ⟨old, inside, rfl⟩ := Tables.mem_setStatus.mp member
    by_cases same : old.id = id
    · rw [if_pos same] at settled
      cases settled
    · rw [if_neg same] at settled ⊢
      have before := once.settled old inside settled
      rwa [owed, settles] at before
  · obtain ⟨old, inside, rfl⟩ := Tables.mem_setStatus.mp member
    have unsettled_before : old.status ≠ .settled := by
      by_cases same : old.id = id
      · exact open_before old inside same
      · rwa [if_neg same] at unsettled
    have before := once.unsettled old inside unsettled_before
    rw [owed, settles] at before
    split <;> exact before
  · have before := once.known other
      (by simpa [Tables.setStatus, Numbered.change, changeRow] using fresh)
    rwa [owed, settles] at before

theorem Once.inserted {r : SettlementRequest} {settlementDate : Date}
    (once : Once t (.insertSettlement r settlementDate :: rest)) :
    Once (t.insertSettlement (r.row settlementDate)) rest := by
  have owed : ∀ id, owed (.insertSettlement r settlementDate :: rest) id = rest.owed id :=
    fun id => by simp [owed_cons, Statement.owes]
  have settles : ∀ id, settles (.insertSettlement r settlementDate :: rest) id = rest.settles id :=
    fun id => by simp [settles_cons]
  refine ⟨fun row member settled => ?_, fun row member unsettled => ?_, fun id fresh => ?_,
    once.ordered.of_cons, fun st member begins => absurd begins (once.rest_begins st member)⟩
  · rcases List.mem_append.mp member with old | new
    · have before := once.settled row old settled
      rwa [owed, settles] at before
    · rw [List.mem_singleton.mp new] at settled
      cases settled
  · rcases List.mem_append.mp member with old | new
    · have before := once.unsettled row old unsettled
      rwa [owed, settles] at before
    · have before := once.known t.settlements.rows.length le_rfl
      rw [owed, settles] at before
      rw [List.mem_singleton.mp new]
      change t.entries t.settlements.rows.length + rest.owed t.settlements.rows.length =
        rest.settles t.settlements.rows.length ∧ rest.settles t.settlements.rows.length ≤ 1
      omega
  · have before := once.known id (by
      have longer : t.settlements.rows.length + 1 ≤ id := by
        simpa [Tables.insertSettlement, Numbered.append] using fresh
      omega)
    rwa [owed, settles] at before

theorem executed_begins (executed : Executed t statement t' more) :
    ∀ st ∈ more, ¬ Begins st := by
  cases executed with
  | due asOf =>
    intro st member
    obtain ⟨s, -, processed⟩ := List.mem_flatMap.mp member
    obtain ⟨m, -, shape⟩ := process_shape s
    rw [shape] at processed
    simp only [List.mem_cons, List.not_mem_nil, or_false] at processed
    rcases processed with rfl | rfl <;> simp [Begins]
  | _ => simp [Begins]

/-- A call that goes on does not begin again. -/
theorem Once.continued (once : Once t (statement :: rest))
    (executed : Executed t statement t' more) : ∀ st ∈ more ++ rest, ¬ Begins st := fun st member =>
  (List.mem_append.mp member).elim (executed_begins executed st) (once.rest_begins st)

/-- What each statement leaves of the invariant, where the retried settlement is not settled. -/
theorem Once.executed (once : Once t (statement :: rest))
    (executed : Executed t statement t' more)
    (open_before : ∀ id, statement = .markPending id → ∀ row ∈ t.settlements.rows, row.id = id →
      row.status ≠ .settled) : Once t' (more ++ rest) := by
  have tail := once.ordered.of_cons
  have alone : ∀ st ∈ more ++ rest, Begins st → more ++ rest = [st] := fun st member begins =>
    absurd begins (once.continued executed st member)
  cases executed with
  | looked r settlementDate =>
    refine once.replaced (fun id => ?_) (fun id => ?_) ?_ alone
    · simp [owed_cons, Statement.owes]
    · simp [settles_cons]
    · exact ordered_cons (by simp) (ordered_cons (by simp) tail)
  | readMoved m =>
    refine once.replaced (fun id => ?_) (fun id => ?_) ?_ alone
    · simp only [List.cons_append, List.nil_append, owed_cons]
      rfl
    · simp [settles_cons]
    · exact ordered_cons (by simp) (ordered_cons (by simp) tail)
  | readRegistered r | found cause record =>
    refine once.replaced (fun id => ?_) (fun id => ?_) ?_ alone
    · simp [owed_cons, Statement.owes]
    · simp [settles_cons]
    · exact ordered_cons (by simp) tail
  | stored cause record found free =>
    have same : Once t rest := once.replaced (fun id => by simp [owed_cons, Statement.owes])
      (fun id => by simp [settles_cons]) tail alone
    exact ⟨same.settled, same.unsettled, same.known, same.ordered, same.alone⟩
  | due asOf =>
    have only := once.alone _ (List.mem_cons_self) (.inr (.inl ⟨asOf, rfl⟩))
    rw [List.cons.injEq] at only
    rw [only.2] at once ⊢
    rw [List.append_nil]
    exact once.due
  | inserted r settlementDate => exact once.inserted
  | journaled e => exact once.journaled
  | settled id => exact once.settle
  | pended id => exact once.pended (open_before id rfl)

theorem Begins.unpaid (begins : Begins statement) : Unpaid t [statement] := by
  intro id member
  rw [← List.mem_singleton.mp member] at begins
  simp [Begins] at begins

end Steps

end Program

/-! ## Runs -/

section Runs

variable {getByTicker : String → Except Exc (Option String)} {t t' : Tables}
  {statement : Statement}

/-- Only looking up the instrument raises, and a row that appears during an upsert. -/
theorem raises {e : Exc} (raised : statement.execute getByTicker t = .error e) :
    Program.Begins statement ∨ ∃ cause record found, statement = .storeRow cause record found := by
  cases statement with
  | getByTicker r => exact .inl (.inl ⟨r, rfl⟩)
  | storeRow cause record found => exact .inr ⟨cause, record, found, rfl⟩
  | readBalance cause => cases cause <;> cases raised
  | _ => cases raised

theorem settled_kept {more : Program} (executed : Executed t statement t' more) {row : Settlement}
    (member : row ∈ t.settlements.rows) (settled : row.status = .settled)
    (other : statement ≠ .markPending row.id) :
    ∃ row' ∈ t'.settlements.rows, row'.id = row.id ∧ row'.status = .settled := by
  cases executed with
  | inserted r settlementDate => exact ⟨row, List.mem_append_left _ member, rfl, settled⟩
  | settled id =>
    refine ⟨_, Tables.mem_setStatus.mpr ⟨row, member, rfl⟩, ?_, ?_⟩
    · split <;> rfl
    · split
      · rfl
      · exact settled
  | pended id =>
    have apart : row.id ≠ id := fun same => other (same ▸ rfl)
    exact ⟨row, Tables.mem_setStatus.mpr ⟨row, member, (if_neg apart).symm⟩, rfl, settled⟩
  | _ => exact ⟨row, member, rfl, settled⟩

/-- A settlement that is retried is not settled, and no call is cut while the
journal has an entry of a settlement that it is still to mark as settled. -/
def Careful (s : Till) : Occasion → Prop
  | .call (.retry id) => ∀ row ∈ s.tables.settlements.rows, row.id = id → row.status ≠ .settled
  | .call _ | .turn .returned => True
  | .turn .raisedBefore => s.program.Unpaid s.tables
  | .turn .raisedAfter => Program.Unpaid s.tables s.program.tail ∧
      ∀ st ∈ s.program.head?, st.isJournal = false

theorem settling_eq {id : Nat} : statement.settling = some id ↔ statement = .settle id := by
  cases statement <;> simp [Statement.settling]

instance (p : Program) : Decidable (p.Unpaid t) :=
  decidable_of_iff (∀ id ∈ p.filterMap Statement.settling, t.entries id = 0)
    (by simp [Program.Unpaid, List.mem_filterMap, settling_eq])

instance (s : Till) : (occasion : Occasion) → Decidable (Careful s occasion)
  | .call (.retry _) => inferInstanceAs (Decidable (∀ _ ∈ _, _ → _))
  | .call (.create _) | .call (.processDue _) | .turn .returned => isTrue trivial
  | .turn .raisedBefore => inferInstanceAs (Decidable (Program.Unpaid _ _))
  | .turn .raisedAfter => inferInstanceAs (Decidable (Program.Unpaid _ _ ∧ ∀ _ ∈ _, _))

structure Till.Once (s : Till) : Prop where
  once : s.program.Once s.tables
  fresh : s.program.Fresh s.tables
  retried : ∀ id, .markPending id ∈ s.program → ∀ row ∈ s.tables.settlements.rows, row.id = id →
    row.status ≠ .settled

theorem till_once_start : Till.Once {} := ⟨Program.once_start, trivial, by simp⟩

theorem Till.Once.step {s s' : Till} {occasion : Occasion} (once : s.Once)
    (careful : Careful s occasion) (stepped : (till getByTicker).step s occasion = some s') :
    s'.Once := by
  cases occasion with
  | call c =>
    obtain ⟨idle, rfl⟩ := till_call stepped
    have before := once.once
    rw [idle] at before
    refine ⟨before.begun c, c.fresh, fun id member => ?_⟩
    cases c with
    | retry other =>
      cases List.mem_singleton.mp member
      exact careful
    | create r => cases List.mem_singleton.mp member
    | processDue asOf => cases List.mem_singleton.mp member
  | turn ending =>
    have moved := till_turn stepped
    have fresh := once.fresh.next moved
    obtain ⟨tables, program⟩ := s'
    simp only at moved fresh
    obtain ⟨statement, rest, started, ⟨rfl, rfl, cut⟩ | ⟨more, executed, ended⟩⟩ :=
      Program.next_cases moved
    · refine ⟨once.once.cut ?_, trivial, by simp⟩
      rcases cut with rfl | ⟨e, raised⟩
      · exact careful
      · rcases raises raised with begins | ⟨cause, record, found, rfl⟩
        · rw [once.once.alone statement (by simp [started]) begins]
          exact begins.unpaid
        · have unheld := once.fresh
          rw [started] at unheld
          rw [unheld.stored] at raised
          cases raised
    · have before := once.once
      have retried := once.retried
      rw [started] at before retried
      have open_before : ∀ id, statement = .markPending id → ∀ row ∈ s.tables.settlements.rows,
          row.id = id → row.status ≠ .settled := fun id same => retried id (by simp [same])
      have after := before.executed executed open_before
      rcases ended with ⟨rfl, rfl⟩ | ⟨rfl, rfl⟩
      · exact ⟨after, fresh, fun id member =>
          absurd (.inr (.inr ⟨id, rfl⟩)) (before.continued executed _ member)⟩
      · obtain ⟨unpaid, unjournaled⟩ := careful
        rw [started] at unpaid unjournaled
        refine ⟨?_, trivial, by simp⟩
        cases executed with
        | journaled e =>
          have journal := unjournaled (.insertJournal e) rfl
          cases journal
        | inserted | stored | settled | pended => exact after.cut unpaid
        | looked | readMoved | readRegistered | found | due =>
          refine before.cut fun id member => unpaid id ?_
          simpa using member

/-- A settled settlement stays settled. -/
theorem Till.Once.settled_step {s s' : Till} {occasion : Occasion} {id : Nat} (once : s.Once)
    (stepped : (till getByTicker).step s occasion = some s')
    (settled : ∃ row ∈ s.tables.settlements.rows, row.id = id ∧ row.status = .settled) :
    ∃ row ∈ s'.tables.settlements.rows, row.id = id ∧ row.status = .settled := by
  cases occasion with
  | call c =>
    obtain ⟨-, rfl⟩ := till_call stepped
    exact settled
  | turn ending =>
    have moved := till_turn stepped
    obtain ⟨tables, program⟩ := s'
    simp only at moved
    obtain ⟨statement, rest, started, ⟨rfl, -, -⟩ | ⟨more, executed, -⟩⟩ :=
      Program.next_cases moved
    · exact settled
    · obtain ⟨row, member, rfl, done⟩ := settled
      refine settled_kept executed member done ?_
      rintro rfl
      exact once.retried row.id (by simp [started]) row member rfl done

/-- In every such sequence of calls, each settlement has at most one entry, has
one once it is settled, and stays settled. -/
theorem moved_once {first rest : List Occasion} {middle final : Till}
    (along : (till getByTicker).Along Careful {} (first ++ rest))
    (reached : (till getByTicker).run {} first = some middle)
    (ran : (till getByTicker).run middle rest = some final) :
    (∀ row ∈ final.tables.settlements.rows, final.tables.entries row.id ≤ 1 ∧
      (row.status = .settled → final.tables.entries row.id = 1)) ∧
    ∀ row ∈ middle.tables.settlements.rows, row.status = .settled →
      ∃ row' ∈ final.tables.settlements.rows, row'.id = row.id ∧ row'.status = .settled := by
  have kept : ∀ s occasion s', Till.Once s → Careful s occasion →
      (till getByTicker).step s occasion = some s' → Till.Once s' :=
    fun _ _ _ once careful stepped => once.step careful stepped
  have once := System.invariant_along kept along.left reached till_once_start
  have ended := System.invariant_along kept (along.append reached) ran once
  refine ⟨fun row member => ?_, fun row member settled => ?_⟩
  · by_cases settled : row.status = .settled
    · have done := (ended.once.settled row member settled).1
      exact ⟨done.le, fun _ => done⟩
    · have before := ended.once.unsettled row member settled
      exact ⟨by omega, fun done => absurd done settled⟩
  · have stays : ∀ s occasion s', (Till.Once s ∧
          ∃ old ∈ s.tables.settlements.rows, old.id = row.id ∧ old.status = .settled) →
        Careful s occasion → (till getByTicker).step s occasion = some s' →
        Till.Once s' ∧
          ∃ old ∈ s'.tables.settlements.rows, old.id = row.id ∧ old.status = .settled :=
      fun s occasion s' held careful stepped =>
        ⟨held.1.step careful stepped, held.1.settled_step stepped held.2⟩
    exact (System.invariant_along stays (along.append reached) ran
      ⟨once, row, member, rfl, settled⟩).2

end Runs

/-! ## A settlement that is cut -/

section Cut

def purchase : SettlementRequest := ⟨⟨.ofNat 1, "USD"⟩, none, "AAPL", -100, 8⟩

/-- The purchase is registered, and settled the day after. -/
def registered : List Occasion := .call (.create purchase) :: returning 5

def processed : List Occasion := .call (.processDue 9) :: returning 6

theorem moved_once_processed : ∃ middle final,
    (till american).run {} registered = some middle ∧
    (till american).run middle processed = some final ∧
    (∀ row ∈ final.tables.settlements.rows, final.tables.entries row.id ≤ 1 ∧
      (row.status = .settled → final.tables.entries row.id = 1)) ∧
    ∀ row ∈ middle.tables.settlements.rows, row.status = .settled →
      ∃ row' ∈ final.tables.settlements.rows, row'.id = row.id ∧ row'.status = .settled := by
  have ends : (((till american).run {} registered).bind fun s =>
      (till american).run s processed).isSome := by decide +kernel
  obtain ⟨final, ran⟩ := Option.isSome_iff_exists.mp ends
  obtain ⟨middle, reached, ran⟩ := Option.bind_eq_some_iff.mp ran
  have along : (till american).Along Careful {} (registered ++ processed) := by decide +kernel
  exact ⟨middle, final, reached, ran, moved_once along reached ran⟩

/-- The process stops before the status is set, and the next one starts again. -/
def cutAndRepeated : List Occasion :=
  registered ++ .call (.processDue 9) :: returning 5 ++ .turn .raisedBefore :: processed

theorem journaled_twice : ∃ final, (till american).run {} cutAndRepeated = some final ∧
    ¬ ∀ row ∈ final.tables.settlements.rows, final.tables.entries row.id ≤ 1 := by
  have ends : ((till american).run {} cutAndRepeated).isSome := by decide +kernel
  obtain ⟨final, ran⟩ := Option.isSome_iff_exists.mp ends
  have reached : ((till american).run {} cutAndRepeated).map (fun s =>
      s.tables.settlements.rows.map fun row => s.tables.entries row.id) = some [2] := by
    decide +kernel
  rw [ran, Option.map_some, Option.some.injEq] at reached
  refine ⟨final, ran, fun single => ?_⟩
  have counted : 2 ∈ final.tables.settlements.rows.map fun row => final.tables.entries row.id := by
    rw [reached]
    decide
  obtain ⟨row, member, twice⟩ := List.mem_map.mp counted
  have once := single row member
  omega

end Cut

end MiniHedge.CashManagement
