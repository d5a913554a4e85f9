import MiniHedge.Positions.ReadModel
import MiniHedge.Library.Interleaving

/-! The retry loop of a command, one statement at a time, under READ COMMITTED.

A statement sees what is committed and what its own transaction wrote. Writes
wait in the transaction until it commits; a statement that would touch a unique
key or a row which another transaction holds is not enabled until that one
ends. An integrity error starts the next attempt, any other exception ends the
call.
-/

set_option autoImplicit false

namespace MiniHedge.Positions

open MiniHedge.Python MiniHedge.Library

/-- The variables of one attempt, once the aggregate is loaded. -/
structure Attempt where
  createdAt : Datetime
  stored : List TradeEvent
  position : PositionAggregate
  downstream : List DownstreamEvent
  deriving DecidableEq, Repr

inductive Stage where
  | idle
  | checked (createdAt : Datetime)
  | loaded (a : Attempt)
  | sequenced (a : Attempt) (sequenceNumber : Nat)
  | inserted (a : Attempt)
  | upserted (a : Attempt)
  | lotsDeleted (a : Attempt)
  | lotsInserted (a : Attempt)
  | done (result : Option (List DownstreamEvent))
  | failed (raised : Exc)
  deriving DecidableEq, Repr

structure Transaction where
  command : Command
  attempt : Nat := 1
  stage : Stage := .idle
  writes : List Write := []
  deriving DecidableEq, Repr

namespace Transaction

def raise (t : Transaction) (raised : Exc) : Transaction :=
  if raised = .integrityError ∧ t.attempt < maxRetries then
    { t with attempt := t.attempt + 1, stage := .idle, writes := [] }
  else { t with stage := .failed raised, writes := [] }

/-- What a statement of the transaction sees. -/
def view (t : Transaction) (db : Database) : Database := db.writes t.writes

def holdsEvent (t : Transaction) (record : PositionEventRecord) : Bool :=
  t.writes.any fun
    | .event r => r.aggregateId = record.aggregateId && r.sequenceNumber = record.sequenceNumber
    | _ => false

def holdsPosition (t : Transaction) (portfolioId : UUID) (instrumentId : String) : Bool :=
  t.writes.any fun
    | .position r => r.At portfolioId instrumentId
    | _ => false

/-- The transaction has deleted or inserted a lot with one of these identifiers. -/
def holdsLot (t : Transaction) (ids : List UUID) : Bool :=
  t.writes.any fun
    | .deleteLots rs => rs.any fun r => r.id ∈ ids
    | .insertLots rs => rs.any fun r => r.id ∈ ids
    | _ => false

/-- A write that is computed, or an exception. -/
def perform (t : Transaction) (stage : Stage) : Except Exc Write → Transaction
  | .error raised => t.raise raised
  | .ok w => { t with stage := stage, writes := t.writes ++ [w] }

/-- `get_by_aggregate`, `from_events` and `apply`. -/
def load (t : Transaction) (db : Database) (createdAt : Datetime) : Transaction :=
  match db.getByAggregate t.command.aggregateId with
  | .error raised => t.raise raised
  | .ok stored =>
    match t.command.load stored with
    | .error raised => t.raise raised
    | .ok (position, downstream) =>
      { t with stage := .loaded ⟨createdAt, stored, position, downstream⟩ }

end Transaction

/-- The next statement of a transaction; the instant is its start, where it starts. -/
def advance (db : Database) (others : List Transaction) (t : Transaction) (instant : Datetime) :
    Option (Database × Transaction) :=
  match t.stage with
  | .idle =>
    if t.command.duplicate db then some (db, { t with stage := .done none })
    else if t.command.idempotencyKey.isSome then some (db, { t with stage := .checked instant })
    else some (db, t.load db instant)
  | .checked createdAt => some (db, t.load db createdAt)
  | .loaded a =>
    some (db, { t with stage := .sequenced a (db.nextSequence t.command.aggregateId) })
  | .sequenced a n =>
    let record := t.command.record n a.createdAt
    if others.any (·.holdsEvent record) then none
    else some (db, t.perform (.inserted a) ((t.view db).insertEvent record))
  | .inserted a =>
    if others.any (·.holdsPosition a.position.portfolioId a.position.instrumentId) then none
    else some (db, t.perform (.upserted a)
      ((t.view db).upsertAggregate a.position t.command.currency))
  | .upserted a =>
    let held := (t.view db).lotsOf a.position.portfolioId a.position.instrumentId
    if others.any (·.holdsLot (held.map LotRecord.id)) then none
    else some (db, t.perform (.lotsDeleted a) (.ok ((t.view db).deleteLots a.position)))
  | .lotsDeleted a =>
    if others.any (·.holdsLot (a.position.lots.map LotState.lotId)) then none
    else some (db, t.perform (.lotsInserted a) ((t.view db).insertLots a.position))
  | .lotsInserted a =>
    some (db.writes t.writes, { t with stage := .done (some a.downstream), writes := [] })
  | .done _ => none
  | .failed _ => none

def transactions : Processes Database Transaction Datetime := ⟨advance⟩

abbrev ServerState := Processes.State Database Transaction

/-! ## What a transaction knows of its position

`Tracks` follows one attempt: what it loaded is a prefix of the history, which
may have grown since, and from its insert on it holds the number that follows
the history, so that the history cannot grow before it ends.
-/

def Stage.attempt : Stage → Option Attempt
  | .loaded a | .sequenced a _ | .inserted a | .upserted a | .lotsDeleted a | .lotsInserted a =>
    some a
  | .idle | .checked _ | .done _ | .failed _ => none

def Stage.committed : Stage → Bool
  | .done (some _) => true
  | _ => false

/-- The sequence number is in use. -/
def Database.Taken (db : Database) (aggregateId : String) (n : Nat) : Prop :=
  ∃ row ∈ db.events, row.aggregateId = aggregateId ∧ row.sequenceNumber = n

instance (db : Database) (aggregateId : String) (n : Nat) : Decidable (db.Taken aggregateId n) :=
  inferInstanceAs (Decidable (∃ row ∈ db.events, _))

/-- The transaction has inserted its event and not committed it. -/
def Transaction.InFlight (t : Transaction) : Prop :=
  match t.stage with
  | .inserted _ | .upserted _ | .lotsDeleted _ | .lotsInserted _ => True
  | .idle | .checked _ | .loaded _ | .sequenced _ _ | .done _ | .failed _ => False

instance (t : Transaction) : Decidable t.InFlight := by
  unfold Transaction.InFlight
  split <;> infer_instance

def NotBoth (t u : Transaction) : Prop := ¬ (t.InFlight ∧ u.InFlight)

theorem NotBoth.symm (t u : Transaction) (apart : NotBoth t u) : NotBoth u t :=
  fun both => apart both.symm

section Tracks

variable (portfolioId : UUID) (instrumentId : String)

structure Attempt.LoadedBy (a : Attempt) (c : Command) (db : Database) : Prop where
  stored : a.stored <+: historyOf portfolioId instrumentId db
  position : a.position = c.position a.stored

/-- The record that an attempt holds once its insert is accepted. -/
def Transaction.held (t : Transaction) (a : Attempt) (db : Database) : PositionEventRecord :=
  t.command.record ((historyOf portfolioId instrumentId db).length + 1) a.createdAt

def Transaction.Progress (db : Database) (t : Transaction) : Prop :=
  match t.stage with
  | .idle | .checked _ | .done _ | .failed _ => t.writes = []
  | .loaded a => t.writes = [] ∧ a.LoadedBy portfolioId instrumentId t.command db
  | .sequenced a n => t.writes = [] ∧ a.LoadedBy portfolioId instrumentId t.command db ∧
      1 ≤ n ∧ n ≤ (historyOf portfolioId instrumentId db).length + 1
  | .inserted a => a.LoadedBy portfolioId instrumentId t.command db ∧
      t.writes = [.event (t.held portfolioId instrumentId a db)]
  | .upserted a => a.LoadedBy portfolioId instrumentId t.command db ∧
      ∃ row, UpsertOf db a.position t.command.currency row ∧
        t.writes = [.event (t.held portfolioId instrumentId a db), .position row]
  | .lotsDeleted a => a.LoadedBy portfolioId instrumentId t.command db ∧
      ∃ row, UpsertOf db a.position t.command.currency row ∧
        t.writes = [.event (t.held portfolioId instrumentId a db), .position row,
          .deleteLots (db.lotsOf portfolioId instrumentId)]
  | .lotsInserted a => a.LoadedBy portfolioId instrumentId t.command db ∧
      ∃ row, UpsertOf db a.position t.command.currency row ∧
        t.writes = [.event (t.held portfolioId instrumentId a db), .position row,
          .deleteLots (db.lotsOf portfolioId instrumentId),
          .insertLots (a.position.lots.map (LotRecord.ofState portfolioId instrumentId))]

structure Transaction.Tracks (db : Database) (t : Transaction) : Prop where
  own : t.command.For portfolioId instrumentId
  progress : t.Progress portfolioId instrumentId db

end Tracks

section Steps

variable {portfolioId : UUID} {instrumentId : String} {db db' : Database}
  {others : List Transaction} {t t' : Transaction} {instant : Datetime}

/-- Whoever has inserted holds the number that follows the history. -/
theorem Transaction.Tracks.holdsEvent (tracks : t.Tracks portfolioId instrumentId db)
    (flying : t.InFlight) {record : PositionEventRecord}
    (own : record.aggregateId = aggregateId portfolioId instrumentId)
    (next : record.sequenceNumber = (historyOf portfolioId instrumentId db).length + 1) :
    t.holdsEvent record = true := by
  have named := tracks.own.aggregateId
  have progress := tracks.progress
  cases stage : t.stage with
  | inserted a =>
    simp only [Transaction.Progress, stage] at progress
    simp [Transaction.holdsEvent, progress.2, Transaction.held, Command.record, named, own, next]
  | upserted a | lotsDeleted a | lotsInserted a =>
    simp only [Transaction.Progress, stage] at progress
    obtain ⟨-, row, -, writes⟩ := progress
    simp [Transaction.holdsEvent, writes, Transaction.held, Command.record, named, own, next]
  | idle | checked _ | loaded _ | sequenced _ _ | done _ | failed _ =>
    simp [Transaction.InFlight, stage] at flying

theorem raise_tracks (own : t.command.For portfolioId instrumentId) (raised : Exc) :
    (t.raise raised).Tracks portfolioId instrumentId db := by
  by_cases again : raised = .integrityError ∧ t.attempt < maxRetries
  · simp only [Transaction.raise, if_pos again]
    exact ⟨own, rfl⟩
  · simp only [Transaction.raise, if_neg again]
    exact ⟨own, rfl⟩

@[simp] theorem raise_attempt (raised : Exc) : (t.raise raised).stage.attempt = none := by
  by_cases again : raised = .integrityError ∧ t.attempt < maxRetries <;>
    simp [Transaction.raise, again, Stage.attempt]

/-- A transaction without an attempt, or before its insert, is not in flight. -/
theorem InFlight.attempt (flying : t.InFlight) : ∃ a, t.stage.attempt = some a := by
  cases stage : t.stage with
  | inserted a | upserted a | lotsDeleted a | lotsInserted a => exact ⟨a, rfl⟩
  | idle | checked _ | loaded _ | sequenced _ _ | done _ | failed _ =>
    simp [Transaction.InFlight, stage] at flying

theorem raise_not_inFlight (raised : Exc) : ¬ (t.raise raised).InFlight := by
  intro flying
  obtain ⟨a, held⟩ := InFlight.attempt flying
  simp at held

theorem load_cases (stored : Stored db portfolioId instrumentId
    (historyOf portfolioId instrumentId db)) (own : t.command.For portfolioId instrumentId)
    (createdAt : Datetime) :
    ∃ downstream, t.load db createdAt = { t with stage := .loaded {
      createdAt, downstream
      stored := historyOf portfolioId instrumentId db
      position := t.command.position (historyOf portfolioId instrumentId db) } } := by
  obtain ⟨downstream, loaded⟩ := own.load stored
  refine ⟨downstream, ?_⟩
  simp only [Transaction.load, own.aggregateId, stored.getByAggregate, loaded]

/-- A transaction that has not inserted keeps its progress when others commit. -/
theorem Transaction.Tracks.grow (tracks : t.Tracks portfolioId instrumentId db)
    (grounded : ¬ t.InFlight) (grown : historyOf portfolioId instrumentId db <+:
      historyOf portfolioId instrumentId db') : t.Tracks portfolioId instrumentId db' := by
  have progress := tracks.progress
  refine ⟨tracks.own, ?_⟩
  cases stage : t.stage with
  | loaded a =>
    simp only [Transaction.Progress, stage] at progress ⊢
    exact ⟨progress.1, progress.2.stored.trans grown, progress.2.position⟩
  | sequenced a n =>
    simp only [Transaction.Progress, stage] at progress ⊢
    obtain ⟨clean, loaded, positive, bound⟩ := progress
    have longer := grown.length_le
    exact ⟨clean, ⟨loaded.stored.trans grown, loaded.position⟩, positive, by omega⟩
  | inserted a | upserted a | lotsDeleted a | lotsInserted a =>
    simp [Transaction.InFlight, stage] at grounded
  | idle | checked _ | done _ | failed _ =>
    simpa only [Transaction.Progress, stage] using progress

/-- Only a commit changes what the others see. -/
theorem advance_quiet (notCommit : ∀ a, t.stage ≠ .lotsInserted a)
    (advanced : advance db others t instant = some (db', t')) : db' = db := by
  cases stage : t.stage with
  | lotsInserted a => exact absurd stage (notCommit a)
  | idle =>
    simp only [advance, stage] at advanced
    split at advanced
    · cases advanced
      rfl
    · split at advanced <;> cases advanced <;> rfl
  | sequenced a n | inserted a | upserted a | lotsDeleted a =>
    simp only [advance, stage] at advanced
    split at advanced <;> cases advanced
    rfl
  | checked createdAt | loaded a =>
    simp only [advance, stage] at advanced
    cases advanced
    rfl
  | done result | failed raised => simp [advance, stage] at advanced

theorem advance_command (advanced : advance db others t instant = some (db', t')) :
    t'.command = t.command := by
  have raised : ∀ e, (t.raise e).command = t.command := by
    intro e
    by_cases again : e = .integrityError ∧ t.attempt < maxRetries <;>
      simp [Transaction.raise, again]
  have performed : ∀ stage result, (t.perform stage result).command = t.command := by
    intro stage result
    cases result with
    | error e => exact raised e
    | ok w => rfl
  have loaded : ∀ createdAt, (t.load db createdAt).command = t.command := by
    intro createdAt
    simp only [Transaction.load]
    split
    · exact raised _
    · split
      · exact raised _
      · rfl
  cases stage : t.stage with
  | idle =>
    simp only [advance, stage] at advanced
    split at advanced
    · cases advanced
      rfl
    · split at advanced <;> cases advanced
      · rfl
      · exact loaded _
  | checked createdAt =>
    simp only [advance, stage] at advanced
    cases advanced
    exact loaded _
  | sequenced a n | inserted a | upserted a | lotsDeleted a =>
    simp only [advance, stage] at advanced
    split at advanced <;> cases advanced
    exact performed _ _
  | loaded a | lotsInserted a =>
    simp only [advance, stage] at advanced
    cases advanced
    rfl
  | done result | failed raised => simp [advance, stage] at advanced

/-! ### The statements, one by one -/

variable (tracks : t.Tracks portfolioId instrumentId db)
include tracks

theorem upsert_tracks {a : Attempt} (stage : t.stage = .inserted a)
    (advanced : advance db others t instant = some (db', t')) :
    t'.Tracks portfolioId instrumentId db := by
  have progress := tracks.progress
  simp only [Transaction.Progress, stage] at progress
  obtain ⟨loaded, writes⟩ := progress
  simp only [advance, stage] at advanced
  split at advanced
  · cases advanced
  · simp only [Option.some.injEq, Prod.mk.injEq] at advanced
    obtain ⟨-, rfl⟩ := advanced
    cases upserted : (t.view db).upsertAggregate a.position t.command.currency with
    | error raised => exact raise_tracks tracks.own raised
    | ok w =>
      obtain ⟨-, row, rfl, of⟩ := Database.upsertAggregate_cases upserted
      have position : (t.view db).position a.position.portfolioId a.position.instrumentId =
          db.position a.position.portfolioId a.position.instrumentId := by
        rw [Transaction.view, writes]
        rfl
      have currency := of.currency
      rw [position] at currency
      refine ⟨tracks.own, loaded, row, ⟨of.own, of.quantity, of.avgCost, of.costBasis,
        of.realizedPnl, currency⟩, ?_⟩
      simp [Transaction.perform, writes, Transaction.held]

theorem deleteLots_tracks {a : Attempt} (stage : t.stage = .upserted a)
    (advanced : advance db others t instant = some (db', t')) :
    t'.Tracks portfolioId instrumentId db := by
  have progress := tracks.progress
  have own := tracks.own
  simp only [Transaction.Progress, stage] at progress
  obtain ⟨loaded, row, of, writes⟩ := progress
  simp only [advance, stage] at advanced
  split at advanced
  · cases advanced
  · simp only [Option.some.injEq, Prod.mk.injEq] at advanced
    obtain ⟨-, rfl⟩ := advanced
    have deleted : (t.view db).deleteLots a.position =
        .deleteLots (db.lotsOf portfolioId instrumentId) := by
      rw [Transaction.view, writes, Database.deleteLots, loaded.position,
        Command.position_portfolioId, Command.position_instrumentId, own.portfolio, own.instrument]
      rfl
    refine ⟨own, loaded, row, of, ?_⟩
    simp [Transaction.perform, writes, deleted, Transaction.held]

theorem insertLots_tracks {a : Attempt} (stage : t.stage = .lotsDeleted a)
    (advanced : advance db others t instant = some (db', t')) :
    t'.Tracks portfolioId instrumentId db := by
  have progress := tracks.progress
  have own := tracks.own
  simp only [Transaction.Progress, stage] at progress
  obtain ⟨loaded, row, of, writes⟩ := progress
  simp only [advance, stage] at advanced
  split at advanced
  · cases advanced
  · simp only [Option.some.injEq, Prod.mk.injEq] at advanced
    obtain ⟨-, rfl⟩ := advanced
    cases inserted : (t.view db).insertLots a.position with
    | error raised => exact raise_tracks own raised
    | ok w =>
      obtain ⟨rfl, -, -⟩ := Database.insertLots_cases inserted
      refine ⟨own, loaded, row, of, ?_⟩
      simp [Transaction.perform, writes, Transaction.held, loaded.position, own.portfolio,
        own.instrument]

/-- A commit whose transaction loaded the whole history. -/
theorem commit_cases {a : Attempt} (stage : t.stage = .lotsInserted a)
    (whole : a.stored = historyOf portfolioId instrumentId db)
    (advanced : advance db others t instant = some (db', t')) :
    t' = { t with stage := .done (some a.downstream), writes := [] } ∧
      ∃ row, UpsertOf db (t.command.position (historyOf portfolioId instrumentId db))
          t.command.currency row ∧
        db' = db.writes (t.command.writes (historyOf portfolioId instrumentId db) a.createdAt row
          (db.lotsOf portfolioId instrumentId)) := by
  have progress := tracks.progress
  have own := tracks.own
  simp only [Transaction.Progress, stage] at progress
  obtain ⟨loaded, row, of, writes⟩ := progress
  simp only [advance, stage, Option.some.injEq, Prod.mk.injEq] at advanced
  obtain ⟨rfl, rfl⟩ := advanced
  have position := loaded.position
  rw [whole] at position
  refine ⟨rfl, row, position ▸ of, ?_⟩
  rw [writes, Command.writes, own.portfolio, own.instrument, ← position]
  rfl

variable (stored : Stored db portfolioId instrumentId (historyOf portfolioId instrumentId db))
include stored

theorem sequence_tracks {a : Attempt} (stage : t.stage = .loaded a) :
    ({ t with stage := .sequenced a (db.nextSequence t.command.aggregateId) } :
      Transaction).Tracks portfolioId instrumentId db := by
  have progress := tracks.progress
  simp only [Transaction.Progress, stage] at progress
  refine ⟨tracks.own, progress.1, progress.2, ?_⟩
  rw [tracks.own.aggregateId, stored.nextSequence]
  omega

/-- The `INSERT` of the event is accepted only with the number that follows the
history, and only while no other transaction of the position holds it. -/
theorem insert_cases {a : Attempt} {n : Nat} (stage : t.stage = .sequenced a n)
    (advanced : advance db others t instant = some (db', t')) :
    (∃ raised, t' = t.raise raised) ∨
      (∀ q ∈ others, q.Tracks portfolioId instrumentId db → ¬ q.InFlight) ∧
        ¬ db.Taken t.command.aggregateId n ∧
        t' = { t with stage := .inserted a,
                      writes := [.event (t.held portfolioId instrumentId a db)] } := by
  have progress := tracks.progress
  simp only [Transaction.Progress, stage] at progress
  obtain ⟨clean, loaded, positive, bound⟩ := progress
  simp only [advance, stage] at advanced
  split at advanced
  · cases advanced
  · rename_i free
    simp only [Option.some.injEq, Prod.mk.injEq, Transaction.view, clean, Database.writes_nil]
      at advanced
    obtain ⟨-, rfl⟩ := advanced
    cases inserted : db.insertEvent (t.command.record n a.createdAt) with
    | error raised => exact .inl ⟨raised, rfl⟩
    | ok w =>
      right
      simp only [Database.insertEvent] at inserted
      split at inserted
      · cases inserted
      split at inserted
      · cases inserted
      rename_i absent
      obtain rfl := Except.ok.inj inserted
      have notTaken : ¬ (1 ≤ n ∧ n ≤ (historyOf portfolioId instrumentId db).length) := fun taken =>
        absent ((stored.taken_iff n).mpr taken |>.imp fun row found =>
          ⟨found.1, found.2.1.trans tracks.own.aggregateId.symm, found.2.2⟩)
      have next : n = (historyOf portfolioId instrumentId db).length + 1 := by omega
      refine ⟨fun q member others' flying => ?_, absent, ?_⟩
      · have held : q.holdsEvent (t.command.record n a.createdAt) = true :=
          others'.holdsEvent flying tracks.own.aggregateId next
        exact free (List.any_eq_true.mpr ⟨q, member, held⟩)
      · simp [Transaction.perform, clean, Transaction.held, next]

theorem advance_tracks (notCommit : ∀ a, t.stage ≠ .lotsInserted a)
    (advanced : advance db others t instant = some (db', t')) :
    t'.Tracks portfolioId instrumentId db := by
  have loads : ∀ createdAt, t.writes = [] →
      (t.load db createdAt).Tracks portfolioId instrumentId db := by
    intro createdAt clean
    obtain ⟨downstream, same⟩ := load_cases stored tracks.own createdAt
    rw [same]
    exact ⟨tracks.own, clean, List.prefix_rfl, rfl⟩
  have progress := tracks.progress
  cases stage : t.stage with
  | idle =>
    simp only [Transaction.Progress, stage] at progress
    simp only [advance, stage] at advanced
    split at advanced
    · cases advanced
      exact ⟨tracks.own, progress⟩
    · split at advanced
      · cases advanced
        exact ⟨tracks.own, progress⟩
      · cases advanced
        exact loads instant progress
  | checked createdAt =>
    simp only [Transaction.Progress, stage] at progress
    simp only [advance, stage] at advanced
    cases advanced
    exact loads createdAt progress
  | loaded a =>
    simp only [advance, stage] at advanced
    cases advanced
    exact sequence_tracks tracks stored stage
  | sequenced a n =>
    simp only [Transaction.Progress, stage] at progress
    rcases insert_cases tracks stored stage advanced with ⟨raised, rfl⟩ | ⟨-, -, rfl⟩
    · exact raise_tracks tracks.own raised
    · exact ⟨tracks.own, progress.2.1, rfl⟩
  | inserted a => exact upsert_tracks tracks stage advanced
  | upserted a => exact deleteLots_tracks tracks stage advanced
  | lotsDeleted a => exact insertLots_tracks tracks stage advanced
  | lotsInserted a => exact absurd stage (notCommit a)
  | done result | failed raised => simp [advance, stage] at advanced

/-- An attempt begins with the whole history and stays what it is. -/
theorem advance_attempt (advanced : advance db others t instant = some (db', t')) :
    ∀ a ∈ t'.stage.attempt,
      t.stage.attempt = some a ∨ a.stored = historyOf portfolioId instrumentId db := by
  have loads : ∀ createdAt, ∀ a ∈ (t.load db createdAt).stage.attempt,
      a.stored = historyOf portfolioId instrumentId db := by
    intro createdAt a member
    obtain ⟨downstream, same⟩ := load_cases stored tracks.own createdAt
    rw [same] at member
    cases member
    rfl
  have performs : ∀ stage result, t.stage.attempt = stage.attempt →
      ∀ a ∈ (t.perform stage result).stage.attempt, t.stage.attempt = some a := by
    intro stage result same a member
    cases result with
    | error raised => simp [Transaction.perform] at member
    | ok w => exact same.trans member
  intro a member
  cases stage : t.stage with
  | idle =>
    simp only [advance, stage] at advanced
    split at advanced
    · cases advanced
      cases member
    · split at advanced
      · cases advanced
        cases member
      · cases advanced
        exact .inr (loads instant a member)
  | checked createdAt =>
    simp only [advance, stage] at advanced
    cases advanced
    exact .inr (loads createdAt a member)
  | loaded b =>
    simp only [advance, stage] at advanced
    cases advanced
    exact .inl member
  | sequenced b n | inserted b | upserted b | lotsDeleted b =>
    simp only [advance, stage] at advanced
    split at advanced <;> cases advanced
    left
    rw [← stage]
    exact performs _ _ (by rw [stage]; rfl) a member
  | lotsInserted b =>
    simp only [advance, stage] at advanced
    cases advanced
    cases member
  | done result | failed raised => simp [advance, stage] at advanced

/-- The only way to be in flight is through an insert. -/
theorem advance_enters (grounded : ¬ t.InFlight) (flying : t'.InFlight)
    (advanced : advance db others t instant = some (db', t')) :
    ∃ a n, t.stage = .sequenced a n ∧ ¬ db.Taken t.command.aggregateId n ∧
      ∀ q ∈ others, q.Tracks portfolioId instrumentId db → ¬ q.InFlight := by
  have loads : ∀ createdAt, ¬ (t.load db createdAt).InFlight := by
    intro createdAt
    obtain ⟨downstream, same⟩ := load_cases stored tracks.own createdAt
    rw [same]
    exact id
  cases stage : t.stage with
  | idle =>
    simp only [advance, stage] at advanced
    split at advanced
    · cases advanced
      exact flying.elim
    · split at advanced
      · cases advanced
        exact flying.elim
      · cases advanced
        exact absurd flying (loads instant)
  | checked createdAt =>
    simp only [advance, stage] at advanced
    cases advanced
    exact absurd flying (loads createdAt)
  | loaded a =>
    simp only [advance, stage] at advanced
    cases advanced
    exact flying.elim
  | sequenced a n =>
    rcases insert_cases tracks stored stage advanced with ⟨raised, rfl⟩ | ⟨alone, free, -⟩
    · exact absurd flying (raise_not_inFlight raised)
    · exact ⟨a, n, rfl, free, alone⟩
  | inserted a | upserted a | lotsDeleted a | lotsInserted a =>
    simp [Transaction.InFlight, stage] at grounded
  | done result | failed raised => simp [advance, stage] at advanced

end Steps

/-! ## A transaction that runs alone -/

theorem run_alone_loaded {db next : Database} {c : Command} {a : Attempt} {w : Write}
    (appended : db.insertEvent (c.record (db.nextSequence c.aggregateId) a.createdAt) = .ok w)
    (projected : (db.write w).project a.position c.currency = .ok next) (instant : Datetime) :
    transactions.system.run ⟨db, [{ command := c, stage := .loaded a }]⟩
        (List.replicate 6 ⟨0, instant⟩) =
      some ⟨next, [{ command := c, stage := .done (some a.downstream) }]⟩ := by
  simp only [Database.project, Database.projectLots, Bind.bind, Except.bind] at projected
  cases upserted : (db.write w).upsertAggregate a.position c.currency with
  | error e => simp [upserted] at projected
  | ok u =>
    simp only [upserted] at projected
    cases inserted : (((db.write w).write u).write
        (((db.write w).write u).deleteLots a.position)).insertLots a.position with
    | error e => simp [inserted] at projected
    | ok i =>
      simp only [inserted, Pure.pure, Except.pure, Except.ok.injEq] at projected
      simp only [List.replicate, System.run_cons, System.run_nil, Processes.step_single,
        transactions, advance, List.any_nil, Bool.false_eq_true, if_false, Option.map_some,
        Option.bind_some, Transaction.view, Transaction.perform, Database.writes_nil, appended,
        List.nil_append, List.cons_append, Database.writes_cons, upserted, inserted, projected]

/-- A transaction that runs alone does what the sequential attempt does. -/
theorem run_alone {db next : Database} {c : Command} {createdAt : Datetime}
    {downstream : Option (List DownstreamEvent)}
    (attempted : attempt db createdAt c = .ok (next, downstream)) :
    ∃ turns, transactions.system.run ⟨db, [{ command := c }]⟩ turns =
      some ⟨next, [{ command := c, stage := .done downstream }]⟩ := by
  cases duplicate : c.duplicate db with
  | true =>
    simp only [attempt, duplicate, if_true, Pure.pure, Except.pure, Except.ok.injEq,
      Prod.mk.injEq] at attempted
    obtain ⟨rfl, rfl⟩ := attempted
    refine ⟨[⟨0, createdAt⟩], ?_⟩
    simp [Processes.step_single, transactions, advance, duplicate]
  | false =>
    simp only [attempt, duplicate, Bool.false_eq_true, if_false, Bind.bind, Except.bind]
      at attempted
    cases read : db.getByAggregate c.aggregateId with
    | error e => simp [read] at attempted
    | ok stored =>
      simp only [read] at attempted
      cases loaded : c.load stored with
      | error e => simp [loaded] at attempted
      | ok result =>
        obtain ⟨position, emitted⟩ := result
        simp only [loaded] at attempted
        cases appended : db.insertEvent (c.record (db.nextSequence c.aggregateId) createdAt) with
        | error e => simp [appended] at attempted
        | ok w =>
          simp only [appended] at attempted
          cases projected : (db.write w).project position c.currency with
          | error e => simp [projected] at attempted
          | ok final =>
            simp only [projected, Pure.pure, Except.pure, Except.ok.injEq, Prod.mk.injEq]
              at attempted
            obtain ⟨rfl, rfl⟩ := attempted
            have rest := run_alone_loaded (a := ⟨createdAt, stored, position, emitted⟩) appended
              projected createdAt
            have load : ∀ stage, Transaction.load { command := c, stage := stage } db createdAt =
                { command := c, stage := .loaded ⟨createdAt, stored, position, emitted⟩ } := by
              intro stage
              simp [Transaction.load, read, loaded]
            cases keyed : c.idempotencyKey.isSome with
            | true =>
              have check : transactions.advance db [] { command := c } createdAt =
                  some (db, { command := c, stage := .checked createdAt }) := by
                simp [transactions, advance, duplicate, keyed]
              have loading : transactions.advance db []
                  { command := c, stage := .checked createdAt } createdAt =
                    some (db, { command := c,
                                stage := .loaded ⟨createdAt, stored, position, emitted⟩ }) := by
                simp only [transactions, advance, load]
              exact ⟨_, Processes.run_single transactions check
                (Processes.run_single transactions loading rest)⟩
            | false =>
              have loading : transactions.advance db [] { command := c } createdAt =
                  some (db, { command := c,
                              stage := .loaded ⟨createdAt, stored, position, emitted⟩ }) := by
                simp [transactions, advance, duplicate, keyed, load]
              exact ⟨_, Processes.run_single transactions loading rest⟩

end MiniHedge.Positions
