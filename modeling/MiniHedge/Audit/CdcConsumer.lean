import MiniHedge.Audit.ChangeEvents
import MiniHedge.Library.BatchConsumer

/-! `CdcAuditConsumer`: a row of the audit log for each change.

A row gets a fresh id whenever it is written. A message without a value or without
an operation leaves no row; what cannot be stored is logged. The place of a row in
the chain of hashes is left out.
-/

set_option autoImplicit false

namespace MiniHedge.Audit

open MiniHedge.Python MiniHedge.Library

/-! ## Rows -/

/-- `_OP_NAMES.get(operation, operation)`. -/
def opName (operation : String) : String :=
  match operation with
  | "c" => "INSERT"
  | "u" => "UPDATE"
  | "d" => "DELETE"
  | "r" => "SNAPSHOT"
  | other => other

/-- `str(value) if value is not None else None`. -/
def shownOrNone (value : Json) : Option String := if value = .null then none else some value.str

/-- `_sanitize_row`. -/
def sanitizeRow (row : Parameters) : List (String × Option String) :=
  row.map fun item => (item.1, shownOrNone item.2)

/-- `a != b`: numbers are compared by value. -/
def differs : Json → Json → Bool
  | .number a _, .number b _ => a ≠ b
  | .number a _, .bool b | .bool b, .number a _ => a ≠ if b then 1 else 0
  | a, b => a ≠ b

/-- `_compute_diff`: the fields that changed, with their values before and after. -/
def computeDiff (before after : Parameters) : List (String × Option String × Option String) :=
  let keys := ((before ++ after).map (·.1)).dedup
  (keys.filter fun key => differs (before.get key .null) (after.get key .null)).map fun key =>
    (key, shownOrNone (before.get key .null), shownOrNone (after.get key .null))

structure ChangePayload where
  cdcOperation : String
  schema : String
  table : String
  cdcTopic : String
  before : Option (List (String × Option String))
  after : Option (List (String × Option String))
  changes : Option (List (String × Option String × Option String))
  deriving DecidableEq, Repr

structure CdcRecord where
  eventId : String
  eventType : String
  actorId : String
  actorType : String
  fundSlug : Option String
  payload : ChangePayload
  deriving DecidableEq, Repr

/-- The slug of a schema that starts as the funds' do. -/
def slugOf (schema : String) : Option String :=
  match schema.toList with
  | 'f' :: 'u' :: 'n' :: 'd' :: '_' :: rest => some (String.ofList (replace '_' '-' rest))
  | _ => none

/-- What `_persist_change` writes, with the `uuid4().hex` that is drawn for it. -/
def cdcRecord (message : CdcMessage) (hex : String) : Option CdcRecord := do
  let .event event := message.value | none
  let operation ← event.op
  let schema := event.source.schema.getD ""
  let table := event.source.table.getD ""
  return {
    eventId := "cdc-" ++ hex
    eventType := "cdc." ++ table ++ "." ++ (opName operation).toLower
    actorId := "debezium"
    actorType := "system"
    fundSlug := slugOf schema
    payload := {
      cdcOperation := opName operation
      schema
      table
      cdcTopic := message.topic
      before := event.before.map sanitizeRow
      after := event.after.map sanitizeRow
      changes :=
        match event.before, event.after with
        | some before, some after =>
          if operation = "u" ∧ before ≠ [] ∧ after ≠ [] then some (computeDiff before after)
          else none
        | _, _ => none } }

/-! ## The loop -/

structure Auditing where
  rows : List (Delivery CdcMessage × CdcRecord) := []
  /-- The messages since the start that were handled without a row. -/
  missed : List (Delivery CdcMessage) := []
  deriving DecidableEq, Repr

/-- The id that is drawn, and whether the row is stored; otherwise the insert raises. -/
structure Persist where
  hex : String
  stored : Bool
  deriving DecidableEq, Repr

namespace Auditing

variable (e : Auditing)

/-- `_persist_change`; event ids are unique. -/
def persistChange (d : Delivery CdcMessage) (input : Persist) : Option Auditing :=
  match cdcRecord d.message input.hex with
  | none => some { e with missed := e.missed ++ [d] }
  | some record =>
    if input.stored ∧ ∀ entry ∈ e.rows, entry.2.eventId ≠ record.eventId then
      some { e with rows := e.rows ++ [(d, record)] }
    else some { e with missed := e.missed ++ [d] }

/-- The rows that a message has left. -/
def rowsOf (d : Delivery CdcMessage) : List CdcRecord :=
  (e.rows.filter fun entry => entry.1 = d).map (·.2)

/-- The message has one row, which tells of its change. -/
def AuditedOnce (d : Delivery CdcMessage) : Prop :=
  ∃ record hex, e.rowsOf d = [record] ∧ cdcRecord d.message hex = some record

/-- The messages whose inserts went through. -/
def inserted : List (Delivery CdcMessage) := e.rows.map (·.1)

/-- The messages that were handled and have no row. -/
def unaudited : List (Delivery CdcMessage) := e.missed.filter fun d => e.rowsOf d = []

/-- No second row is stored for a message. -/
def Fresh (d : Delivery CdcMessage) (input : Persist) : Prop := input.stored → e.rowsOf d = []

instance (d : Delivery CdcMessage) (input : Persist) : Decidable (e.Fresh d input) :=
  inferInstanceAs (Decidable (_ = true → _))

end Auditing

def cdcAuditConsumer : Handling CdcMessage Auditing Persist Empty where
  maxRecords := 50
  handle := Auditing.persistChange
  background _ input := nomatch input
  restarted e := { e with missed := [] }

/-! ## One message -/

namespace Auditing

variable {e e' : Auditing} {d other : Delivery CdcMessage} {input : Persist}

/-- A message has no row, or the one. -/
def OnceEach (e : Auditing) : Prop := ∀ d, e.rowsOf d = [] ∨ e.AuditedOnce d

theorem rowsOf_stored (record : CdcRecord) (missed : List (Delivery CdcMessage)) :
    rowsOf ⟨e.rows ++ [(d, record)], missed⟩ other =
      e.rowsOf other ++ if d = other then [record] else [] := by
  by_cases same : d = other
  · simp [rowsOf, same]
  · simp [rowsOf, same]

/-- A message that is handled gets its row, or is missed. -/
theorem persistChange_cases (persisted : e.persistChange d input = some e') :
    (∃ record, cdcRecord d.message input.hex = some record ∧ input.stored ∧
      e' = { e with rows := e.rows ++ [(d, record)] }) ∨
      e' = { e with missed := e.missed ++ [d] } := by
  unfold persistChange at persisted
  split at persisted
  · exact .inr (Option.some.inj persisted).symm
  · rename_i record written
    split at persisted
    · rename_i accepted
      exact .inl ⟨record, written, accepted.1, (Option.some.inj persisted).symm⟩
    · exact .inr (Option.some.inj persisted).symm

theorem passes_stored {record : CdcRecord} (once : e.OnceEach) (fresh : e.rowsOf d = [])
    (written : cdcRecord d.message input.hex = some record) :
    OnceEach { e with rows := e.rows ++ [(d, record)] } ∧
      Passes AuditedOnce unaudited (d :: e.unaudited) e
        { e with rows := e.rows ++ [(d, record)] } := by
  have own : AuditedOnce { e with rows := e.rows ++ [(d, record)] } d :=
    ⟨record, input.hex, by simp [rowsOf_stored, fresh], written⟩
  have rest : ∀ other, d ≠ other →
      rowsOf { e with rows := e.rows ++ [(d, record)] } other = e.rowsOf other := by
    intro other apart
    simp [rowsOf_stored, apart]
  refine ⟨fun other => ?_, ?_, ?_, ?_⟩
  · by_cases same : d = other
    · exact .inr (same ▸ own)
    · rw [AuditedOnce, rest other same]
      exact once other
  · intro other audited
    by_cases same : d = other
    · exact same ▸ own
    · rw [AuditedOnce, rest other same]
      exact audited
  · intro other member
    obtain ⟨missed, none⟩ := List.mem_filter.mp member
    rw [decide_eq_true_eq] at none
    by_cases same : d = other
    · exact same ▸ List.mem_cons_self
    · rw [rest other same] at none
      exact List.mem_cons_of_mem d (List.mem_filter.mpr ⟨missed, by simpa using none⟩)
  · intro other member
    by_cases same : d = other
    · exact .inl (same ▸ own)
    · obtain ⟨missed, none⟩ := List.mem_filter.mp
        ((List.mem_cons.mp member).resolve_left (Ne.symm same))
      refine .inr (List.mem_filter.mpr ⟨missed, ?_⟩)
      rw [rest other same]
      exact none

theorem passes_missed (once : e.OnceEach) :
    OnceEach { e with missed := e.missed ++ [d] } ∧
      Passes AuditedOnce unaudited (d :: e.unaudited) e
        { e with missed := e.missed ++ [d] } := by
  refine ⟨once, fun other audited => audited, ?_, ?_⟩
  · intro other member
    obtain ⟨missed, none⟩ := List.mem_filter.mp member
    rcases List.mem_append.mp missed with before | last
    · exact List.mem_cons_of_mem d (List.mem_filter.mpr ⟨before, none⟩)
    · exact List.mem_cons.mpr (.inl (List.mem_singleton.mp last))
  · intro other member
    rcases once other with none | audited
    · refine .inr (List.mem_filter.mpr ⟨?_, decide_eq_true none⟩)
      rcases List.mem_cons.mp member with rfl | before
      · simp
      · exact List.mem_append_left _ (List.mem_filter.mp before).1
    · exact .inl audited

theorem settles_auditing :
    cdcAuditConsumer.Settles AuditedOnce unaudited OnceEach Fresh fun _ => True where
  handle once _ fresh persisted := by
    rcases persistChange_cases persisted with ⟨record, written, stored, rfl⟩ | rfl
    · exact passes_stored once (fresh stored) written
    · exact passes_missed once
  background {_ _ input} _ _ := nomatch input
  restarted once := ⟨once, fun _ audited => audited, rfl⟩

theorem rowsOf_eq_nil : e.rowsOf d = [] ↔ d ∉ e.inserted := by
  simp only [rowsOf, inserted, List.map_eq_nil_iff, List.filter_eq_nil_iff, List.mem_map, decide_eq_true_eq,
    not_exists, not_and]

theorem marks_inserted : cdcAuditConsumer.Marks inserted where
  handle {e e' d input} persisted other member := by
    rcases persistChange_cases persisted with ⟨record, -, -, rfl⟩ | rfl
    · rw [inserted, List.map_append] at member
      rcases List.mem_append.mp member with before | new
      · exact List.mem_cons_of_mem d before
      · exact List.mem_cons.mpr (.inl (List.mem_singleton.mp new))
    · exact List.mem_cons_of_mem d member
  background {_ _ input} _ := nomatch input
  restarted _ := List.Subset.refl _

end Auditing

/-! ## Runs -/

section Sound

variable {topic : Topic CdcMessage} {inputs : List (ConsumerInput CdcMessage Persist Empty)}
  {s : Consumer CdcMessage Auditing}

theorem auditedOnce_of_sound
    (sound : (Consumer.system cdcAuditConsumer).Along
      (Consumer.Sound Auditing.unaudited Auditing.Fresh) (Consumer.start topic {}) inputs)
    (ran : (Consumer.system cdcAuditConsumer).run (Consumer.start topic {}) inputs = some s)
    (d : Delivery CdcMessage) (committed : s.Committed d) : s.effects.AuditedOnce d := by
  have publishes : ∀ input ∈ inputs, input.Publishes fun _ : CdcMessage => True := by
    intro input _
    cases input <;> trivial
  have kept := Consumer.kept_of_sound Auditing.settles_auditing (fun _ => .inl rfl) rfl
    (fun _ _ _ _ => trivial) publishes sound ran
  exact (kept.settled_of_committed committed).1

/-- What the consumer can stand. A commit is applied only where each message since the start whose
insert raised, or that has no operation, has come again and was inserted. A restart or a rebalance
goes back to no message that was inserted, and a rebalance to none of the batch. -/
def Stands (s : Consumer CdcMessage Auditing) (input : ConsumerInput CdcMessage Persist Empty) : Prop :=
  Consumer.ReadsOn Auditing.inserted s input ∧
    match input with
    | .commit applied => applied → ∀ d ∈ s.effects.missed, d ∈ s.effects.inserted
    | .publish .. | .poll _ | .handle _ | .background _ | .assign _ | .restart => True

instance (s : Consumer CdcMessage Auditing) (input : ConsumerInput CdcMessage Persist Empty) :
    Decidable (Stands s input) :=
  match input with
  | .commit _ => inferInstanceAs (Decidable (_ ∧ (_ = true → ∀ d ∈ s.effects.missed, _)))
  | .publish .. | .poll _ | .handle _ | .background _ | .assign _ | .restart =>
    inferInstanceAs (Decidable (_ ∧ True))

theorem sound_of_stands {input : ConsumerInput CdcMessage Persist Empty} (once : s.ReadOnce Auditing.inserted)
    (stands : Stands s input) : Consumer.Sound Auditing.unaudited Auditing.Fresh s input := by
  cases input with
  | handle input =>
    intro d next _
    exact Auditing.rowsOf_eq_nil.mpr (once.fresh next)
  | commit applied =>
    intro effective
    refine List.filter_eq_nil_iff.mpr fun d member none => ?_
    exact Auditing.rowsOf_eq_nil.mp (of_decide_eq_true none) (stands.2 effective d member)
  | publish _ _ | poll _ | background _ | assign _ | restart => trivial

/-- In runs whose redeliveries, failures and restarts the consumer can stand, each message that is
committed has one row. -/
theorem auditedOnce_of_stands
    (stands : (Consumer.system cdcAuditConsumer).Along Stands (Consumer.start topic {}) inputs)
    (ran : (Consumer.system cdcAuditConsumer).run (Consumer.start topic {}) inputs = some s)
    (d : Delivery CdcMessage) (committed : s.Committed d) : s.effects.AuditedOnce d := by
  have initial : (Consumer.start topic ({} : Auditing)).ReadOnce Auditing.inserted := Consumer.readOnce_start rfl
  refine auditedOnce_of_sound (System.Along.imp ?_ ?_ stands initial) ran d committed
  · intro before input after once met stepped
    exact once.step Auditing.marks_inserted met.1 stepped
  · intro before input once met
    exact sound_of_stands once met

end Sound

section OneChange

def orderInsert : CdcMessage where
  topic := "cdc.fund_alpha.orders"
  value := .event {
    op := some "c"
    after := some [("id", .text "o1"), ("state", .text "sent")]
    source := ⟨some "fund_alpha", some "orders", some 7⟩ }

/-- The insert raises, the process restarts, and then the row is stored. -/
def storedLater : List (ConsumerInput CdcMessage Persist Empty) :=
  [.publish 0 orderInsert, .poll [(0, 50)], .handle ⟨"h1", false⟩, .restart, .poll [(0, 50)],
    .handle ⟨"h2", true⟩, .commit true]

theorem auditedOnce_storedLater :
    ∃ s, (Consumer.system cdcAuditConsumer).run (Consumer.start [{}] {}) storedLater = some s ∧
      s.Committed ⟨0, 0, orderInsert⟩ ∧ s.effects.AuditedOnce ⟨0, 0, orderInsert⟩ := by
  have reached : ∃ s, (Consumer.system cdcAuditConsumer).run (Consumer.start [{}] {}) storedLater =
      some s ∧ s.Committed ⟨0, 0, orderInsert⟩ :=
    ⟨{
      topic := [⟨[orderInsert], 1, some 1⟩]
      delivered := [⟨0, 0, orderInsert⟩, ⟨0, 0, orderInsert⟩]
      effects := { rows := (cdcRecord orderInsert "h2").toList.map (⟨0, 0, orderInsert⟩, ·) } },
      by decide +kernel, by simp, _, rfl, 1, rfl, by decide⟩
  obtain ⟨s, ran, committed⟩ := reached
  exact ⟨s, ran, committed, auditedOnce_of_stands (by decide +kernel) ran _ committed⟩

/-- The row is stored, and the process restarts before it commits. -/
def storedTwice : List (ConsumerInput CdcMessage Persist Empty) :=
  [.publish 0 orderInsert, .poll [(0, 50)], .handle ⟨"h1", true⟩, .restart, .poll [(0, 50)],
    .handle ⟨"h2", true⟩, .commit true]

theorem redelivery_audited_twice :
    ∃ s, (Consumer.system cdcAuditConsumer).run (Consumer.start [{}] {}) storedTwice = some s ∧
      s.Committed ⟨0, 0, orderInsert⟩ ∧ ¬ s.effects.AuditedOnce ⟨0, 0, orderInsert⟩ := by
  refine ⟨{
    topic := [⟨[orderInsert], 1, some 1⟩]
    delivered := [⟨0, 0, orderInsert⟩, ⟨0, 0, orderInsert⟩]
    effects := { rows := ((cdcRecord orderInsert "h1").toList ++
      (cdcRecord orderInsert "h2").toList).map (⟨0, 0, orderInsert⟩, ·) } }, by decide +kernel,
    ⟨by simp, _, rfl, 1, rfl, by decide⟩, ?_⟩
  rintro ⟨record, hex, one, -⟩
  have length := congrArg List.length one
  rw [List.length_singleton] at length
  revert length
  decide +kernel

end OneChange

end MiniHedge.Audit
