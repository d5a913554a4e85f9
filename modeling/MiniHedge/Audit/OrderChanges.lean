import MiniHedge.Audit.CdcTransformer

/-! The changes of the orders table, and what the transformer publishes of them.

A change is published for all rows that are inserted and for all orders that
become filled. The state of an order is in the column `state`; the mapping reads
a column `status`, which there is not.
-/

set_option autoImplicit false

namespace MiniHedge.Audit

open MiniHedge.Python MiniHedge.Library MiniHedge.Shared

/-! ## The table -/

/-- The columns of `OrderRecord` that no function here reads. -/
def otherColumns : List String :=
  ["order_type", "filled_quantity", "limit_price", "stop_price", "avg_fill_price",
    "rejection_reason", "compliance_results", "time_in_force", "fund_slug", "parent_order_id",
    "algo_type", "algo_params", "is_parent", "broker_id", "arrival_mid_price", "arrival_spread",
    "arrival_timestamp", "created_at", "updated_at"]

structure OrderRow where
  id : String
  portfolioId : String
  instrumentId : String
  side : String
  quantity : Json
  state : String
  /-- The values of the other columns. -/
  others : List Json := []
  deriving DecidableEq, Repr

/-- The row in a change event. -/
def OrderRow.image (row : OrderRow) : Parameters :=
  [("id", .text row.id), ("portfolio_id", .text row.portfolioId),
    ("instrument_id", .text row.instrumentId), ("side", .text row.side),
    ("quantity", row.quantity), ("state", .text row.state)] ++ otherColumns.zip row.others

/-- A statement on the table: an insert, or an update of the row with its id. -/
inductive OrderWrite where
  | insert (row : OrderRow)
  | update (row : OrderRow)
  deriving DecidableEq, Repr

structure OrderChange where
  before : Option OrderRow
  after : OrderRow
  deriving DecidableEq, Repr

/-- What the log of the database keeps of statements on the rows. -/
def orderChanges : List OrderRow → List OrderWrite → List OrderChange
  | _, [] => []
  | rows, .insert row :: rest =>
    if rows.any (·.id = row.id) then orderChanges rows rest
    else ⟨none, row⟩ :: orderChanges (rows ++ [row]) rest
  | rows, .update row :: rest =>
    match rows.find? (·.id = row.id) with
    | none => orderChanges rows rest
    | some before => ⟨some before, row⟩ ::
        orderChanges (rows.map fun other => if other.id = row.id then row else other) rest

namespace OrderChange

variable (change : OrderChange)

/-- The change is the order's transition to filled. -/
def Fills : Prop := change.before.any (·.state ≠ "filled") ∧ change.after.state = "filled"

instance : Decidable change.Fills := inferInstanceAs (Decidable (_ ∧ _))

/-- The topic and the type of the event that is due. -/
def due : Option (String × String) :=
  if change.before.isNone then some ("orders.created", "order.created")
  else if change.Fills then some ("orders.filled", "order.filled")
  else none

/-- The message of a change, with the row before an update where the table's identity is
full. -/
def message (slug : String) (full : Bool) (lsn : Nat) : CdcMessage where
  topic := topicOf (fundSchemaName slug) "orders"
  value := .event {
    op := some (if change.before.isNone then "c" else "u")
    before := if full then change.before.map (·.image) else none
    after := some change.after.image
    source := ⟨some (fundSchemaName slug), some "orders", some lsn⟩ }

end OrderChange

/-- The change that a message is about. -/
def CdcMessage.lsn (message : CdcMessage) : Option Nat :=
  match message.value with
  | .event event => event.source.lsn
  | .tombstone | .garbled => none

/-! ## What is to hold -/

section Claim

variable (slug : String) (changes : List OrderChange)

/-- The message is about one of the changes. -/
def Produced (message : CdcMessage) : Prop :=
  ∃ (lsn : Nat) (change : OrderChange) (full : Bool), changes[lsn]? = some change ∧
    message = change.message slug full lsn

/-- The events that are published for a change. -/
def Producing.eventsOf (e : Producing) (lsn : Nat) : List DomainEvent :=
  (e.published.filter fun entry => entry.1.message.lsn = some lsn).map (·.2)

def Producing.filled (e : Producing) (lsn : Nat) : List DomainEvent :=
  (e.eventsOf lsn).filter fun event => event.topic = Positions.fundTopic slug "orders.filled"

/-- An event that is due is published. -/
def OrderChange.PublishedIn (change : OrderChange) (e : Producing) (lsn : Nat) : Prop :=
  ∀ suffix eventType, change.due = some (suffix, eventType) →
    ∃ event ∈ e.eventsOf lsn, event.topic = Positions.fundTopic slug suffix ∧
      event.eventType = eventType ∧ event.data.get? "order_id" = some (.text change.after.id)

/-- The event of the message, if one is due, is published. -/
def Reported (e : Producing) (d : Delivery CdcMessage) : Prop :=
  ∀ (lsn : Nat) (change : OrderChange), changes[lsn]? = some change →
    d.message.lsn = some lsn → change.PublishedIn slug e lsn

structure Faithful (s : Consumer CdcMessage Producing) : Prop where
  /-- A transition has at most one event, and it has one when it is committed. -/
  transition : ∀ (lsn : Nat) (change : OrderChange), changes[lsn]? = some change → change.Fills →
    (s.effects.filled slug lsn).length ≤ 1 ∧
      ∀ d : Delivery CdcMessage, d.message.lsn = some lsn → s.Committed d →
        (s.effects.filled slug lsn).length = 1
  other : ∀ (lsn : Nat) (change : OrderChange), changes[lsn]? = some change → ¬ change.Fills →
    s.effects.filled slug lsn = []
  reported : ∀ d : Delivery CdcMessage, s.Committed d → Reported slug changes s.effects d

/-! ## The condition -/

/-- The message is not about a transition. -/
def NoTransition (_ : Producing) (d : Delivery CdcMessage) (_ : Bool) : Prop :=
  ∀ lsn ∈ d.message.lsn, ∀ change ∈ changes[lsn]?, ¬ change.Fills

instance (e : Producing) (d : Delivery CdcMessage) (sent : Bool) :
    Decidable (NoTransition changes e d sent) :=
  inferInstanceAs (Decidable (∀ lsn ∈ d.message.lsn, ∀ change ∈ changes[lsn]?, ¬ change.Fills))

/-- The messages whose event is in the buffer, was refused or was given up. -/
def Producing.waiting (e : Producing) : List (Delivery CdcMessage) := e.unsent.map (·.1) ++ e.failed

/-- What the transformer makes of a row that is inserted. -/
def created (row : OrderRow) : DomainEvent where
  topic := Positions.fundTopic slug "orders.created"
  eventType := "order.created"
  data := [("order_id", .text row.id), ("portfolio_id", .text row.portfolioId),
    ("instrument_id", .text row.instrumentId), ("side", .text row.side),
    ("quantity", .text row.quantity.str), ("status", .text ""), ("cdc_operation", .text "c")]
  fundSlug := slug

end Claim

/-! ## The events of the orders -/

section Events

variable {slug : String} {changes : List OrderChange}

theorem OrderRow.status_image (row : OrderRow) : row.image.lookup "status" = none := by
  rw [List.lookup_eq_none_iff]
  intro entry member
  have other : entry.1 ≠ "status" := by
    rcases List.mem_append.mp member with own | other
    · simp only [List.mem_cons, List.not_mem_nil, or_false] at own
      rcases own with rfl | rfl | rfl | rfl | rfl | rfl <;> simp
    · intro same
      have named : entry.1 ∈ otherColumns := (List.of_mem_zip other).1
      rw [same] at named
      exact absurd named (by decide)
  simpa using Ne.symm other

theorem mapped_insert (row : OrderRow) :
    mapCdcToDomainEvent (some row.image) "orders" "c" = some ⟨"orders.created", "order.created",
      (created "" row).data⟩ := by
  have status := row.status_image
  simp only [mapCdcToDomainEvent, String.reduceEq, false_and, if_false, if_true, column, shown,
    operationField, Option.getD_some, created, Parameters.get, Parameters.get?, status,
    Option.getD_none]
  simp only [OrderRow.image, List.cons_append, List.lookup_cons, String.reduceBEq, Option.getD_some]

theorem mapped_update (row : OrderRow) :
    mapCdcToDomainEvent (some row.image) "orders" "u" = none := by
  have status := row.status_image
  simp only [mapCdcToDomainEvent, String.reduceEq, false_and, if_false, if_true, column,
    Option.getD_some, Parameters.get, Parameters.get?, status, Option.getD_none, Json.text.injEq,
    and_false]

theorem transform_message (valid : ValidSlug slug) (change : OrderChange) (full : Bool) (lsn : Nat) :
    transform (change.message slug full lsn) =
      if change.before.isNone then some (created slug change.after) else none := by
  have topic := cdcTopic_fund valid (by decide : "orders".toList ≠ []) (by decide)
  have fund := schemaToFundSlug_fundSchemaName valid
  cases before : change.before with
  | none =>
    simp only [transform, OrderChange.message, topic, fund, before, Option.isNone_none, if_true,
      Option.bind_eq_bind, Option.bind_some, mapped_insert, created]
    rfl
  | some row =>
    simp only [transform, OrderChange.message, topic, fund, before, Option.isNone_some,
      Bool.false_eq_true, if_false, Option.bind_eq_bind, Option.bind_some, mapped_update,
      Option.bind_none]

/-! ## One message -/

variable {e e' : Producing}

variable (slug changes) in
/-- What is sent is what a change is transformed to. -/
def Transformed (e : Producing) : Prop :=
  ∀ entry ∈ e.unsent ++ e.published, Produced slug changes entry.1.message ∧
    transform entry.1.message = some entry.2

theorem Producing.eventsOf_subset (grown : e.published ⊆ e'.published) (lsn : Nat) :
    e.eventsOf lsn ⊆ e'.eventsOf lsn := by
  intro event member
  obtain ⟨entry, found, rfl⟩ := List.mem_map.mp member
  obtain ⟨inside, own⟩ := List.mem_filter.mp found
  exact List.mem_map.mpr ⟨entry, List.mem_filter.mpr ⟨grown inside, own⟩, rfl⟩

theorem Reported.mono {d : Delivery CdcMessage} (reported : Reported slug changes e d)
    (grown : e.published ⊆ e'.published) : Reported slug changes e' d := by
  intro lsn change found own suffix eventType due
  obtain ⟨event, member, named⟩ := reported lsn change found own suffix eventType due
  exact ⟨event, Producing.eventsOf_subset grown lsn member, named⟩

/-- Nothing is due for an update that is no transition. -/
theorem reported_of_skipped (valid : ValidSlug slug) {d : Delivery CdcMessage} {sent : Bool}
    (produced : Produced slug changes d.message) (admitted : NoTransition changes e d sent)
    (skipped : transform d.message = none) : Reported slug changes e' d := by
  obtain ⟨lsn, change, full, found, same⟩ := produced
  rw [same, transform_message valid] at skipped
  have place : d.message.lsn = some lsn := by rw [same]; rfl
  have still := admitted lsn place change found
  intro lsn' change' found' own suffix eventType due
  obtain rfl := Option.some.inj (place.symm.trans own)
  obtain rfl := Option.some.inj (found.symm.trans found')
  split at skipped
  · cases skipped
  · rename_i updated
    rw [OrderChange.due, if_neg updated, if_neg still] at due
    cases due

/-- The event of a row that is inserted is the one that is due. -/
theorem reported_of_published (valid : ValidSlug slug) {d : Delivery CdcMessage}
    {event : DomainEvent} (produced : Produced slug changes d.message)
    (transformed : transform d.message = some event) (published : (d, event) ∈ e.published) :
    Reported slug changes e d := by
  obtain ⟨lsn, change, full, found, same⟩ := produced
  rw [same, transform_message valid] at transformed
  have place : d.message.lsn = some lsn := by rw [same]; rfl
  intro lsn' change' found' own suffix eventType due
  obtain rfl := Option.some.inj (place.symm.trans own)
  obtain rfl := Option.some.inj (found.symm.trans found')
  split at transformed
  · rename_i inserted
    cases transformed
    rw [OrderChange.due, if_pos inserted] at due
    cases due
    refine ⟨created slug change.after, ?_, rfl, rfl, rfl⟩
    exact List.mem_map.mpr ⟨_, List.mem_filter.mpr ⟨published, by simpa using place⟩, rfl⟩
  · cases transformed

theorem passes_processMessage (valid : ValidSlug slug) {d : Delivery CdcMessage} {sent : Bool}
    (transformed : Transformed slug changes e) (produced : Produced slug changes d.message)
    (admitted : NoTransition changes e d sent) (processed : processMessage e d sent = some e') :
    Transformed slug changes e' ∧
      Passes (Reported slug changes) Producing.waiting (d :: e.waiting) e e' := by
  unfold processMessage at processed
  split at processed
  · rename_i skipped
    cases processed
    refine ⟨transformed, fun other reported => reported, List.subset_cons_self d _, ?_⟩
    intro other member
    rcases List.mem_cons.mp member with rfl | before
    · exact .inl (reported_of_skipped valid produced admitted skipped)
    · exact .inr before
  · rename_i event found
    split at processed
    · cases processed
      refine ⟨?_, fun other reported => reported, ?_, ?_⟩
      · intro entry member
        simp only [List.mem_append, List.mem_singleton] at member
        rcases member with (before | rfl) | published
        · exact transformed entry (List.mem_append_left _ before)
        · exact ⟨produced, found⟩
        · exact transformed entry (List.mem_append_right _ published)
      · intro other member
        simp only [Producing.waiting, List.map_append, List.map_cons, List.map_nil,
          List.mem_append, List.mem_cons, List.not_mem_nil, or_false] at member ⊢
        tauto
      · intro other member
        refine .inr ?_
        simp only [Producing.waiting, List.map_append, List.map_cons, List.map_nil,
          List.mem_append, List.mem_cons, List.not_mem_nil, or_false] at member ⊢
        tauto
    · cases processed
      refine ⟨transformed, fun other reported => reported, ?_, ?_⟩
      · intro other member
        simp only [Producing.waiting, List.mem_append, List.mem_cons, List.not_mem_nil,
          or_false] at member ⊢
        tauto
      · intro other member
        refine .inr ?_
        simp only [Producing.waiting, List.mem_append, List.mem_cons, List.not_mem_nil,
          or_false] at member ⊢
        tauto

theorem passes_produce (valid : ValidSlug slug) {written : Bool}
    (transformed : Transformed slug changes e) (produced : produce e written = some e') :
    Transformed slug changes e' ∧
      Passes (Reported slug changes) Producing.waiting e.waiting e e' := by
  unfold produce at produced
  split at produced
  · cases produced
  · rename_i d event rest next
    have own := transformed (d, event) (by simp [next])
    have waiting : e.waiting = d :: (rest.map (·.1) ++ e.failed) := by
      simp [Producing.waiting, next]
    rw [waiting]
    split at produced
    · cases produced
      refine ⟨?_, fun other reported => reported.mono (List.subset_append_left _ _),
        List.subset_cons_self d _, ?_⟩
      · intro entry member
        refine transformed entry ?_
        simp only [next, List.mem_append, List.mem_cons, List.not_mem_nil, or_false] at member ⊢
        tauto
      · intro other member
        rcases List.mem_cons.mp member with rfl | before
        · exact .inl (reported_of_published valid own.1 own.2 (by simp))
        · exact .inr before
    · cases produced
      refine ⟨?_, fun other reported => reported, ?_, ?_⟩
      · intro entry member
        refine transformed entry ?_
        simp only [next, List.mem_append, List.mem_cons] at member ⊢
        tauto
      · intro other member
        simp only [Producing.waiting, List.mem_append, List.mem_cons, List.not_mem_nil,
          or_false] at member ⊢
        tauto
      · intro other member
        refine .inr ?_
        simp only [Producing.waiting, List.mem_append, List.mem_cons, List.not_mem_nil,
          or_false] at member ⊢
        tauto

theorem settles_orders (valid : ValidSlug slug) :
    cdcTransformer.Settles (Reported slug changes) Producing.waiting (Transformed slug changes)
      (NoTransition changes) (Produced slug changes) where
  handle transformed produced admitted processed :=
    passes_processMessage valid transformed produced admitted processed
  background transformed produced := passes_produce valid transformed produced
  restarted transformed := ⟨fun entry member => transformed entry (List.mem_append_right _ member),
    fun _ reported => reported, rfl⟩

/-! ## Runs -/

theorem Transformed.filled_nil (valid : ValidSlug slug) (transformed : Transformed slug changes e)
    (lsn : Nat) : e.filled slug lsn = [] := by
  rw [Producing.filled, List.filter_eq_nil_iff]
  intro event member
  obtain ⟨entry, found, rfl⟩ := List.mem_map.mp member
  obtain ⟨⟨lsn', change, full, -, same⟩, own⟩ :=
    transformed entry (List.mem_append_right _ (List.mem_filter.mp found).1)
  rw [same, transform_message valid] at own
  split at own
  · rw [← Option.some.inj own]
    simp [created, Positions.fundTopic_inj]
  · cases own

variable {partitions : Nat} {inputs : List (ConsumerInput CdcMessage Bool Bool)}
  {s : Consumer CdcMessage Producing}

/-- In runs in which no transition is handled, and a commit waits until all events of the
messages so far are written, the events are faithful. -/
theorem faithful_of_sound (valid : ValidSlug slug) (writes : List OrderWrite)
    (publishes : ∀ input ∈ inputs, input.Publishes (Produced slug (orderChanges [] writes)))
    (sound : (Consumer.system cdcTransformer).Along
      (Consumer.Sound Producing.waiting (NoTransition (orderChanges [] writes)))
      (Consumer.start (List.replicate partitions {}) {}) inputs)
    (ran : (Consumer.system cdcTransformer).run
      (Consumer.start (List.replicate partitions {}) {}) inputs = some s) :
    Faithful slug (orderChanges [] writes) s := by
  have empty : ∀ p ∈ List.replicate partitions ({} : Partition CdcMessage),
      ∀ message ∈ p.log, Produced slug (orderChanges [] writes) message := by
    intro p member message inside
    rw [List.eq_of_mem_replicate member] at inside
    cases inside
  have kept := Consumer.kept_of_sound (settles_orders valid) (fun entry member => by cases member)
    rfl empty publishes sound ran
  have none := kept.inv.filled_nil valid
  have reported := fun d committed => (kept.settled_of_committed (d := d) committed).1
  refine ⟨fun lsn change found fills => ⟨by simp [none], ?_⟩, fun lsn _ _ _ => none lsn, reported⟩
  intro d place committed
  have updated : ¬ change.before.isNone := by
    intro inserted
    have absent := fills.1
    simp [Option.isNone_iff_eq_none.mp inserted] at absent
  have due : change.due = some ("orders.filled", "order.filled") := by
    rw [OrderChange.due, if_neg updated, if_pos fills]
  obtain ⟨event, member, topic, -⟩ := reported d committed lsn change found place _ _ due
  have filled : event ∈ s.effects.filled slug lsn :=
    List.mem_filter.mpr ⟨member, by simpa using topic⟩
  rw [none] at filled
  cases filled

end Events

/-! ## One order -/

section OneOrder

def newOrder : OrderRow where
  id := "o1"
  portfolioId := "p1"
  instrumentId := "AAPL"
  side := "buy"
  quantity := .text "10"
  state := "sent"

/-- It is inserted, and then changes to the state. -/
def becomes (state : String) : List OrderWrite := [.insert newOrder, .update { newOrder with state }]

/-- The message of the insert, and that of the update. -/
def inserted : CdcMessage := (⟨none, newOrder⟩ : OrderChange).message "alpha" false 0

def updatedTo (state : String) : CdcMessage :=
  (⟨some newOrder, { newOrder with state }⟩ : OrderChange).message "alpha" false 1

/-- The first `send` raises, and the process restarts before it commits. -/
def partlyFilled : List (ConsumerInput CdcMessage Bool Bool) :=
  [.publish 0 inserted, .poll [(0, 50)], .handle false, .restart, .poll [(0, 50)], .handle true,
    .background true, .commit true, .publish 0 (updatedTo "partially_filled"), .poll [(0, 50)],
    .handle true, .commit true]

theorem faithful_partlyFilled :
    ∃ s, (Consumer.system cdcTransformer).run (Consumer.start (List.replicate 1 {}) {})
        partlyFilled = some s ∧ s.delivered.length = 3 ∧
      Faithful "alpha" (orderChanges [] (becomes "partially_filled")) s := by
  have reached : ((Consumer.system cdcTransformer).run (Consumer.start (List.replicate 1 {}) {})
      partlyFilled).map (·.delivered.length) = some 3 := by decide +kernel
  obtain ⟨s, ran, delivered⟩ := Option.map_eq_some_iff.mp reached
  have publishes : ∀ input ∈ partlyFilled,
      input.Publishes (Produced "alpha" (orderChanges [] (becomes "partially_filled"))) := by
    intro input member
    simp only [partlyFilled, List.mem_cons, List.not_mem_nil, or_false] at member
    rcases member with rfl | rfl | rfl | rfl | rfl | rfl | rfl | rfl | rfl | rfl | rfl | rfl
    case inl => exact ⟨0, ⟨none, newOrder⟩, false, by decide +kernel, rfl⟩
    case inr.inr.inr.inr.inr.inr.inr.inr.inl =>
      exact ⟨1, ⟨some newOrder, { newOrder with state := "partially_filled" }⟩, false,
        by decide +kernel, rfl⟩
    all_goals trivial
  exact ⟨s, ran, delivered,
    faithful_of_sound (by decide +kernel) (becomes "partially_filled") publishes (by decide +kernel) ran⟩

/-- Both messages are handled, all that is sent is written, and the batch is committed. -/
def fullyFilled : List (ConsumerInput CdcMessage Bool Bool) :=
  [.publish 0 inserted, .publish 0 (updatedTo "filled"), .poll [(0, 50)], .handle true,
    .handle true, .background true, .commit true]

theorem transition_unpublished :
    ∃ s, (∀ input ∈ fullyFilled,
        input.Publishes (Produced "alpha" (orderChanges [] (becomes "filled")))) ∧
      (Consumer.system cdcTransformer).run (Consumer.start (List.replicate 1 {}) {})
        fullyFilled = some s ∧
      ¬ Faithful "alpha" (orderChanges [] (becomes "filled")) s := by
  refine ⟨{
    topic := [⟨[inserted, updatedTo "filled"], 2, some 2⟩]
    delivered := [⟨0, 0, inserted⟩, ⟨0, 1, updatedTo "filled"⟩]
    effects := { published := [(⟨0, 0, inserted⟩, created "alpha" newOrder)] } }, ?_,
    by decide +kernel, fun faithful => ?_⟩
  · intro input member
    simp only [fullyFilled, List.mem_cons, List.not_mem_nil, or_false] at member
    rcases member with rfl | rfl | rfl | rfl | rfl | rfl | rfl
    case inl => exact ⟨0, ⟨none, newOrder⟩, false, by decide +kernel, rfl⟩
    case inr.inl =>
      exact ⟨1, ⟨some newOrder, { newOrder with state := "filled" }⟩, false, by decide +kernel, rfl⟩
    all_goals trivial
  · have one := (faithful.transition 1 ⟨some newOrder, { newOrder with state := "filled" }⟩
      (by decide +kernel) (by decide)).2 ⟨0, 1, updatedTo "filled"⟩ rfl
      ⟨by simp, _, rfl, 2, rfl, by decide⟩
    revert one
    decide +kernel

end OneOrder

end MiniHedge.Audit
