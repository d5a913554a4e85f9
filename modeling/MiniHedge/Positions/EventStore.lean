import MiniHedge.Positions.Tables

/-! The append-only event store.

`Stored` says what a history of events looks like in the table: consecutive
sequence numbers from one, each record reading back as its event.
-/

set_option autoImplicit false

namespace MiniHedge.Positions

open MiniHedge.Python MiniHedge.Library

namespace EventStore

def serialize (event : TradeEvent) : Dict :=
  match event.data with
  | .corporateAction d =>
    [("portfolio_id", .text d.portfolioId.str),
      ("instrument_id", .text d.instrumentId),
      ("currency", .text d.currency),
      ("action_id", .text d.actionId.str),
      ("split_ratio", .decimal d.splitRatio),
      ("dividend_amount", .decimal d.dividendAmount)]
  | .trade d =>
    [("portfolio_id", .text d.portfolioId.str),
      ("instrument_id", .text d.instrumentId),
      ("side", .text d.side.value),
      ("quantity", .decimal d.quantity),
      ("price", .decimal d.price),
      ("trade_id", .text d.tradeId.str),
      ("currency", .text d.currency)]

def corporateActionData (data : Dict) : Except Exc CorporateActionEventData := do
  let portfolioId ← data.uuid "portfolio_id"
  let instrumentId ← data.text "instrument_id"
  let currency ← data.textOr "currency" "USD"
  let actionId ← match data.get "action_id" with
    | some field => field.asUuid
    | none => .ok (.ofNat 0)
  let splitRatio ← data.decimalOr "split_ratio" 1
  let dividendAmount ← data.decimalOr "dividend_amount" 0
  return { portfolioId, instrumentId, currency, actionId, splitRatio, dividendAmount }

def tradeData (data : Dict) : Except Exc TradeEventData := do
  let portfolioId ← data.uuid "portfolio_id"
  let instrumentId ← data.text "instrument_id"
  let side ← TradeSide.ofValue (← data.text "side")
  let quantity ← data.decimal "quantity"
  let price ← data.decimal "price"
  let tradeId ← data.uuid "trade_id"
  let currency ← data.text "currency"
  return { portfolioId, instrumentId, side, quantity, price, tradeId, currency }

def deserialize (record : PositionEventRecord) : Except Exc TradeEvent := do
  let eventType ← PositionEventType.ofValue record.eventType
  if eventType = .stockSplit ∨ eventType = .dividendPaid then
    let data ← corporateActionData record.eventData
    return ⟨eventType, record.createdAt, .corporateAction data⟩
  else
    let data ← tradeData record.eventData
    return ⟨eventType, record.createdAt, .trade data⟩

theorem corporateActionData_serialize (t : PositionEventType) (at' : Datetime)
    (d : CorporateActionEventData) :
    corporateActionData (serialize ⟨t, at', .corporateAction d⟩) = .ok d := by
  simp only [serialize, corporateActionData, Dict.uuid, Dict.text, Dict.textOr, Dict.decimalOr,
    Dict.getItem, Dict.get, List.lookup_cons, String.reduceBEq]
  simp [Bind.bind, Except.bind, Pure.pure, Except.pure]

theorem tradeData_serialize (t : PositionEventType) (at' : Datetime) (d : TradeEventData) :
    tradeData (serialize ⟨t, at', .trade d⟩) = .ok d := by
  simp only [serialize, tradeData, Dict.uuid, Dict.text, Dict.decimal, Dict.getItem, Dict.get,
    List.lookup_cons, String.reduceBEq]
  simp [Bind.bind, Except.bind, Pure.pure, Except.pure]

/-- A stored event reads back as itself, at the instant it was stored. -/
theorem deserialize_serialize {event : TradeEvent} (applicable : event.Applicable)
    {record : PositionEventRecord} (typed : record.eventType = event.eventType.value)
    (data : record.eventData = serialize event) :
    deserialize record = .ok { event with timestamp := record.createdAt } := by
  cases applicable with
  | buy t d | sell t d =>
    simp [deserialize, typed, data, tradeData_serialize, Bind.bind, Except.bind, Pure.pure,
      Except.pure]
  | split t d nonzero =>
    simp [deserialize, typed, data, corporateActionData_serialize, Bind.bind, Except.bind,
      Pure.pure, Except.pure]
  | dividend t d =>
    simp [deserialize, typed, data, corporateActionData_serialize, Bind.bind, Except.bind,
      Pure.pure, Except.pure]

theorem deserialize_ok {record : PositionEventRecord} {event : TradeEvent}
    (read : deserialize record = .ok event) :
    record.eventType = event.eventType.value ∧ record.createdAt = event.timestamp := by
  cases typed : PositionEventType.ofValue record.eventType with
  | error e => simp [deserialize, typed, Bind.bind, Except.bind] at read
  | ok t =>
    have value := PositionEventType.value_of_ofValue typed
    simp only [deserialize, typed, Bind.bind, Except.bind, Pure.pure, Except.pure] at read
    split at read
    · split at read
      · cases read
      · cases read
        exact ⟨value, rfl⟩
    · split at read
      · cases read
      · cases read
        exact ⟨value, rfl⟩

end EventStore

open EventStore

def aggregateId (portfolioId : UUID) (instrumentId : String) : String :=
  portfolioId.str ++ ":" ++ instrumentId

/-- The identifier's length is fixed, so the text determines both parts. -/
theorem aggregateId_injective {p p' : UUID} {i i' : String}
    (same : aggregateId p i = aggregateId p' i') : p = p' ∧ i = i' := by
  have texts := congrArg String.toList same
  simp only [aggregateId, String.toList_append, List.append_assoc] at texts
  have length : p.str.toList.length = p'.str.toList.length := by
    simp [UUID.str, UUID.length_chars]
  obtain ⟨left, right⟩ := List.append_inj texts length
  refine ⟨UUID.str_injective (String.toList_inj.mp left), ?_⟩
  exact String.toList_inj.mp (List.append_cancel_left right)

namespace Database

def getByAggregate (db : Database) (aggregateId : String) (before : Option Datetime := none) :
    Except Exc (List TradeEvent) :=
  let records := sortOn (·.sequenceNumber) (db.recordsOf aggregateId)
  let selected := match before with
    | none => records
    | some instant => records.filter (·.createdAt ≤ instant)
  selected.mapM deserialize

def idempotencyKey (record : PositionEventRecord) : Option Field :=
  record.metadata.get "idempotency_key"

def keyCount (db : Database) (key : String) : Nat :=
  db.events.countP fun record => idempotencyKey record = some (.text key)

def hasIdempotencyKey (db : Database) (key : String) : Bool := 0 < db.keyCount key

/-- `SELECT coalesce(max(sequence_number), 0)`, plus one. -/
def nextSequence (db : Database) (aggregateId : String) : Nat :=
  ((db.recordsOf aggregateId).map (·.sequenceNumber)).foldl max 0 + 1

/-- The `INSERT` of `append`, against `UNIQUE(aggregate_id, sequence_number)`. -/
def insertEvent (db : Database) (record : PositionEventRecord) : Except Exc Write :=
  if 128 < record.aggregateId.length then .error .dataError
  else if ∃ row ∈ db.events, row.aggregateId = record.aggregateId ∧
      row.sequenceNumber = record.sequenceNumber then .error .integrityError
  else .ok (.event record)

end Database

/-! ## Histories in the table -/

structure Stored (db : Database) (portfolioId : UUID) (instrumentId : String)
    (history : List TradeEvent) : Prop where
  sequence : (db.recordsOf (aggregateId portfolioId instrumentId)).map (·.sequenceNumber) =
    List.range' 1 history.length
  decoded : (db.recordsOf (aggregateId portfolioId instrumentId)).map deserialize =
    history.map .ok
  owned : ∀ event ∈ history, event.OwnedBy portfolioId instrumentId
  applicable : ∀ event ∈ history, event.Applicable

theorem mapM_ok {α β : Type} {f : α → Except Exc β} {xs : List α} {ys : List β}
    (each : xs.map f = ys.map .ok) : xs.mapM f = .ok ys := by
  induction xs generalizing ys with
  | nil =>
    cases ys with
    | nil => rfl
    | cons y ys => simp at each
  | cons x xs ih =>
    cases ys with
    | nil => simp at each
    | cons y ys =>
      simp only [List.map_cons, List.cons.injEq] at each
      rw [List.mapM_cons, each.1, ih each.2]
      rfl

theorem foldl_max_range' (n : Nat) : (List.range' 1 n).foldl max 0 = n := by
  induction n with
  | zero => rfl
  | succ n ih =>
    rw [List.range'_concat, List.foldl_append, ih]
    simp
    omega

namespace Stored

variable {db : Database} {portfolioId : UUID} {instrumentId : String} {history : List TradeEvent}

theorem length (stored : Stored db portfolioId instrumentId history) :
    (db.recordsOf (aggregateId portfolioId instrumentId)).length = history.length := by
  have lengths := congrArg List.length stored.decoded
  simpa using lengths

theorem getByAggregate (stored : Stored db portfolioId instrumentId history) :
    db.getByAggregate (aggregateId portfolioId instrumentId) = .ok history := by
  have increasing : (db.recordsOf (aggregateId portfolioId instrumentId)).Pairwise
      fun a b => a.sequenceNumber ≤ b.sequenceNumber := by
    refine List.pairwise_map.mp ?_
    rw [stored.sequence]
    exact List.pairwise_le_range'
  have sorted : sortOn PositionEventRecord.sequenceNumber
      (db.recordsOf (aggregateId portfolioId instrumentId)) =
        db.recordsOf (aggregateId portfolioId instrumentId) :=
    increasing.insertionSort_eq
  simp only [Database.getByAggregate, sorted]
  exact mapM_ok stored.decoded

theorem nextSequence (stored : Stored db portfolioId instrumentId history) :
    db.nextSequence (aggregateId portfolioId instrumentId) = history.length + 1 := by
  rw [Database.nextSequence, stored.sequence, foldl_max_range']

theorem fromEvents (stored : Stored db portfolioId instrumentId history) :
    PositionAggregate.fromEvents portfolioId instrumentId history =
      .ok (history.foldl .after (.empty portfolioId instrumentId)) :=
  PositionAggregate.fromEvents_ok stored.owned stored.applicable

theorem congr {other : Database} (stored : Stored db portfolioId instrumentId history)
    (same : other.recordsOf (aggregateId portfolioId instrumentId) =
      db.recordsOf (aggregateId portfolioId instrumentId)) :
    Stored other portfolioId instrumentId history :=
  ⟨same ▸ stored.sequence, same ▸ stored.decoded, stored.owned, stored.applicable⟩

theorem append (stored : Stored db portfolioId instrumentId history) {r : PositionEventRecord}
    {event : TradeEvent} (own : r.aggregateId = aggregateId portfolioId instrumentId)
    (next : r.sequenceNumber = history.length + 1) (decoded : deserialize r = .ok event)
    (owned : event.OwnedBy portfolioId instrumentId) (applicable : event.Applicable) :
    Stored (db.write (.event r)) portfolioId instrumentId (history ++ [event]) where
  sequence := by
    have numbers : List.range' 1 (history.length + 1) =
        List.range' 1 history.length ++ [1 + history.length] := List.range'_1_concat
    rw [Database.recordsOf_event, if_pos own, List.map_append, stored.sequence, List.length_append,
      List.length_singleton, numbers, List.map_singleton, next, Nat.add_comm]
  decoded := by
    rw [Database.recordsOf_event, if_pos own, List.map_append, stored.decoded, List.map_append]
    simp [decoded]
  owned := by
    intro e member
    rcases List.mem_append.mp member with old | new
    · exact stored.owned e old
    · rwa [List.mem_singleton.mp new]
  applicable := by
    intro e member
    rcases List.mem_append.mp member with old | new
    · exact stored.applicable e old
    · rwa [List.mem_singleton.mp new]

/-- The unique constraint: the next number is free, and every number up to the
length of the history is taken. -/
theorem taken_iff (stored : Stored db portfolioId instrumentId history) (n : Nat) :
    (∃ row ∈ db.events, row.aggregateId = aggregateId portfolioId instrumentId ∧
      row.sequenceNumber = n) ↔ 1 ≤ n ∧ n ≤ history.length := by
  have numbers : n ∈ (db.recordsOf (aggregateId portfolioId instrumentId)).map (·.sequenceNumber) ↔
      1 ≤ n ∧ n < 1 + history.length := by
    rw [stored.sequence, List.mem_range'_1]
  simp only [Database.recordsOf, List.mem_map, List.mem_filter, decide_eq_true_eq] at numbers
  constructor
  · rintro ⟨row, member, own, same⟩
    have bound := numbers.mp ⟨row, ⟨member, own⟩, same⟩
    omega
  · rintro ⟨positive, bound⟩
    obtain ⟨row, ⟨member, own⟩, same⟩ := numbers.mpr ⟨positive, by omega⟩
    exact ⟨row, member, own, same⟩

end Stored

end MiniHedge.Positions
