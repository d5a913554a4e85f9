import MiniHedge.Audit.CdcTransformer
import MiniHedge.Shared.AvroBinary

/-! What the consumers of the event bus make of the events of the transformer.

The transformer writes JSON, the bus reads Avro. The text of a JSON value that is
no object is a parameter.
-/

set_option autoImplicit false

namespace MiniHedge.Audit

open MiniHedge.Python MiniHedge.Library MiniHedge.Shared

/-! ## The bytes -/

section Bytes

variable (dumps : Json → String)

/-- `json.dumps` of an object, of values that are texts already. -/
def dumpsObject (items : List (String × String)) : String :=
  "\x7b" ++ ", ".intercalate (items.map fun item => dumps (.text item.1) ++ ": " ++ item.2) ++ "\x7d"

/-- `json.dumps(domain_event).encode()`. -/
def DomainEvent.value (event : DomainEvent) : String :=
  dumpsObject dumps
    [("event_type", dumps (.text event.eventType)),
      ("data", dumpsObject dumps (event.data.map fun item => (item.1, dumps item.2))),
      ("fund_slug", dumps (.text event.fundSlug)), ("source", dumps (.text "cdc"))]

theorem toList_value (event : DomainEvent) :
    ∃ rest, (event.value dumps).toList = '\x7b' :: rest := by
  rw [DomainEvent.value, dumpsObject, String.append_assoc, String.toList_append]
  exact ⟨_, rfl⟩

end Bytes

/-! ## What is to hold -/

section Claim

variable (codec : AvroCodec) (dumps : Json → String) (event : DomainEvent)

/-- A consumer of the topic receives the event, with its type and its data. -/
def Heard : Prop :=
  ∃ heard, received codec loadSchemas event.topic (event.value dumps) = some heard ∧
    heard.eventType = event.eventType ∧ SameItems heard.data event.data

/-- The data is as the application's own events of this type have it. -/
def AsPublished : Prop :=
  ∃ schema, eventSchemas.lookup event.eventType = some schema ∧ codec.Fits schema event.data

/-- What Avro says of a record whose first field is a text: the bytes begin with a length. -/
def LengthFirst : Prop :=
  ∀ (schema : AvroSchema) (raw : String) (record : Parameters),
    schema.head?.map (·.type) = some .string → codec.decode schema raw = .ok record →
      ∃ bytes, unlatin1 raw = some bytes ∧
        ∃ (length : Nat) (rest : Bytes), Format.int.read bytes = some (Int.ofNat length, rest)

end Claim

/-! ## Lengths -/

/-- What begins with a brace would begin with the length -62. -/
theorem readInt_brace (rest : Bytes) : Format.int.read (123 :: rest) = some (-62, rest) := rfl

theorem lengthFirst_binaryCodec : LengthFirst binaryCodec := by
  intro schema raw record first decoded
  change binaryDecode schema raw = .ok record at decoded
  unfold binaryDecode at decoded
  split at decoded
  case h_2 => cases decoded
  rename_i record' read
  obtain ⟨bytes, own, read⟩ := Option.bind_eq_some_iff.mp read
  refine ⟨bytes, own, ?_⟩
  cases schema with
  | nil => cases first
  | cons field fields =>
    rw [List.head?_cons, Option.map_some, Option.some.injEq] at first
    simp only [recordFormat, List.map_cons, Format.record, Format.via, Format.pair, first,
      AvroType.format, AvroType.textFormat, Format.text, Format.bytes] at read
    cases length : Format.int.read bytes with
    | none => simp [length] at read
    | some found =>
      obtain ⟨n, rest⟩ := found
      by_cases positive : 0 ≤ n
      · exact ⟨n.toNat, rest, by rw [Int.ofNat_eq_natCast, Int.toNat_of_nonneg positive]⟩
      · simp [length, positive] at read

section Lengths

variable {codec : AvroCodec} (lengths : LengthFirst codec)

include lengths

theorem undecodable {schema : AvroSchema} {raw : String} {rest : List Char}
    (first : schema.head?.map (·.type) = some .string) (brace : raw.toList = '\x7b' :: rest)
    (record : Parameters) : codec.decode schema raw ≠ .ok record := by
  intro decoded
  obtain ⟨bytes, own, length, tail, read⟩ := lengths schema raw record first decoded
  unfold unlatin1 at own
  split at own
  · cases own
    rw [brace, List.map_cons] at read
    change Format.int.read (123 :: _) = _ at read
    rw [readInt_brace] at read
    cases read
  · cases own

theorem unheard (dumps : Json → String) (event : DomainEvent) :
    received codec loadSchemas event.topic (event.value dumps) = none := by
  obtain ⟨rest, brace⟩ := toList_value dumps event
  have refused := undecodable lengths (rfl : envelopeV1.head?.map (·.type) = some .string) brace
  cases decoded : codec.decode envelopeV1 (event.value dumps) with
  | ok record => exact absurd decoded (refused record)
  | error exc =>
    simp only [received, readEvent, deserializeEvent, Schemas.getEnvelope, loadSchemas, decoded,
      bind, Except.bind, Except.toOption]

end Lengths

/-! ## Fields -/

/-- The types that are mapped to, each with a field of its schema that no mapping fills. -/
def unfilled : List (String × String) :=
  [("position.changed", "cost_basis"), ("order.created", "order_type"),
    ("order.filled", "fill_quantity"), ("compliance.violation", "current_value"),
    ("risk.updated", "expected_shortfall_95"), ("exposure.updated", "gross_exposure"),
    -- there is no schema of this type
    ("cash.settlement", "")]

theorem unfilled_named : ∀ entry ∈ unfilled, ∀ schema ∈ eventSchemas.lookup entry.1,
    entry.2 ∈ RecordSchema.names schema := by
  decide

theorem mapped_unfilled {after : Option Parameters} {table operation : String} {mapped : Mapped}
    (found : mapCdcToDomainEvent after table operation = some mapped) :
    ∃ name, (mapped.eventType, name) ∈ unfilled ∧ mapped.payload.lookup name = none := by
  unfold mapCdcToDomainEvent at found
  dsimp only at found
  split_ifs at found <;> cases found
  · exact ⟨"cost_basis", by simp [unfilled], by simp [column, shown, operationField, List.lookup_cons]⟩
  · exact ⟨"order_type", by simp [unfilled], by simp [column, shown, operationField, List.lookup_cons]⟩
  · exact ⟨"fill_quantity", by simp [unfilled],
      by simp [column, shown, operationField, List.lookup_cons]⟩
  · exact ⟨"current_value", by simp [unfilled],
      by simp [column, operationField, List.lookup_cons]⟩
  · exact ⟨"expected_shortfall_95", by simp [unfilled],
      by simp [column, shown, operationField, List.lookup_cons]⟩
  · exact ⟨"gross_exposure", by simp [unfilled], by simp [column, operationField, List.lookup_cons]⟩
  · exact ⟨"", by simp [unfilled], by simp [column, shown, operationField, List.lookup_cons]⟩

theorem transform_mapped {message : CdcMessage} {event : DomainEvent}
    (transformed : transform message = some event) :
    ∃ after table operation mapped, mapCdcToDomainEvent after table operation = some mapped ∧
      event.eventType = mapped.eventType ∧ event.data = mapped.payload := by
  unfold transform at transformed
  split at transformed
  · rename_i change _
    obtain ⟨⟨schema, table⟩, -, transformed⟩ := Option.bind_eq_some_iff.mp transformed
    obtain ⟨fundSlug, -, transformed⟩ := Option.bind_eq_some_iff.mp transformed
    obtain ⟨operation, -, transformed⟩ := Option.bind_eq_some_iff.mp transformed
    obtain ⟨mapped, found, transformed⟩ := Option.bind_eq_some_iff.mp transformed
    cases transformed
    exact ⟨change.after, table, operation, mapped, found, rfl, rfl⟩
  · cases transformed

theorem not_asPublished (codec : AvroCodec) {message : CdcMessage} {event : DomainEvent}
    (transformed : transform message = some event) : ¬ AsPublished codec event := by
  rintro ⟨schema, registered, fits⟩
  obtain ⟨after, table, operation, mapped, found, type, data⟩ := transform_mapped transformed
  obtain ⟨name, listed, missing⟩ := mapped_unfilled found
  have named := unfilled_named _ listed schema (type ▸ registered)
  obtain ⟨field, member, rfl⟩ := List.mem_map.mp named
  obtain ⟨value, filled, -⟩ := fits.complete field member
  rw [data, missing] at filled
  cases filled

/-- No event of the transformer is received, and none has the fields of its type. -/
theorem never_readable {codec : AvroCodec} (lengths : LengthFirst codec) (dumps : Json → String)
    {message : CdcMessage} {event : DomainEvent} (transformed : transform message = some event) :
    ¬ Heard codec dumps event ∧ ¬ AsPublished codec event := by
  refine ⟨?_, not_asPublished codec transformed⟩
  rintro ⟨heard, received, -⟩
  rw [unheard lengths dumps event] at received
  cases received

/-! ## One position -/

section OnePosition

/-- The text of values that need no escapes. -/
def plainDumps : Json → String
  | .null => "null"
  | .bool value => if value then "true" else "false"
  | .number _ shown | .list _ shown => shown
  | .text value => "\"" ++ value ++ "\""

def positionUpdate : CdcMessage where
  topic := topicOf "fund_alpha" "current_positions"
  value := .event {
    op := some "u"
    after := some [("portfolio_id", .text "p1"), ("instrument_id", .text "AAPL"),
      ("quantity", .text "10"), ("cost_basis", .text "1000")] }

def positionEvent : DomainEvent where
  topic := "fund-alpha.positions.changed"
  eventType := "position.changed"
  data := [("instrument_id", .text "AAPL"), ("portfolio_id", .text "p1"),
    ("quantity", .text "10"), ("market_value", .text "0"), ("market_price", .text "0"),
    ("avg_cost", .text "0"), ("unrealized_pnl", .text "0"), ("cdc_operation", .text "u")]
  fundSlug := "alpha"

theorem never_readable_position :
    transform positionUpdate = some positionEvent ∧
      ¬ Heard binaryCodec plainDumps positionEvent ∧ ¬ AsPublished binaryCodec positionEvent :=
  have transformed : transform positionUpdate = some positionEvent := by decide +kernel
  ⟨transformed, never_readable lengthFirst_binaryCodec plainDumps transformed⟩

theorem position_unheard :
    transform positionUpdate = some positionEvent ∧
      received binaryCodec loadSchemas positionEvent.topic (positionEvent.value plainDumps) = none ∧
      ¬ (Heard binaryCodec plainDumps positionEvent ∧ AsPublished binaryCodec positionEvent) := by
  have refused := unheard lengthFirst_binaryCodec plainDumps positionEvent
  refine ⟨by decide +kernel, refused, ?_⟩
  rintro ⟨⟨heard, received, -⟩, -⟩
  rw [refused] at received
  cases received

end OnePosition

end MiniHedge.Audit
