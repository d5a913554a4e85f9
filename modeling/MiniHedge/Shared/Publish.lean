import MiniHedge.Library.Raising
import MiniHedge.Shared.SchemaRegistry
import MiniHedge.Shared.Kafka

/-! How an event travels: `KafkaEventBus.publish`, and what the consumers of the
topic make of the message.

The consuming loop takes `received` as its `decode`.
-/

set_option autoImplicit false

namespace MiniHedge.Shared

open MiniHedge.Python MiniHedge.Library

structure ProducerRecord where
  topic : String
  value : String
  key : String
  deriving DecidableEq, Repr

namespace BaseEvent

variable (event : BaseEvent)

def textOrNull : Option String → Json
  | some value => .text value
  | none => .null

def envelope : Parameters :=
  [("event_id", .text event.eventId), ("event_type", .text event.eventType),
    ("event_version", .number event.eventVersion (toString event.eventVersion)),
    ("timestamp", .text event.timestamp), ("actor_id", textOrNull event.actorId),
    ("actor_type", textOrNull event.actorType), ("fund_slug", textOrNull event.fundSlug),
    ("customer_id", textOrNull event.customerId),
    ("acted_on_behalf_of", textOrNull event.actedOnBehalfOf)]

/-- The instrument, else the portfolio, else the event itself. -/
def partitionKey : Json :=
  if (event.data.get "instrument_id" .null).truthy then event.data.get "instrument_id" .null
  else if (event.data.get "portfolio_id" .null).truthy then event.data.get "portfolio_id" .null
  else .text event.eventId

end BaseEvent

/-- `value.encode()`. -/
def encodeText : Json → Except Exc String
  | .text value => .ok value
  | _ => .error (.attributeError "encode")

def asTextOrNull : Json → Except Exc (Option String)
  | .null => .ok none
  | .text value => .ok (some value)
  | _ => .error (.valueError "Input should be a valid string")

def asText : Json → Except Exc String
  | .text value => .ok value
  | _ => .error (.valueError "Input should be a valid string")

def asInt : Json → Except Exc Int
  | .number value _ =>
    if value.den = 1 then .ok value.num
    else .error (.valueError "Input should be a valid integer")
  | _ => .error (.valueError "Input should be a valid integer")

def getItem (record : Parameters) (key : String) : Except Exc Json :=
  match record.get? key with
  | some value => .ok value
  | none => .error (.keyError key)

section Travel

-- `accepts` is whether the producer takes a record; when it does not, it raises a `KafkaError`
variable (codec : AvroCodec) (accepts : ProducerRecord → Bool) (schemas : Schemas) (topic : String)

/-- What is handed over to the producer, if anything. -/
def publish (event : BaseEvent) : Except Exc (Option ProducerRecord) :=
  match serializeEvent codec schemas topic event.envelope event.data with
  | .error (.valueError _) | .error (.runtimeError _) => .ok none
  | .error exc => .error exc
  | .ok value => do
    let key ← encodeText event.partitionKey
    let record : ProducerRecord := { topic, value, key }
    return if accepts record then some record else none

def readEvent (raw : String) : Except Exc BaseEvent := do
  let (envelope, data) ← deserializeEvent codec schemas topic raw
  return {
    eventId := ← asText (← getItem envelope "event_id")
    eventType := ← asText (← getItem envelope "event_type")
    eventVersion := ← asInt (envelope.get "event_version" (.number 1 "1"))
    timestamp := ← asText (← getItem envelope "timestamp")
    data
    actorId := ← asTextOrNull (envelope.get "actor_id" .null)
    actorType := ← asTextOrNull (envelope.get "actor_type" .null)
    fundSlug := ← asTextOrNull (envelope.get "fund_slug" .null)
    customerId := ← asTextOrNull (envelope.get "customer_id" .null)
    actedOnBehalfOf := ← asTextOrNull (envelope.get "acted_on_behalf_of" .null) }

/-- A message that cannot be read is logged and skipped. -/
def received (raw : String) : Option BaseEvent := (readEvent codec schemas topic raw).toOption

/-- The event is sent, and a consumer of the topic receives it with its type and its data. -/
def Delivered (event : BaseEvent) : Prop :=
  ∃ record, publish codec accepts schemas topic event = .ok (some record) ∧
    ∃ heard, received codec schemas topic record.value = some heard ∧
      heard.eventType = event.eventType ∧ SameItems heard.data event.data

end Travel

section Results

variable {codec : AvroCodec} {accepts : ProducerRecord → Bool} {topic : String} {event : BaseEvent}

@[simp] theorem asTextOrNull_textOrNull (value : Option String) :
    asTextOrNull (BaseEvent.textOrNull value) = .ok value := by
  cases value <;> rfl

@[simp] theorem asInt_intCast (i : Int) (shown : String) : asInt (.number i shown) = .ok i := by
  simp [asInt]

theorem accepts_textOrNull (value : Option String) :
    AvroType.nullOrString.accepts codec.exact (BaseEvent.textOrNull value) = true := by
  cases value <;> rfl

def withData (event : BaseEvent) (raw : String) : Parameters :=
  setItem "data" (.text raw) event.envelope

theorem written_envelope (codec : AvroCodec) (lower : -2 ^ 31 ≤ event.eventVersion) (upper : event.eventVersion < 2 ^ 31)
    {raw : String} (bytes : isBytes raw = true) :
    RecordSchema.written (AvroType.accepts codec.exact) envelopeV1 (withData event raw) =
      some (withData event raw) := by
  have version := codec.exact_int event.eventVersion lower upper
  rw [RecordSchema.written_eq_some]
  constructor
  · intro field member
    simp only [envelopeV1, strings, avroField, List.map_cons, List.map_nil, List.cons_append,
      List.nil_append, List.mem_cons, List.not_mem_nil, or_false] at member
    rcases member with rfl | rfl | rfl | rfl | rfl | rfl | rfl | rfl | rfl | rfl
    · rfl
    · rfl
    · exact version
    · rfl
    · exact accepts_textOrNull event.actorId
    · exact accepts_textOrNull event.actorType
    · exact accepts_textOrNull event.fundSlug
    · exact accepts_textOrNull event.customerId
    · exact accepts_textOrNull event.actedOnBehalfOf
    · exact bytes
  · rfl

/-- A consumer reads the event back, with the data that the payload is read as. -/
theorem received_withData {schema : AvroSchema} {raw value : String}
    (found : eventSchemas.lookup event.eventType = some schema)
    (envelope : codec.decode envelopeV1 value = .ok (withData event raw)) :
    received codec loadSchemas topic value =
      (codec.decode schema raw).toOption.map fun data => { event with data } := by
  have named : (withData event raw).get "event_type" (.text "") = .text event.eventType := rfl
  have held : (withData event raw).get? "data" = some (.text raw) := rfl
  have parts : deserializeEvent codec loadSchemas topic value =
      codec.decode schema raw >>= fun data => .ok (withData event raw, data) := by
    simp only [deserializeEvent, Schemas.getEnvelope, loadSchemas, Schemas.find, bind, Except.bind,
      pure, Except.pure, envelope, named, held, found]
  cases payload : codec.decode schema raw with
  | error exc => simp [received, readEvent, parts, payload, bind, Except.bind, Except.toOption]
  | ok data =>
    simp [received, readEvent, parts, payload, withData, BaseEvent.envelope, setItem, getItem,
      Parameters.get?, Parameters.get, List.lookup_cons, asText, bind, Except.bind, pure, Except.pure,
      Except.toOption]

theorem serialize_unregistered (missing : eventSchemas.lookup event.eventType = none) :
    serializeEvent codec loadSchemas topic event.envelope event.data = .error (.valueError
      s!"No Avro schema registered for event_type: {event.eventType} (topic: {topic})") := by
  have named : event.envelope.get "event_type" (.text "") = .text event.eventType := rfl
  simp only [serializeEvent, Schemas.find, loadSchemas, named, missing, bind, Except.bind]

theorem serialize_registered {schema : AvroSchema}
    (found : eventSchemas.lookup event.eventType = some schema) :
    serializeEvent codec loadSchemas topic event.envelope event.data =
      codec.encode schema event.data >>= fun raw =>
        codec.encode envelopeV1 (withData event raw) := by
  have named : event.envelope.get "event_type" (.text "") = .text event.eventType := rfl
  simp only [serializeEvent, Schemas.find, Schemas.getEnvelope, loadSchemas, named, found, bind,
    Except.bind, withData]

theorem publish_unregistered (missing : eventSchemas.lookup event.eventType = none) :
    publish codec accepts loadSchemas topic event = .ok none := by
  rw [publish, serialize_unregistered missing]

theorem publish_ok {record : ProducerRecord}
    (sent : publish codec accepts loadSchemas topic event = .ok (some record)) :
    serializeEvent codec loadSchemas topic event.envelope event.data = .ok record.value := by
  unfold publish at sent
  split at sent
  · cases sent
  · cases sent
  · cases sent
  next value written =>
    cases keyed : encodeText event.partitionKey with
    | error exc =>
      rw [keyed] at sent
      cases sent
    | ok key =>
      rw [keyed] at sent
      by_cases taken : accepts { topic, value, key } = true
      · simp only [bind, Except.bind, if_pos taken, pure, Except.pure, Except.ok.injEq,
          Option.some.injEq] at sent
        rw [written, ← sent]
      · simp [bind, Except.bind, taken, pure, Except.pure] at sent

theorem eventSchemas_distinct {eventType : String} {schema : AvroSchema}
    (found : eventSchemas.lookup eventType = some schema) : schema.names.Nodup :=
  (eventSchemas_wellFormed _ ((mem_iff_lookup (by decide)).mpr found)).1

/-- What a schema keys a message by is a text. -/
theorem keyed {schema : AvroSchema} (found : eventSchemas.lookup event.eventType = some schema)
    (fits : codec.Fits schema event.data) : ∃ key, encodeText event.partitionKey = .ok key := by
  have member : (event.eventType, schema) ∈ eventSchemas :=
    (mem_iff_lookup (by decide)).mpr found
  have text (name : String) (names : name = "instrument_id" ∨ name = "portfolio_id") :
      (event.data.get name .null).truthy = true →
        ∃ key, event.data.get name .null = .text key := by
    intro truthy
    rw [Parameters.get, Parameters.get?] at truthy ⊢
    cases held : event.data.lookup name with
    | none => simp [held, Json.truthy] at truthy
    | some value =>
      have inside : name ∈ schema.names := by
        apply fits.known
        by_contra absent
        rw [RecordSchema.lookup_eq_none_iff.mpr absent] at held
        cases held
      obtain ⟨field, present, rfl⟩ := List.mem_map.mp inside
      obtain ⟨own, same, accepted⟩ := fits.complete field present
      rw [(eventSchemas_wellFormed _ member).2 field present names] at accepted
      rw [held, Option.some.injEq] at same
      subst same
      cases value with
      | text key => exact ⟨key, rfl⟩
      | null | bool _ | number _ _ | list _ _ => cases accepted
  unfold BaseEvent.partitionKey
  split
  next instrument =>
    obtain ⟨key, same⟩ := text "instrument_id" (.inl rfl) instrument
    exact ⟨key, by rw [same]; rfl⟩
  next =>
    split
    next portfolio =>
      obtain ⟨key, same⟩ := text "portfolio_id" (.inr rfl) portfolio
      exact ⟨key, by rw [same]; rfl⟩
    next => exact ⟨_, rfl⟩

/-- An event arrives as it was sent just when its type is registered and its data fits the
schema of the type. -/
theorem delivered_iff (taken : ∀ record, accepts record = true)
    (lower : -2 ^ 31 ≤ event.eventVersion) (upper : event.eventVersion < 2 ^ 31) :
    Delivered codec accepts loadSchemas topic event ↔
      ∃ schema, eventSchemas.lookup event.eventType = some schema ∧
        codec.Fits schema event.data := by
  constructor
  · rintro ⟨record, sent, heard, read, -, same⟩
    cases found : eventSchemas.lookup event.eventType with
    | none =>
      rw [publish_unregistered found] at sent
      cases sent
    | some schema =>
      have value := publish_ok sent
      rw [serialize_registered found] at value
      obtain ⟨raw, payload, enveloped⟩ := bind_eq_ok.mp value
      have bytes := codec.encode_bytes payload
      obtain ⟨value, again, envelope⟩ :=
        codec.decode_written (written_envelope codec lower upper bytes)
      rw [enveloped, Except.ok.injEq] at again
      subst again
      refine ⟨schema, rfl, ?_⟩
      rw [received_withData found envelope, Option.map_eq_some_iff] at read
      obtain ⟨data, decoded, rfl⟩ := read
      have decoded : codec.decode schema raw = .ok data := by
        cases result : codec.decode schema raw with
        | error exc => simp [result, Except.toOption] at decoded
        | ok other => simpa [result, Except.toOption] using decoded
      apply (RecordSchema.written_same_iff (eventSchemas_distinct found)).mp
      cases wrote : RecordSchema.written (AvroType.accepts codec.exact) schema event.data with
      | none => exact absurd same (codec.decode_refused wrote payload decoded)
      | some result =>
        obtain ⟨raw', again, comes⟩ := codec.decode_written wrote
        rw [payload, Except.ok.injEq] at again
        subst again
        rw [decoded, Except.ok.injEq] at comes
        exact ⟨result, rfl, comes ▸ same⟩
  · rintro ⟨schema, found, fits⟩
    obtain ⟨data, wrote, same⟩ :=
      (RecordSchema.written_same_iff (eventSchemas_distinct found)).mpr fits
    obtain ⟨raw, payload, decoded⟩ := codec.decode_written wrote
    obtain ⟨value, enveloped, envelope⟩ := codec.decode_written
      (written_envelope codec lower upper (codec.encode_bytes payload))
    obtain ⟨key, encoded⟩ := keyed found fits
    refine ⟨{ topic, value, key }, ?_, { event with data }, ?_, rfl, same⟩
    · rw [publish, serialize_registered found, payload]
      simp only [bind, Except.bind, enveloped, encoded, taken, if_true, pure, Except.pure]
    · rw [received_withData found envelope, decoded]
      rfl

end Results

end MiniHedge.Shared
