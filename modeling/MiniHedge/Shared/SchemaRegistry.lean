import MiniHedge.Library.RecordSchema
import MiniHedge.Shared.Events

/-! The Avro schemas of the events, and how an event is serialized under them.

Texts of a payload are texts here, whatever they spell. Bytes are texts of code
points below 256. The codec is a third party's: what it writes for a record is
what a schema lets it write, and that is what it reads back.
-/

set_option autoImplicit false

namespace MiniHedge.Shared

open MiniHedge.Python MiniHedge.Library

/-! ## Schemas -/

/-- The types of fields that the schema files use. -/
inductive AvroType where
  | string
  | bytes
  | int
  | double
  | enum (symbols : List String)
  | nullOrString
  | nullOrInt
  deriving DecidableEq, Repr

def isBytes (value : String) : Bool := value.toList.all (·.toNat < 256)

/-- The values that are written and read back as they are; `exact` decides for
the types of numbers. -/
def AvroType.accepts (exact : AvroType → Json → Bool) : AvroType → Json → Bool
  | .string, .text _ => true
  | .bytes, .text value => isBytes value
  | .enum symbols, .text value => symbols.contains value
  | .nullOrString, .text _ | .nullOrString, .null | .nullOrInt, .null => true
  | .int, value => exact .int value
  | .double, value => exact .double value
  | .nullOrInt, value => exact .nullOrInt value
  | _, _ => false

/-- A field without a default is written as null when it is missing. -/
def avroField (name : String) (type : AvroType) (default : Json := .null) :
    FieldSchema AvroType Json := ⟨name, type, default⟩

abbrev AvroSchema := RecordSchema AvroType Json

section Files

def strings (names : List String) : AvroSchema := names.map (avroField · .string)

def side : FieldSchema AvroType Json := avroField "side" (.enum ["buy", "sell"])

def currency : FieldSchema AvroType Json := avroField "currency" .string (.text "USD")

def envelopeV1 : AvroSchema :=
  strings ["event_id", "event_type"] ++
    [avroField "event_version" .int (.number 1 "1"), avroField "timestamp" .string] ++
    ["actor_id", "actor_type", "fund_slug", "customer_id", "acted_on_behalf_of"].map
      (avroField · .nullOrString) ++
    [avroField "data" .bytes]

def pricesNormalizedV1 : AvroSchema :=
  strings ["instrument_id", "bid", "ask", "mid"] ++
    avroField "volume" .nullOrString :: strings ["timestamp", "source"]

def positionsChangedV1 : AvroSchema :=
  strings ["portfolio_id", "instrument_id", "quantity", "avg_cost", "cost_basis"] ++ [currency]

def positionsPnlRealizedV1 : AvroSchema :=
  strings ["portfolio_id", "instrument_id", "realized_pnl", "price"] ++ [currency]

def positionsPnlMtmV1 : AvroSchema :=
  strings ["portfolio_id", "instrument_id", "market_price", "market_value", "unrealized_pnl",
    "pnl_change"] ++ [currency]

def tradesExecutedV1 : AvroSchema :=
  strings ["portfolio_id", "instrument_id"] ++ side :: strings ["quantity", "price", "trade_id"] ++
    [currency]

def ordersCreatedV1 : AvroSchema :=
  strings ["order_id", "portfolio_id", "instrument_id"] ++
    side :: strings ["order_type", "quantity", "state"]

def ordersFilledV1 : AvroSchema :=
  strings ["order_id", "portfolio_id", "instrument_id"] ++
    side :: strings ["fill_quantity", "fill_price", "state"]

def ordersCanceledV1 : AvroSchema :=
  strings ["order_id", "portfolio_id", "instrument_id"] ++
    side :: strings ["quantity", "filled_quantity"] ++ [avroField "reason" .nullOrString]

def ordersIntentsGeneratedV1 : AvroSchema :=
  strings ["intent_id", "portfolio_id", "instrument_id"] ++
    side :: strings ["target_quantity", "urgency"] ++
    ["strategy", "reason"].map (avroField · .nullOrString)

def complianceViolationV1 : AvroSchema :=
  strings ["violation_id", "portfolio_id", "rule_id", "rule_name", "severity", "message",
    "current_value", "limit_value"]

def exposureUpdatedV1 : AvroSchema :=
  strings ["portfolio_id", "gross_exposure", "net_exposure", "long_exposure", "short_exposure"]

def riskUpdatedV1 : AvroSchema :=
  strings ["portfolio_id", "nav", "var_95_1d", "var_99_1d", "expected_shortfall_95"]

def cashSettlementV1 : AvroSchema :=
  strings ["portfolio_id", "instrument_id", "settlement_amount", "settlement_date", "status"]

def cashProjectedV1 : AvroSchema :=
  strings ["portfolio_id", "currency", "current_balance", "projected_balance", "horizon_date",
    "pending_inflows", "pending_outflows"]

def cashBalanceWarningV1 : AvroSchema :=
  strings ["portfolio_id", "currency", "current_balance", "threshold"] ++
    [avroField "severity" (.enum ["low", "medium", "critical"]), avroField "message" .string]

def capitalTransactionV1 : AvroSchema :=
  ["investor_id", "amount", "shares", "shares_redeemed", "nav_per_share", "share_class",
      "business_date", "account_id"].map (avroField · .nullOrString) ++
    [avroField "accounts_allocated" .nullOrInt, avroField "fund_pnl" .nullOrString]

def attributionCalculatedV1 : AvroSchema :=
  strings ["portfolio_id", "period_start", "period_end", "method", "total_allocation",
    "total_selection", "total_interaction", "active_return"]

def marketDataStatusV1 : AvroSchema :=
  strings ["instrument_id", "source"] ++
    [avroField "status" (.enum ["healthy", "stale", "disconnected"]),
      avroField "last_update" .string, avroField "age_seconds" .double,
      avroField "checked_at" .string]

end Files

/-- `_ENVELOPE_SCHEMA` and `_PAYLOAD_SCHEMAS`. -/
structure Schemas where
  envelope : Option AvroSchema := none
  payloads : List (String × AvroSchema) := []
  deriving DecidableEq, Repr

/-- The table of `load_schemas`. -/
def eventSchemas : List (String × AvroSchema) :=
  [("price.updated", pricesNormalizedV1), ("fx_rate.updated", pricesNormalizedV1),
    ("position.changed", positionsChangedV1), ("pnl.realized", positionsPnlRealizedV1),
    ("pnl.mark_to_market", positionsPnlMtmV1), ("trade.buy", tradesExecutedV1),
    ("trade.sell", tradesExecutedV1), ("trade.approved", tradesExecutedV1),
    ("trade.rejected", tradesExecutedV1), ("order.created", ordersCreatedV1),
    ("order.filled", ordersFilledV1), ("compliance.violation", complianceViolationV1),
    ("compliance.violation.resolved", complianceViolationV1),
    ("exposure.updated", exposureUpdatedV1), ("risk.updated", riskUpdatedV1),
    ("cash.settlement.created", cashSettlementV1), ("cash.settlement.settled", cashSettlementV1),
    ("capital.subscription", capitalTransactionV1), ("capital.redemption", capitalTransactionV1),
    ("capital.allocation", capitalTransactionV1),
    ("attribution.daily_calculated", attributionCalculatedV1),
    ("attribution.cumulative_updated", attributionCalculatedV1),
    ("order.cancelled", ordersCanceledV1), ("order_intents.generated", ordersIntentsGeneratedV1),
    ("market_data.status", marketDataStatusV1), ("cash.projected", cashProjectedV1),
    ("cash.balance_warning", cashBalanceWarningV1)]

def loadSchemas : Schemas where
  envelope := some envelopeV1
  payloads := eventSchemas

/-- No schema names a field twice, and what a message is keyed by is a text. -/
theorem eventSchemas_wellFormed : ∀ entry ∈ eventSchemas, entry.2.names.Nodup ∧
    ∀ field ∈ entry.2, field.name = "instrument_id" ∨ field.name = "portfolio_id" →
      field.type = .string := by
  decide

/-! ## Serialization -/

structure AvroCodec where
  encode : AvroSchema → Parameters → Except Exc String
  decode : AvroSchema → String → Except Exc Parameters
  /-- Whether a value of a type of numbers is read back as it was written. -/
  exact : AvroType → Json → Bool
  exact_int : ∀ i : Int, -2 ^ 31 ≤ i → i < 2 ^ 31 → exact .int (.number i (toString i)) = true
  encode_bytes : ∀ {schema record raw}, encode schema record = .ok raw → isBytes raw = true
  decode_written : ∀ {schema record result},
    RecordSchema.written (AvroType.accepts exact) schema record = some result →
      ∃ raw, encode schema record = .ok raw ∧ decode schema raw = .ok result
  decode_refused : ∀ {schema record raw result},
    RecordSchema.written (AvroType.accepts exact) schema record = none →
      encode schema record = .ok raw → decode schema raw = .ok result → ¬ SameItems result record

section Codec

variable (codec : AvroCodec)

abbrev AvroCodec.Fits (schema : AvroSchema) (record : Parameters) : Prop :=
  RecordSchema.Fits (AvroType.accepts codec.exact) schema record

def Schemas.find (schemas : Schemas) (topic : String) (eventType : Json) :
    Except Exc AvroSchema :=
  match eventType with
  | .text name =>
    match schemas.payloads.lookup name with
    | some schema => .ok schema
    | none => .error (.valueError
        s!"No Avro schema registered for event_type: {name} (topic: {topic})")
  | other => .error (.valueError
      s!"No Avro schema registered for event_type: {other.str} (topic: {topic})")

/-- The envelope's schema, which is read from disk at startup. -/
def Schemas.getEnvelope (schemas : Schemas) : Except Exc AvroSchema :=
  match schemas.envelope with
  | some schema => .ok schema
  | none => .error (.runtimeError "Schemas not loaded — call load_schemas() at startup")

def serializeEvent (schemas : Schemas) (topic : String) (envelope payload : Parameters) :
    Except Exc String := do
  let payloadSchema ← schemas.find topic (envelope.get "event_type" (.text ""))
  let envelopeSchema ← schemas.getEnvelope
  let encodedPayload ← codec.encode payloadSchema payload
  codec.encode envelopeSchema (setItem "data" (.text encodedPayload) envelope)

/-- The envelope, without its `data`, and the payload. -/
def deserializeEvent (schemas : Schemas) (topic raw : String) :
    Except Exc (Parameters × Parameters) := do
  let envelopeSchema ← schemas.getEnvelope
  let envelope ← codec.decode envelopeSchema raw
  let payloadSchema ← schemas.find topic (envelope.get "event_type" (.text ""))
  let data ← match envelope.get? "data" with
    | some (.text data) => pure data
    | some _ => throw (.typeError "a bytes-like object is required")
    | none => throw (.keyError "data")
  let payload ← codec.decode payloadSchema data
  return (envelope, payload)

end Codec

end MiniHedge.Shared
