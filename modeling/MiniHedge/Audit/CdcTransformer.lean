import MiniHedge.Audit.ChangeEvents
import MiniHedge.Library.BatchConsumer
import MiniHedge.Positions.TradeHandler
import MiniHedge.Shared.Publish

/-! `CdcTransformer`: change events of the funds' tables, published again as domain
events.

What `send` accepts is in a buffer until it is written, or given up; a restart
loses the buffer. What cannot be sent is logged.
-/

set_option autoImplicit false

namespace MiniHedge.Audit

open MiniHedge.Python MiniHedge.Library MiniHedge.Shared

/-! ## The mapping -/

/-- What a change is mapped to. -/
structure Mapped where
  topicSuffix : String
  eventType : String
  payload : Parameters
  deriving DecidableEq, Repr

section Mapping

-- the row after the change, which is read as an object without fields where there is none
variable (after : Option Parameters)

/-- `row.get(column, "")`, under the column's name or another. -/
def column (name : String) (source : String := name) : String × Json :=
  (name, (after.getD []).get source (.text ""))

/-- `str(row.get(column, "0"))`. -/
def shown (name : String) : String × Json :=
  (name, .text ((after.getD []).get name (.text "0")).str)

def operationField (operation : String) : String × Json := ("cdc_operation", .text operation)

/-- `_map_cdc_to_domain_event`. -/
def mapCdcToDomainEvent (table operation : String) : Option Mapped :=
  if table = "current_positions" ∧ operation ∈ ["c", "u", "r"] then
    some ⟨"positions.changed", "position.changed",
      [column after "instrument_id", column after "portfolio_id", shown after "quantity",
        shown after "market_value", shown after "market_price", shown after "avg_cost",
        shown after "unrealized_pnl", operationField operation]⟩
  else if table = "orders" then
    let status := column after "status"
    if operation = "c" then
      some ⟨"orders.created", "order.created",
        [column after "order_id" "id", column after "portfolio_id", column after "instrument_id",
          column after "side", shown after "quantity", status, operationField operation]⟩
    else if operation = "u" ∧ status.2 = .text "filled" then
      some ⟨"orders.filled", "order.filled",
        [column after "order_id" "id", column after "portfolio_id", column after "instrument_id",
          column after "side", shown after "quantity", shown after "fill_price", status,
          operationField operation]⟩
    else none
  else if table = "compliance_violations" ∧ operation ∈ ["c", "u", "r"] then
    some ⟨"compliance.violations", "compliance.violation",
      [column after "violation_id" "id", column after "portfolio_id", column after "rule_id",
        column after "rule_name", column after "severity", column after "message",
        operationField operation]⟩
  else if table = "risk_snapshots" ∧ operation ∈ ["c", "r"] then
    some ⟨"risk.updated", "risk.updated",
      [column after "portfolio_id", shown after "nav", shown after "var_95_1d",
        shown after "var_99_1d", operationField operation]⟩
  else if table = "exposure_snapshots" ∧ operation ∈ ["c", "r"] then
    some ⟨"exposures.updated", "exposure.updated",
      [column after "portfolio_id", operationField operation]⟩
  else if table ∈ ["cash_entries", "settlement_entries"] ∧ operation ∈ ["c", "u", "r"] then
    some ⟨"cash.settlement.created", "cash.settlement",
      [column after "portfolio_id", shown after "amount",
        ("currency", (after.getD []).get "currency" (.text "USD")), operationField operation]⟩
  else none

end Mapping

/-! ## One message -/

/-- What is published; its `source` is `cdc`. -/
structure DomainEvent where
  topic : String
  eventType : String
  data : Parameters
  fundSlug : String
  deriving DecidableEq, Repr

namespace DomainEvent

variable (event : DomainEvent)

/-- `a or b`. -/
def orElse (a b : Json) : Json := if a.truthy then a else b

/-- The key of the message, if any: a value that is no text raises. -/
def key : Except Exc (Option String) :=
  let get name := event.data.get name .null
  let key := orElse (get "instrument_id") (orElse (get "portfolio_id")
    (orElse (get "order_id") (.text "")))
  if key.truthy then (encodeText key).map some else .ok none

/-- `send` accepts the message: it is called once the key is encoded. -/
def Sendable : Prop := event.key.toOption ≠ none

instance : Decidable event.Sendable := inferInstanceAs (Decidable (_ ≠ _))

end DomainEvent

/-- The event that a message becomes, if it is not skipped. -/
def transform (message : CdcMessage) : Option DomainEvent := do
  let .event event := message.value | none
  let (schema, table) ← cdcTopic message.topic
  let fundSlug ← schemaToFundSlug schema
  let operation ← event.op
  let mapped ← mapCdcToDomainEvent event.after table operation
  return {
    topic := Positions.fundTopic fundSlug mapped.topicSuffix
    eventType := mapped.eventType
    data := mapped.payload
    fundSlug }

/-! ## The loop -/

/-- The producer's buffer, and what has become of the events. -/
structure Producing where
  unsent : List (Delivery CdcMessage × DomainEvent) := []
  published : List (Delivery CdcMessage × DomainEvent) := []
  /-- The messages since the start whose events were refused or given up. -/
  failed : List (Delivery CdcMessage) := []
  deriving DecidableEq, Repr

/-- `_process_message`, where `send` may raise. -/
def processMessage (e : Producing) (d : Delivery CdcMessage) (sent : Bool) : Option Producing :=
  match transform d.message with
  | none => some e
  | some event =>
    if sent ∧ event.Sendable then some { e with unsent := e.unsent ++ [(d, event)] }
    else some { e with failed := e.failed ++ [d] }

/-- The producer writes the next event, or gives it up. -/
def produce (e : Producing) (written : Bool) : Option Producing :=
  match e.unsent with
  | [] => none
  | (d, event) :: rest =>
    if written then some { e with unsent := rest, published := e.published ++ [(d, event)] }
    else some { e with unsent := rest, failed := e.failed ++ [d] }

def cdcTransformer : Handling CdcMessage Producing Bool Bool where
  maxRecords := 50
  handle := processMessage
  background := produce
  restarted e := { e with unsent := [], failed := [] }

end MiniHedge.Audit
