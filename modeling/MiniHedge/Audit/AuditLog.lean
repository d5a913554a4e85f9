import MiniHedge.Library.Interleaving
import MiniHedge.Shared.Events

/-! `AuditLogRepository`: the writers of the audit log, statement by statement.

A transaction sees what is committed when it reads, and its row is there for the
others when it commits; the row carries the time at which the transaction has
started. The texts that are hashed, the hash and what a JSONB column makes of a
payload are parameters.
-/

set_option autoImplicit false

namespace MiniHedge.Audit

open MiniHedge.Python MiniHedge.Library MiniHedge.Shared

/-- What a row keeps of an event, or of the arguments of a call. -/
inductive Payload where
  | event (data : Parameters) (eventVersion : Int) (timestamp : String)
  | fields (fields : Parameters)
  deriving DecidableEq, Repr

structure Encoding where
  /-- `json.dumps` with sorted keys. -/
  dumps : Payload → String
  /-- What is read back of a payload that is stored. -/
  jsonb : Payload → Payload
  sha256 : String → String

structure AuditLogRecord where
  eventId : String
  eventType : String
  actorId : Option String
  actorType : Option String
  fundSlug : Option String
  payload : Payload
  prevHash : Option String
  entryHash : String
  createdAt : Datetime
  deriving DecidableEq, Repr

/-- `text or None`. -/
def orNone (text : String) : Option String := if text = "" then none else some text

/-! ## Calls -/

/-- A call of the repository; the last text is the `uuid4().hex` that it draws. -/
inductive AuditCall where
  | insert (event : BaseEvent)
  | insertAdminEvent (eventType actorId actorType : String) (fundSlug : Option String)
      (payload : Option Parameters) (hex : String)
  | insertCdcEvent (eventType actorId actorType : String) (fundSlug : Option String)
      (payload : Option Parameters) (hex : String)
  deriving DecidableEq, Repr

namespace AuditCall

def eventId : AuditCall → String
  | insert event => event.eventId
  | insertAdminEvent _ _ _ _ _ hex => "admin-" ++ hex
  | insertCdcEvent _ _ _ _ _ hex => "cdc-" ++ hex

/-- `_safe_payload` of an event, or `payload or {}`. -/
def payload : AuditCall → Payload
  | insert event => .event event.data event.eventVersion event.timestamp
  | insertAdminEvent _ _ _ _ payload _ | insertCdcEvent _ _ _ _ payload _ =>
    .fields (payload.getD [])

end AuditCall

section Encoding

variable (encoding : Encoding)

/-- `_compute_hash`. -/
def computeHash (payloadStr prevHash : String) : String :=
  encoding.sha256 (payloadStr ++ prevHash)

/-- The row that a call inserts after the hash that it has read. -/
def AuditCall.record (call : AuditCall) (prevHash : String) (createdAt : Datetime) :
    AuditLogRecord where
  eventId := call.eventId
  eventType := match call with
    | insert event => event.eventType
    | insertAdminEvent eventType .. | insertCdcEvent eventType .. => eventType
  actorId := match call with
    | insert event => event.actorId
    | insertAdminEvent _ actorId .. | insertCdcEvent _ actorId .. => some actorId
  actorType := match call with
    | insert event => event.actorType
    | insertAdminEvent _ _ actorType .. | insertCdcEvent _ _ actorType .. => some actorType
  fundSlug := match call with
    | insert event => event.fundSlug
    | insertAdminEvent _ _ _ fundSlug .. | insertCdcEvent _ _ _ fundSlug .. => fundSlug
  payload := encoding.jsonb call.payload
  prevHash := orNone prevHash
  entryHash := computeHash encoding (encoding.dumps call.payload) prevHash
  createdAt := createdAt

/-! ## Writers -/

/-- The rows that are committed, in the order of their commits. -/
abbrev AuditLog := List AuditLogRecord

/-- The rows that `ORDER BY created_at DESC` may answer first. -/
def latest (log : AuditLog) : AuditLog :=
  log.filter fun r => log.all fun other => other.createdAt ≤ r.createdAt

/-- `_fetch_last_hash`: of rows of one time, any may be answered. -/
def fetchLastHash (log : AuditLog) (tie : Nat) : String :=
  ((latest log)[tie % (latest log).length]?.map (·.entryHash)).getD ""

inductive Stage where
  | called
  | begun (startedAt : Datetime)
  -- the number of rows that the hash was read from is not in the source
  | fetched (startedAt : Datetime) (rows : Nat) (prevHash : String)
  | inserted (rows : Nat) (record : AuditLogRecord)
  | ended
  deriving DecidableEq, Repr

structure Writer where
  call : AuditCall
  stage : Stage := .called
  deriving DecidableEq, Repr

/-- What a writer has inserted and not committed. -/
def Writer.pending (w : Writer) : Option AuditLogRecord :=
  match w.stage with
  | .inserted _ record => some record
  | _ => none

/-- What a step depends on: the clock, which of several rows is answered, and
whether the statement fails. -/
structure Input where
  now : Datetime := 0
  tie : Nat := 0
  fails : Bool := false
  deriving DecidableEq, Repr

/-- The next statement of a writer. An insert waits while another transaction has
inserted a row with the event id; one that is committed is not inserted again: the
statement does nothing, or raises. -/
def Writer.advance (log : AuditLog) (others : List Writer) (w : Writer) (input : Input) :
    Option (AuditLog × Writer) :=
  match w.stage with
  | .ended => none
  | stage =>
    if input.fails then some (log, { w with stage := .ended })
    else match stage with
      | .called => some (log, { w with stage := .begun input.now })
      | .begun startedAt =>
        some (log, { w with stage := .fetched startedAt log.length (fetchLastHash log input.tie) })
      | .fetched startedAt rows prevHash =>
        let record := w.call.record encoding prevHash startedAt
        if others.any (fun other => other.pending.any (·.eventId = record.eventId)) then none
        else if log.any (·.eventId = record.eventId) then some (log, { w with stage := .ended })
        else some (log, { w with stage := .inserted rows record })
      | .inserted _ record => some (log ++ [record], { w with stage := .ended })
      | .ended => none

def writers : Processes AuditLog Writer Input where
  advance := Writer.advance encoding

end Encoding

end MiniHedge.Audit
