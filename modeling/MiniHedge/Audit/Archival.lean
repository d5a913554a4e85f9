import MiniHedge.Audit.Verifier
import MiniHedge.Library.Mapping
import MiniHedge.Python.Dates

/-! `ArchivalService`: the months of the audit log that are kept in cold storage.

An archival run takes its months one after the other; between two statements of
a run other runs take theirs, and writers of the audit log commit their rows. The
Parquet file and the digest of the event ids are parameters.
-/

set_option autoImplicit false

namespace MiniHedge.Audit

open MiniHedge.Python MiniHedge.Library MiniHedge.Shared

/-! ## Months -/

/-- `_next_month` of the first day of a month. -/
def nextMonth (d : CivilDate) : Except Exc CivilDate :=
  if d.month = 12 then CivilDate.of (d.year + 1) 1 1 else CivilDate.of d.year (d.month + 1) 1

/-- The microseconds from 1970 to the beginning of a day. -/
def midnight (d : CivilDate) : Datetime := (d.toordinal - 719163) * 86400000000

structure Period where
  fundSlug : String
  year : Nat
  month : Nat
  deriving DecidableEq, Repr

namespace Period

def bounds (p : Period) : Except Exc (Datetime × Datetime) := do
  let start ← CivilDate.of p.year p.month 1
  let stop ← nextMonth start
  return (midnight start, midnight stop)

def objectKey (p : Period) : String :=
  p.fundSlug ++ "/" ++ toString p.year ++ "/" ++ CivilDate.padded 2 p.month ++ ".parquet"

theorem objectKey_toList (p : Period) :
    p.objectKey.toList = (p.fundSlug.toList ++ '/' :: (toString p.year).toList) ++
      '/' :: (CivilDate.padded 2 p.month).toList ++ ".parquet".toList := by
  have slash : "/".toList = ['/'] := rfl
  simp only [objectKey, String.toList_append, slash, List.append_assoc, List.cons_append,
    List.nil_append]

theorem month_lt {p : Period} {bounds : Datetime × Datetime} (valid : p.bounds = .ok bounds) :
    p.month < 13 := by
  unfold Period.bounds CivilDate.of at valid
  split at valid
  · split at valid
    · rename_i months
      omega
    · cases valid
  · cases valid

/-- A key is that of one fund and month. -/
theorem objectKey_injective {p q : Period} (left : p.month < 13) (right : q.month < 13)
    (same : p.objectKey = q.objectKey) : p = q := by
  have texts := congrArg String.toList same
  rw [objectKey_toList, objectKey_toList] at texts
  have absent : ∀ n, '/' ∉ (CivilDate.padded 2 n).toList := CivilDate.absent_padded (by decide) 2
  have digits : ∀ n : Nat, '/' ∉ (toString n).toList := CivilDate.absent_repr (by decide)
  obtain ⟨front, months⟩ := split_last (absent _) (absent _) (List.append_cancel_right texts)
  obtain ⟨slugs, years⟩ := split_last (digits _) (digits _) front
  have sameMonth :=
    CivilDate.padded_injective _ left _ right (String.toList_inj.mp months)
  have sameYear := CivilDate.repr_injective (String.toList_inj.mp years)
  have sameSlug := String.toList_inj.mp slugs
  cases p
  cases q
  simp only at sameMonth sameYear sameSlug
  rw [sameMonth, sameYear, sameSlug]

/-- A row of the fund with a time of the month. -/
def covers (p : Period) (r : AuditLogRecord) : Bool :=
  match p.bounds with
  | .ok (start, stop) =>
    start ≤ r.createdAt ∧ r.createdAt < stop ∧ r.fundSlug = some p.fundSlug
  | .error _ => false

def records (p : Period) (log : AuditLog) : AuditLog := log.filter p.covers

theorem records_append {p : Period} {r : AuditLogRecord} (other : p.covers r = false)
    (log : AuditLog) : p.records (log ++ [r]) = p.records log := by
  simp [records, other]

end Period

/-- The rows that `get_records_for_period` and `count_for_period` select: a slug
that is empty does not restrict them. -/
def recordsForPeriod (start stop : Datetime) (fundSlug : String) (log : AuditLog) : AuditLog :=
  log.filter fun r =>
    start ≤ r.createdAt ∧ r.createdAt < stop ∧ (fundSlug = "" ∨ r.fundSlug = some fundSlug)

theorem recordsForPeriod_eq {p : Period} {start stop : Datetime}
    (valid : p.bounds = .ok (start, stop)) (named : p.fundSlug ≠ "") (log : AuditLog) :
    recordsForPeriod start stop p.fundSlug log = p.records log := by
  refine List.filter_congr fun r _ => ?_
  simp only [Period.covers, valid, named, false_or]

/-- The first days of the months from one to another, seven years at most. -/
def monthsBefore (current : CivilDate) : Nat → CivilDate → List CivilDate
  | 0, _ => []
  | limit + 1, cursor =>
    if cursor.toordinal < current.toordinal then
      cursor :: match nextMonth cursor with
        | .ok next => monthsBefore current limit next
        | .error _ => []
    else []

/-- The months that `_archive_fund` goes through. -/
def eligibleMonths (today : CivilDate) : Except Exc (List CivilDate) := do
  let current ← CivilDate.of today.year today.month 1
  let cursor ← CivilDate.of (today.year - 7) today.month 1
  return monthsBefore current 84 cursor

/-! ## Objects and the index -/

structure ArchivedRow where
  eventId : String
  eventType : String
  actorId : Option String
  actorType : Option String
  fundSlug : Option String
  payload : String
  createdAt : Datetime
  deriving DecidableEq, Repr

structure ArchiveFormat where
  /-- `json.dumps` with `default=str`. -/
  dumps : Payload → String
  /-- The size of the Parquet file. -/
  size : List ArchivedRow → Nat
  /-- The digest of the sorted event ids. -/
  checksum : List String → String

structure ArchivalResult where
  objectKey : String
  recordsArchived : Nat
  sizeBytes : Nat
  deriving DecidableEq, Repr

structure ArchivalRecord where
  period : Period
  objectKey : String
  recordsArchived : Nat
  sizeBytes : Nat
  checksum : String
  deriving DecidableEq, Repr

structure Archive where
  log : AuditLog
  index : List ArchivalRecord := []
  objects : List (String × List ArchivedRow) := []
  deriving DecidableEq, Repr

def Archive.isArchived (a : Archive) (p : Period) : Bool := a.index.any (·.period = p)

/-- `_record_archival`: a month that is marked stays as it is. -/
def Archive.recordArchival (a : Archive) (r : ArchivalRecord) : Archive :=
  if a.isArchived r.period then a else { a with index := a.index ++ [r] }

section Format

variable (format : ArchiveFormat)

def AuditLogRecord.archived (r : AuditLogRecord) : ArchivedRow where
  eventId := r.eventId
  eventType := r.eventType
  actorId := r.actorId
  actorType := r.actorType
  fundSlug := r.fundSlug
  payload := format.dumps r.payload
  createdAt := r.createdAt

/-- The object of the month has exactly the rows of the fund in the month. -/
def Archive.Has (a : Archive) (p : Period) : Prop :=
  ∃ rows, a.objects.lookup p.objectKey = some rows ∧
    rows.Perm ((p.records a.log).map (·.archived format))

/-- Every month that is marked is archived as it is in the log. -/
def Archive.Complete (a : Archive) : Prop :=
  ∀ r ∈ a.index, r.objectKey = r.period.objectKey ∧ a.Has format r.period

/-! ## Runs -/

inductive Task where
  | fund (fundSlug : String)
  | month (period : Period)
  deriving DecidableEq, Repr

inductive ArchivalStage where
  | idle
  | fetching (period : Period) (start stop : Datetime)
  | fetched (period : Period) (records : AuditLog)
  | stored (period : Period) (records : AuditLog) (result : ArchivalResult)
  | raised
  deriving DecidableEq, Repr

/-- `run_archival` of the active funds, or `archive_fund_month` of one month. -/
structure ArchivalRun where
  pending : List Task
  results : List ArchivalResult := []
  stage : ArchivalStage := .idle
  deriving DecidableEq, Repr

inductive ArchiveActor where
  | archival (run : ArchivalRun)
  /-- A writer of the audit log, at its commit. -/
  | writer (row : AuditLogRecord) (committed : Bool)
  deriving DecidableEq, Repr

structure ArchiveInput where
  today : CivilDate := .ofNat 2026 1 1
  now : Datetime := 0
  /-- The rows of a query, in the order in which they come. -/
  answer : AuditLog := []
  fails : Bool := false
  deriving DecidableEq, Repr

instance (log : AuditLog) (records : List AuditLogRecord) : Decidable (InOrder log records) :=
  inferInstanceAs (Decidable (_ ∧ _))

/-- From 2020 on, in microseconds. -/
def countStart : Datetime := 1577836800000000

def batchSize : Nat := 5000

def ArchivalRun.advance (a : Archive) (run : ArchivalRun) (input : ArchiveInput) :
    Option (Archive × ArchivalRun) :=
  let raise := some (a, { run with stage := .raised })
  match run.stage with
  | .raised => none
  | .idle =>
    match run.pending with
    | [] => none
    | task :: rest =>
      if input.fails then raise
      else match task with
        | .fund fundSlug =>
          if recordsForPeriod countStart input.now fundSlug a.log = [] then
            some (a, { run with pending := rest })
          else match eligibleMonths input.today with
            | .error _ => raise
            | .ok months =>
              some (a, { run with
                pending := (months.map fun d => .month ⟨fundSlug, d.year, d.month⟩) ++ rest })
        | .month p =>
          if a.isArchived p then some (a, { run with pending := rest })
          else match p.bounds with
            | .error _ => raise
            | .ok (start, stop) =>
              some (a, { run with pending := rest, stage := .fetching p start stop })
  | .fetching p start stop =>
    if input.fails then raise
    else if InOrder (recordsForPeriod start stop p.fundSlug a.log) input.answer then
      match input.answer.take batchSize with
      | [] => some (a, { run with stage := .idle })
      | records => some (a, { run with stage := .fetched p records })
    else none
  | .fetched p records =>
    if input.fails then raise
    else
      let rows := records.map (·.archived format)
      some ({ a with objects := setItem p.objectKey rows a.objects },
        { run with stage := .stored p records ⟨p.objectKey, rows.length, format.size rows⟩ })
  | .stored p records result =>
    if input.fails then raise
    else
      some (a.recordArchival ⟨p, result.objectKey, result.recordsArchived, result.sizeBytes,
          format.checksum (records.map (·.eventId))⟩,
        { run with results := run.results ++ [result], stage := .idle })

def ArchiveActor.advance (a : Archive) (_others : List ArchiveActor) (actor : ArchiveActor)
    (input : ArchiveInput) : Option (Archive × ArchiveActor) :=
  match actor with
  | .archival run =>
    (run.advance format a input).map fun moved => (moved.1, .archival moved.2)
  | .writer row false =>
    if input.fails then some (a, .writer row true)
    else some ({ a with log := a.log ++ [row] }, .writer row true)
  | .writer _ true => none

def archiving : Processes Archive ArchiveActor ArchiveInput where
  advance := ArchiveActor.advance format

end Format

end MiniHedge.Audit
