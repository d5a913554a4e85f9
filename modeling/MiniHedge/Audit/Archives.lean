import MiniHedge.Audit.Archival

/-! The runs after which every month that is marked is archived whole. -/

set_option autoImplicit false

namespace MiniHedge.Audit

open MiniHedge.Python MiniHedge.Library MiniHedge.Shared

section Format

variable (format : ArchiveFormat)

/-! ## What the runs keep -/

/-- The month that a run has read and not marked. -/
def ArchiveActor.reading : ArchiveActor → Option Period
  | .archival run =>
    match run.stage with
    | .fetched p _ | .stored p _ _ => some p
    | .idle | .fetching .. | .raised => none
  | .writer .. => none

/-- A month is read of a fund with a slug, whole, and no row of it is committed
after that. -/
def Timely (a : Archive) (others : List ArchiveActor) (actor : ArchiveActor)
    (input : ArchiveInput) : Prop :=
  match actor with
  | .archival run =>
    match run.stage with
    | .fetching p _ _ =>
      input.fails = false → p.fundSlug ≠ "" ∧ (p.records a.log).length ≤ batchSize
    | _ => True
  | .writer row false =>
    input.fails = false → (∀ marked ∈ a.index, marked.period.covers row = false) ∧
      ∀ other ∈ others, ∀ p ∈ other.reading, p.covers row = false
  | .writer _ true => True

/-- What a run knows of the month that it is at. -/
def ArchivalRun.Knows (a : Archive) (run : ArchivalRun) : Prop :=
  match run.stage with
  | .idle | .raised => True
  | .fetching p start stop => p.bounds = .ok (start, stop)
  | .fetched p records => p.month < 13 ∧ records.Perm (p.records a.log)
  | .stored p _ result => p.month < 13 ∧ result.objectKey = p.objectKey ∧ a.Has format p

def ArchiveActor.Knows (a : Archive) : ArchiveActor → Prop
  | .archival run => run.Knows format a
  | .writer .. => True

/-- Every month that is marked is archived, under a key of its own. -/
structure Archive.Sound (a : Archive) : Prop where
  complete : a.Complete format
  months : ∀ r ∈ a.index, r.period.month < 13

variable {format} {a : Archive} {p : Period}

theorem Archive.Has.append (has : a.Has format p) {r : AuditLogRecord}
    (other : p.covers r = false) : Archive.Has format { a with log := a.log ++ [r] } p := by
  obtain ⟨rows, stored, same⟩ := has
  exact ⟨rows, stored, by rwa [Period.records_append other]⟩

/-- Storing a month that was read whole keeps what the objects have. -/
theorem Archive.Has.store {q : Period} {records : AuditLog} (has : a.Has format p)
    (months : p.month < 13 ∧ q.month < 13) (whole : records.Perm (q.records a.log)) :
    Archive.Has format { a with
      objects := setItem q.objectKey (records.map (·.archived format)) a.objects } p := by
  obtain ⟨rows, stored, same⟩ := has
  by_cases key : p.objectKey = q.objectKey
  · obtain rfl := Period.objectKey_injective months.1 months.2 key
    exact ⟨_, by rw [lookup_setItem, if_pos rfl], whole.map _⟩
  · exact ⟨rows, by rw [lookup_setItem, if_neg key]; exact stored, same⟩

theorem Archive.Sound.recordArchival (sound : a.Sound format) {r : ArchivalRecord}
    (key : r.objectKey = r.period.objectKey) (month : r.period.month < 13)
    (has : a.Has format r.period) : (a.recordArchival r).Sound format := by
  unfold Archive.recordArchival
  split
  · exact sound
  · constructor
    · intro other inside
      rcases List.mem_append.mp inside with before | only
      · exact sound.complete other before
      · obtain rfl := List.mem_singleton.mp only
        exact ⟨key, has⟩
    · intro other inside
      rcases List.mem_append.mp inside with before | only
      · exact sound.months other before
      · obtain rfl := List.mem_singleton.mp only
        exact month

theorem Archive.Has.recordArchival (has : a.Has format p) (r : ArchivalRecord) :
    (a.recordArchival r).Has format p := by
  unfold Archive.recordArchival
  split <;> exact has

/-- What a change of the archive keeps that other runs rely on. -/
structure Archive.Keeps (format : ArchiveFormat) (a a' : Archive) : Prop where
  log : a'.log = a.log
  has : ∀ p, p.month < 13 → a.Has format p → a'.Has format p

theorem Archive.Keeps.refl (a : Archive) : Archive.Keeps format a a := ⟨rfl, fun _ _ has => has⟩

theorem Archive.Keeps.knows {a' : Archive} (keeps : Archive.Keeps format a a')
    {actor : ArchiveActor} (knows : actor.Knows format a) : actor.Knows format a' := by
  cases actor with
  | writer row committed => trivial
  | archival run =>
    obtain ⟨pending, results, stage⟩ := run
    cases stage with
    | idle | raised => trivial
    | fetching p start stop => exact knows
    | fetched p records => exact ⟨knows.1, keeps.log ▸ knows.2⟩
    | stored p records result => exact ⟨knows.1, knows.2.1, keeps.has p knows.1 knows.2.2⟩

/-- What a turn of a run leaves. -/
theorem ArchivalRun.advance_keeps {run run' : ArchivalRun} {a' : Archive} {input : ArchiveInput}
    {others : List ArchiveActor} (sound : a.Sound format) (knows : run.Knows format a)
    (timely : Timely a others (.archival run) input)
    (advanced : run.advance format a input = some (a', run')) :
    Archive.Keeps format a a' ∧ a'.Sound format ∧ run'.Knows format a' := by
  obtain ⟨pending, results, stage⟩ := run
  unfold ArchivalRun.advance at advanced
  cases stage with
  | raised => cases advanced
  | idle =>
    cases pending with
    | nil => cases advanced
    | cons task rest =>
      dsimp only at advanced
      split at advanced
      · cases advanced
        exact ⟨.refl a, sound, trivial⟩
      · cases task with
        | fund fundSlug =>
          dsimp only at advanced
          split at advanced
          · cases advanced
            exact ⟨.refl a, sound, trivial⟩
          · split at advanced <;> cases advanced <;> exact ⟨.refl a, sound, trivial⟩
        | month p =>
          dsimp only at advanced
          split at advanced
          · cases advanced
            exact ⟨.refl a, sound, trivial⟩
          · split at advanced <;> cases advanced
            · exact ⟨.refl a, sound, trivial⟩
            · rename_i valid
              exact ⟨.refl a, sound, valid⟩
  | fetching p start stop =>
    dsimp only at advanced
    split at advanced
    · cases advanced
      exact ⟨.refl a, sound, trivial⟩
    · rename_i answers
      split at advanced
      · rename_i answered
        -- the answer has all records of the month, for they are within the limit
        obtain ⟨named, few⟩ := timely (by simpa using answers)
        have whole : input.answer.Perm (p.records a.log) := by
          rw [← recordsForPeriod_eq knows named]
          exact answered.1
        rw [List.take_of_length_le (whole.length_eq.trans_le few)] at advanced
        split at advanced <;> cases advanced
        · exact ⟨.refl a, sound, trivial⟩
        · exact ⟨.refl a, sound, Period.month_lt knows, whole⟩
      · cases advanced
  | fetched p records =>
    obtain ⟨month, whole⟩ := knows
    dsimp only at advanced
    split at advanced <;> cases advanced
    · exact ⟨.refl a, sound, trivial⟩
    · -- an archive that is stored again holds the same records
      refine ⟨⟨rfl, fun q other has => has.store ⟨other, month⟩ whole⟩, ⟨fun r inside => ?_, ?_⟩,
        month, rfl, _, by rw [lookup_setItem, if_pos rfl], whole.map _⟩
      · obtain ⟨key, has⟩ := sound.complete r inside
        exact ⟨key, has.store ⟨sound.months r inside, month⟩ whole⟩
      · exact sound.months
  | stored p records result =>
    obtain ⟨month, key, has⟩ := knows
    dsimp only at advanced
    split at advanced <;> cases advanced
    · exact ⟨.refl a, sound, trivial⟩
    · refine ⟨⟨?_, fun q _ has => has.recordArchival _⟩, sound.recordArchival key month has, trivial⟩
      unfold Archive.recordArchival
      split <;> rfl

/-- A writer commits a row that no month covers which is read or marked. -/
theorem Archive.Sound.commit (sound : a.Sound format) {row : AuditLogRecord}
    (unmarked : ∀ marked ∈ a.index, marked.period.covers row = false) :
    Archive.Sound format { a with log := a.log ++ [row] } where
  complete r inside :=
    ⟨(sound.complete r inside).1, (sound.complete r inside).2.append (unmarked r inside)⟩
  months := sound.months

theorem ArchiveActor.Knows.commit {actor : ArchiveActor} (knows : actor.Knows format a)
    {row : AuditLogRecord} (unread : ∀ p ∈ actor.reading, p.covers row = false) :
    actor.Knows format { a with log := a.log ++ [row] } := by
  cases actor with
  | writer row committed => trivial
  | archival run =>
    obtain ⟨pending, results, stage⟩ := run
    cases stage with
    | idle | raised => trivial
    | fetching p start stop => exact knows
    | fetched p records =>
      refine ⟨knows.1, ?_⟩
      rw [Period.records_append (unread p rfl)]
      exact knows.2
    | stored p records result => exact ⟨knows.1, knows.2.1, knows.2.2.append (unread p rfl)⟩

/-- The processes of a log of any rows, with nothing archived. -/
def archivingStart (log : AuditLog) (objects : List (String × List ArchivedRow))
    (runs : List (List Task)) (rows : AuditLog) : Processes.State Archive ArchiveActor where
  shared := { log, objects }
  processes := runs.map (fun pending => .archival { pending }) ++ rows.map (.writer · false)

/-- What is marked is archived as it is, along every run that reads months whole and
commits no row of them afterwards. -/
theorem complete_of_timely {log : AuditLog} {objects : List (String × List ArchivedRow)}
    {runs : List (List Task)} {rows : AuditLog} {turns : List (Processes.Turn ArchiveInput)}
    {final : Processes.State Archive ArchiveActor}
    (timely : (archiving format).system.Along (Processes.When Timely)
      (archivingStart log objects runs rows) turns)
    (ran : (archiving format).system.run (archivingStart log objects runs rows) turns = some final) :
    final.shared.Complete format := by
  have kept : ∀ s turn next, Processes.Holds (Archive.Sound format)
      (fun a actor => actor.Knows format a) (fun _ _ => True) s → Processes.When Timely s turn →
      (archiving format).system.step s turn = some next → Processes.Holds (Archive.Sound format)
        (fun a actor => actor.Knows format a) (fun _ _ => True) next := by
    intro s turn next holds met stepped
    refine Processes.step_keeps (fun _ _ _ => trivial) ?_ holds met stepped
    intro a a' others actor actor' input sound knows rest timely advanced
    cases actor with
    | archival run =>
      obtain ⟨⟨_, run'⟩, moved, same⟩ := Option.map_eq_some_iff.mp advanced
      cases same
      obtain ⟨keeps, sound', knows'⟩ := ArchivalRun.advance_keeps sound knows timely moved
      exact ⟨sound', knows', fun q inside => ⟨keeps.knows (rest q inside).1, trivial⟩⟩
    | writer row committed =>
      cases committed with
      | true => cases advanced
      | false =>
        simp only [archiving, ArchiveActor.advance] at advanced
        split at advanced <;> cases advanced
        · exact ⟨sound, trivial, fun q inside => ⟨(rest q inside).1, trivial⟩⟩
        · rename_i commits
          obtain ⟨unmarked, unread⟩ := timely (by simpa using commits)
          exact ⟨sound.commit unmarked, trivial,
            fun q inside => ⟨(rest q inside).1.commit (unread q inside), trivial⟩⟩
  have initial : Processes.Holds (Archive.Sound format) (fun a actor => actor.Knows format a)
      (fun _ _ => True) (archivingStart log objects runs rows) := by
    refine ⟨⟨fun r inside => (List.not_mem_nil inside).elim,
      fun r inside => (List.not_mem_nil inside).elim⟩, fun actor inside => ?_,
      List.pairwise_of_forall fun _ _ => trivial⟩
    rcases List.mem_append.mp inside with run | writer
    · obtain ⟨pending, -, rfl⟩ := List.mem_map.mp run
      trivial
    · obtain ⟨row, -, rfl⟩ := List.mem_map.mp writer
      trivial
  exact (System.invariant_along kept timely ran initial).shared.complete

instance (a : Archive) (others : List ArchiveActor) (actor : ArchiveActor) (input : ArchiveInput) :
    Decidable (Timely a others actor input) :=
  match actor with
  | .archival ⟨_, _, .fetching ..⟩ => inferInstanceAs (Decidable (_ = false → _))
  | .archival ⟨_, _, .idle⟩ | .archival ⟨_, _, .fetched ..⟩ | .archival ⟨_, _, .stored ..⟩
  | .archival ⟨_, _, .raised⟩ | .writer _ true => isTrue trivial
  | .writer _ false => inferInstanceAs (Decidable (_ = false → _))

end Format

/-! ## One month -/

section April

def april : Period := ⟨"alpha", 2026, 4⟩

/-- The turns of `archive_fund_month` that archive the month, given the rows that
the query answers. -/
def oneMonth (answer : AuditLog) : List (Processes.Turn ArchiveInput) :=
  [⟨0, {}⟩, ⟨0, { answer }⟩, ⟨0, {}⟩, ⟨0, {}⟩]

variable (format : ArchiveFormat)

/-- The object has the first 5000 rows. -/
theorem archived_april (log : AuditLog) (sorted : log.Pairwise (·.createdAt ≤ ·.createdAt))
    (covered : ∀ r ∈ log, april.covers r) (nonempty : log ≠ []) :
    ∃ final, (archiving format).system.run (archivingStart log [] [[.month april]] [])
        (oneMonth log) = some final ∧ final.shared.log = log ∧
      final.shared.index.map (·.period) = [april] ∧
      final.shared.objects =
        [(april.objectKey, (log.take batchSize).map (·.archived format))] := by
  have valid : april.bounds = .ok (1775001600000000, 1777593600000000) := by decide +kernel
  have selected : recordsForPeriod 1775001600000000 1777593600000000 april.fundSlug log = log := by
    rw [recordsForPeriod_eq valid (by decide)]
    exact List.filter_eq_self.mpr covered
  obtain ⟨first, rest, taken⟩ : ∃ first rest, log.take batchSize = first :: rest := by
    cases log with
    | nil => exact absurd rfl nonempty
    | cons first rest => exact ⟨first, rest.take 4999, rfl⟩
  have checked : (archiving format).advance { log } [] (.archival { pending := [.month april] }) {} =
      some ({ log }, .archival
        { pending := [], stage := .fetching april 1775001600000000 1777593600000000 }) := by
    simp [archiving, ArchiveActor.advance, ArchivalRun.advance, Archive.isArchived, valid]
  have fetched : (archiving format).advance { log } [] (.archival
        { pending := [], stage := .fetching april 1775001600000000 1777593600000000 })
        { answer := log } =
      some ({ log }, .archival { pending := [], stage := .fetched april (first :: rest) }) := by
    have ordered : InOrder log log := ⟨.refl log, sorted⟩
    simp [archiving, ArchiveActor.advance, ArchivalRun.advance, selected, ordered, taken]
  rw [taken]
  refine ⟨_, Processes.run_single _ checked (Processes.run_single _ fetched rfl), rfl, rfl, rfl⟩

/-- `json.dumps` of an empty payload; the size and the digests of the two files below. -/
def emptyFormat : ArchiveFormat where
  dumps _ := "\x7b\x7d"
  size rows := 3000 + 40 * rows.length
  checksum ids := if ids = ["cdc-0"]
    then "0ad0cb3d3f07ac5632e449556508d988c2be88d747e5a4eae287e54da20b6a2a"
    else "a800ed0b1e668e76f7051c9cb30cffe43ba6b15b1b7a954d5ebf1d8940e57632"

def auditRow (n : Nat) : AuditLogRecord where
  eventId := "cdc-" ++ toString n
  eventType := "cdc.orders.insert"
  actorId := some "debezium"
  actorType := some "system"
  fundSlug := some "alpha"
  payload := .fields []
  prevHash := none
  entryHash := emptyPayloads.sha256 "\x7b\x7d"
  createdAt := 1775001600000000 + n

theorem complete_oneRow : ∃ final,
    (archiving emptyFormat).system.run (archivingStart [auditRow 0] [] [[.month april]] [])
        (oneMonth [auditRow 0]) = some final ∧
      final.shared.index.map (·.period) = [april] ∧ final.shared.Complete emptyFormat := by
  have timely : (archiving emptyFormat).system.Along (Processes.When Timely)
      (archivingStart [auditRow 0] [] [[.month april]] []) (oneMonth [auditRow 0]) := by
    decide +kernel
  obtain ⟨final, ran, -, marked, -⟩ := archived_april emptyFormat [auditRow 0]
    (List.pairwise_singleton _ _) (by decide +kernel) (List.cons_ne_nil _ _)
  exact ⟨final, ran, marked, complete_of_timely timely ran⟩

/-- A month of 5001 rows is marked, and its object has 5000. -/
theorem april_truncated : ∃ log final,
    (∀ r ∈ log, april.covers r) ∧
      (archiving emptyFormat).system.run (archivingStart log [] [[.month april]] [])
        (oneMonth log) = some final ∧
      final.shared.index.map (·.period) = [april] ∧ ¬ final.shared.Complete emptyFormat := by
  have covered : ∀ r ∈ (List.range 5001).map auditRow, april.covers r := by
    intro r inside
    obtain ⟨n, below, rfl⟩ := List.mem_map.mp inside
    have small : n < 5001 := List.mem_range.mp below
    have valid : april.bounds = .ok (1775001600000000, 1777593600000000) := by decide +kernel
    rw [Period.covers, valid]
    refine decide_eq_true ⟨?_, ?_, rfl⟩
    · change (1775001600000000 : Int) ≤ 1775001600000000 + (n : Int)
      omega
    · change 1775001600000000 + (n : Int) < (1777593600000000 : Int)
      omega
  have sorted : ((List.range 5001).map auditRow).Pairwise (·.createdAt ≤ ·.createdAt) := by
    refine List.pairwise_map.mpr (List.pairwise_lt_range.imp fun {m n} before => ?_)
    have below : m < n := before
    change 1775001600000000 + (m : Int) ≤ 1775001600000000 + (n : Int)
    omega
  obtain ⟨final, ran, kept, marked, objects⟩ := archived_april emptyFormat _ sorted covered (by simp)
  refine ⟨_, final, covered, ran, marked, fun complete => ?_⟩
  obtain ⟨r, inside, period⟩ : ∃ r ∈ final.shared.index, r.period = april := by
    rw [← List.mem_map, marked]
    exact List.mem_singleton_self _
  obtain ⟨-, rows, stored, same⟩ := complete r inside
  rw [period, objects, List.lookup_cons_self, Option.some.injEq] at stored
  have lengths := same.length_eq
  rw [← stored, period, kept, Period.records, List.filter_eq_self.mpr covered] at lengths
  simp [batchSize] at lengths

end April

end MiniHedge.Audit
