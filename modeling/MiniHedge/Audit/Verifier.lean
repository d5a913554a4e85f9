import MiniHedge.Audit.AuditLog
import Mathlib.Data.List.Nodup

/-! `AuditIntegrityVerifier`, and the runs of writers after which the log verifies. -/

set_option autoImplicit false

namespace MiniHedge.Audit

open MiniHedge.Python MiniHedge.Library MiniHedge.Shared

section Verifier

variable (encoding : Encoding)

structure AuditVerificationResult where
  isValid : Bool
  recordsChecked : Nat
  firstBrokenLink : Option String := none
  deriving DecidableEq, Repr

/-- The loop over the records, after `checked` of them. -/
def walk (prevHash : String) (checked : Nat) : List AuditLogRecord → AuditVerificationResult
  | [] => ⟨true, checked, none⟩
  | r :: rest =>
    if r.entryHash ≠ computeHash encoding (encoding.dumps r.payload) prevHash then
      ⟨false, checked + 1, some r.eventId⟩
    else if r.prevHash ≠ orNone prevHash then ⟨false, checked + 1, some r.eventId⟩
    else walk r.entryHash (checked + 1) rest

/-- `verify`, of the records in the order in which the query answers them. -/
def verify (limit : Nat) (records : List AuditLogRecord) : AuditVerificationResult :=
  walk encoding "" 0 (records.take limit)

/-- An answer to `ORDER BY created_at`. -/
def InOrder (log : AuditLog) (records : List AuditLogRecord) : Prop :=
  records.Perm log ∧ records.Pairwise (·.createdAt ≤ ·.createdAt)

/-- However the query orders rows of one time, the log is reported as valid. -/
def Verifies (log : AuditLog) : Prop :=
  ∀ limit records, InOrder log records → (verify encoding limit records).isValid

/-! ## Chains -/

def Linked : String → List AuditLogRecord → Prop
  | _, [] => True
  | prevHash, r :: rest =>
    r.entryHash = computeHash encoding (encoding.dumps r.payload) prevHash ∧
      r.prevHash = orNone prevHash ∧ Linked r.entryHash rest

/-- The hash that the next row is to follow. -/
def lastHash (prevHash : String) (log : List AuditLogRecord) : String :=
  log.foldl (fun _ r => r.entryHash) prevHash

variable {encoding} {prevHash : String} {log : AuditLog} {r : AuditLogRecord}

theorem walk_valid (checked : Nat) :
    (walk encoding prevHash checked log).isValid ↔ Linked encoding prevHash log := by
  induction log generalizing prevHash checked with
  | nil => simp [walk, Linked]
  | cons r rest ih =>
    unfold walk Linked
    split
    · rename_i broken
      simp [broken]
    · rename_i hashed
      split
      · rename_i broken
        simp [broken]
      · rename_i follows
        push Not at hashed follows
        simp [ih, ← hashed, follows]

theorem linked_append :
    Linked encoding prevHash (log ++ [r]) ↔
      Linked encoding prevHash log ∧ Linked encoding (lastHash prevHash log) [r] := by
  induction log generalizing prevHash with
  | nil => simp [Linked, lastHash]
  | cons first rest ih =>
    simp only [List.cons_append, Linked, ih, and_assoc]
    rfl

theorem Linked.take (linked : Linked encoding prevHash log) (k : Nat) :
    Linked encoding prevHash (log.take k) := by
  induction log generalizing prevHash k with
  | nil => simpa using linked
  | cons r rest ih =>
    cases k with
    | zero => trivial
    | succ k => exact ⟨linked.1, linked.2.1, ih linked.2.2 k⟩

variable (encoding) in
/-- Each row follows the one that was committed before it, and has started later. -/
structure Intact (log : AuditLog) : Prop where
  linked : Linked encoding "" log
  later : log.Pairwise (·.createdAt < ·.createdAt)

theorem Intact.verifies (intact : Intact encoding log) : Verifies encoding log := by
  intro limit records ordered
  have distinct : (log.map (·.createdAt)).Nodup :=
    (List.pairwise_map.mpr intact.later).imp fun before => ne_of_lt before
  have same : records = log := by
    refine ordered.1.eq_of_pairwise (fun a b inside inside' before after => ?_) ordered.2
      (intact.later.imp fun before => le_of_lt before)
    exact List.inj_on_of_nodup_map distinct (ordered.1.mem_iff.mp inside) inside'
      (le_antisymm before after)
  rw [same]
  exact (walk_valid 0).mpr (intact.linked.take limit)

/-! ## Runs -/

/-- Of rows that started one after the other, the last is the latest. -/
theorem fetchLastHash_eq (later : log.Pairwise (·.createdAt < ·.createdAt)) (tie : Nat) :
    fetchLastHash log tie = lastHash "" log := by
  rcases List.eq_nil_or_concat' log with rfl | ⟨before, r, rfl⟩
  · rfl
  · obtain ⟨-, -, earlier⟩ := List.pairwise_append.mp later
    have only : latest (before ++ [r]) = [r] := by
      have none_before : before.filter (fun a => (before ++ [r]).all fun other =>
          other.createdAt ≤ a.createdAt) = [] := by
        refine List.filter_eq_nil_iff.mpr fun a inside all => ?_
        have reached := List.all_eq_true.mp all r (by simp)
        simp only [decide_eq_true_eq] at reached
        exact absurd (earlier a inside r (by simp)) (not_lt.mpr reached)
      have last : (before ++ [r]).all fun other => other.createdAt ≤ r.createdAt := by
        refine List.all_eq_true.mpr fun other inside => ?_
        rcases List.mem_append.mp inside with first | only
        · simpa using le_of_lt (earlier other first r (by simp))
        · rw [List.mem_singleton.mp only]
          simp
      rw [latest, List.filter_append, none_before, List.filter_singleton, last]
      rfl
    simp [fetchLastHash, only, lastHash, Nat.mod_one]

/-- The hash that a writer has read is that of the rows that were there. -/
def Writer.Follows (encoding : Encoding) (log : AuditLog) (w : Writer) : Prop :=
  match w.stage with
  | .fetched _ rows prevHash => rows ≤ log.length ∧ prevHash = lastHash "" (log.take rows)
  | .inserted rows record => rows ≤ log.length ∧
      record = w.call.record encoding (lastHash "" (log.take rows)) record.createdAt
  | .called | .begun _ | .ended => True

theorem Writer.Follows.append {w : Writer} (follows : w.Follows encoding log) (r : AuditLogRecord) :
    w.Follows encoding (log ++ [r]) := by
  obtain ⟨call, stage⟩ := w
  cases stage with
  | called | begun | ended => trivial
  | fetched startedAt rows prevHash | inserted rows record =>
    obtain ⟨within, read⟩ := follows
    refine ⟨by simp only [List.length_append]; omega, ?_⟩
    rwa [List.take_append_of_le_length within]

/-- A writer commits in line: no row was committed since it has read the last hash,
its transaction has started after those of all rows, and its payload is read back
as it was hashed. -/
def Serial (encoding : Encoding) (log : AuditLog) (_others : List Writer) (w : Writer)
    (input : Input) : Prop :=
  match w.stage with
  | .inserted rows record => input.fails = false →
      rows = log.length ∧ (∀ r ∈ log, r.createdAt < record.createdAt) ∧
        encoding.dumps (encoding.jsonb w.call.payload) = encoding.dumps w.call.payload
  | _ => True

theorem Writer.advance_follows {w w' : Writer} {others : List Writer} {input : Input}
    {log' : AuditLog} (intact : Intact encoding log) (follows : w.Follows encoding log)
    (serial : Serial encoding log others w input)
    (advanced : w.advance encoding log others input = some (log', w')) :
    Intact encoding log' ∧ w'.Follows encoding log' ∧
      (log' = log ∨ ∃ r, log' = log ++ [r]) := by
  obtain ⟨call, stage⟩ := w
  unfold Writer.advance at advanced
  cases stage with
  | ended => cases advanced
  | called =>
    dsimp only at advanced
    split at advanced <;> cases advanced <;> exact ⟨intact, trivial, .inl rfl⟩
  | begun startedAt =>
    dsimp only at advanced
    split at advanced <;> cases advanced
    · exact ⟨intact, trivial, .inl rfl⟩
    · refine ⟨intact, ⟨le_refl _, ?_⟩, .inl rfl⟩
      rw [List.take_length, fetchLastHash_eq intact.later]
  | fetched startedAt rows prevHash =>
    obtain ⟨within, rfl⟩ := follows
    dsimp only at advanced
    split at advanced
    · cases advanced
      exact ⟨intact, trivial, .inl rfl⟩
    · split at advanced
      · cases advanced
      · split at advanced <;> cases advanced
        · exact ⟨intact, trivial, .inl rfl⟩
        · exact ⟨intact, ⟨within, rfl⟩, .inl rfl⟩
  | inserted rows record =>
    obtain ⟨within, inserted⟩ := follows
    dsimp only at advanced
    split at advanced
    · cases advanced
      exact ⟨intact, trivial, .inl rfl⟩
    · rename_i stays
      cases advanced
      obtain ⟨rfl, started, text⟩ := serial (by simpa using stays)
      rw [List.take_length] at inserted
      refine ⟨⟨linked_append.mpr ⟨intact.linked, ?_⟩, ?_⟩, trivial, .inr ⟨record, rfl⟩⟩
      · rw [inserted]
        exact ⟨congrArg (computeHash encoding · _) text.symm, rfl, trivial⟩
      · refine List.pairwise_append.mpr ⟨intact.later, List.pairwise_singleton _ _, ?_⟩
        intro r inside last only
        rw [List.mem_singleton.mp only]
        exact started r inside

/-- What writers that commit in line leave. -/
theorem intact_of_serial {calls : List AuditCall} {turns : List (Processes.Turn Input)}
    {final : Processes.State AuditLog Writer}
    (serial : (writers encoding).system.Along (Processes.When (Serial encoding))
      ⟨[], calls.map ({ call := · })⟩ turns)
    (ran : (writers encoding).system.run ⟨[], calls.map ({ call := · })⟩ turns = some final) :
    Intact encoding final.shared := by
  have kept : ∀ s turn next, Processes.Holds (Intact encoding) (fun log w => w.Follows encoding log)
      (fun _ _ => True) s → Processes.When (Serial encoding) s turn →
      (writers encoding).system.step s turn = some next → Processes.Holds (Intact encoding)
        (fun log w => w.Follows encoding log) (fun _ _ => True) next := by
    intro s turn next holds met stepped
    refine Processes.step_keeps (fun _ _ _ => trivial) ?_ holds met stepped
    intro log log' others w w' input intact follows rest inLine advanced
    obtain ⟨intact', follows', kept | ⟨r, grown⟩⟩ :=
      Writer.advance_follows intact follows inLine advanced
    · exact ⟨intact', follows', fun q inside => ⟨kept ▸ (rest q inside).1, trivial⟩⟩
    · refine ⟨intact', follows', fun q inside => ⟨?_, trivial⟩⟩
      rw [grown]
      exact (rest q inside).1.append r
  have holds := System.invariant_along kept serial ran ⟨⟨trivial, .nil⟩, ?_, ?_⟩
  · exact holds.shared
  · intro w member
    obtain ⟨call, -, rfl⟩ := List.mem_map.mp member
    trivial
  · exact List.pairwise_of_forall fun _ _ => trivial

/-- Writers that commit in line leave a log that verifies. -/
theorem verifies_of_serial {calls : List AuditCall} {turns : List (Processes.Turn Input)}
    {final : Processes.State AuditLog Writer}
    (serial : (writers encoding).system.Along (Processes.When (Serial encoding))
      ⟨[], calls.map ({ call := · })⟩ turns)
    (ran : (writers encoding).system.run ⟨[], calls.map ({ call := · })⟩ turns = some final) :
    Verifies encoding final.shared :=
  (intact_of_serial serial ran).verifies

/-! ## Two calls -/

instance (log : AuditLog) (others : List Writer) (w : Writer) (input : Input) :
    Decidable (Serial encoding log others w input) :=
  match w with
  | ⟨_, .inserted ..⟩ => inferInstanceAs (Decidable (_ = false → _))
  | ⟨_, .called⟩ | ⟨_, .begun _⟩ | ⟨_, .fetched ..⟩ | ⟨_, .ended⟩ => isTrue trivial

end Verifier

section TwoCalls

/-- The texts of an empty payload, and their hashes. -/
def emptyPayloads : Encoding where
  dumps _ := "{}"
  jsonb := id
  sha256 text := if text = "{}"
    then "44136fa355b3678a1146ad16f7e8649e94fb4fc21fe77e8310c060f61caaff8a"
    else "89d5d933ff358e3cba80d4c67181623e158df5cc4ff98f7cb9f210dc3ff33ec4"

def login (hex : String) : AuditCall := .insertAdminEvent "admin.login" "ops" "operator" none none hex

def twoLogins : Processes.State AuditLog Writer := ⟨[], [login "0", login "1"].map ({ call := · })⟩

/-- The turns of the two, each with the clock. -/
def atClock (turns : List (Nat × Datetime)) : List (Processes.Turn Input) :=
  turns.map fun (index, now) => ⟨index, { now }⟩

def oneAfterTheOther : List (Processes.Turn Input) :=
  atClock [(0, 1), (0, 1), (0, 2), (0, 2), (1, 3), (1, 3), (1, 4), (1, 4)]

def bothAtOnce : List (Processes.Turn Input) :=
  atClock [(0, 1), (1, 2), (0, 3), (1, 3), (0, 4), (0, 4), (1, 5), (1, 5)]

theorem verifies_oneAfterTheOther :
    ∃ final, (writers emptyPayloads).system.run twoLogins oneAfterTheOther = some final ∧
      final.shared.length = 2 ∧ Verifies emptyPayloads final.shared := by
  have stored : ((writers emptyPayloads).system.run twoLogins oneAfterTheOther).map
      (·.shared.length) = some 2 := by decide +kernel
  have serial : (writers emptyPayloads).system.Along (Processes.When (Serial emptyPayloads))
      twoLogins oneAfterTheOther := by decide +kernel
  obtain ⟨final, ran, length⟩ := Option.map_eq_some_iff.mp stored
  exact ⟨final, ran, length, verifies_of_serial serial ran⟩

/-- Both read the last hash before either inserts, and the second row follows none. -/
theorem forked_log_invalid :
    ∃ final, (writers emptyPayloads).system.run twoLogins bothAtOnce = some final ∧
      ¬ Verifies emptyPayloads final.shared := by
  have broken : ((writers emptyPayloads).system.run twoLogins bothAtOnce).map (fun s =>
      ((verify emptyPayloads 10000 s.shared).isValid, s.shared.map (·.createdAt))) =
        some (false, [1, 2]) := by decide +kernel
  obtain ⟨final, ran, invalid⟩ := Option.map_eq_some_iff.mp broken
  obtain ⟨unverified, times⟩ := Prod.mk.inj invalid
  refine ⟨final, ran, fun verifies => ?_⟩
  have ordered : InOrder final.shared final.shared := by
    have increasing : (final.shared.map (·.createdAt)).Pairwise (· ≤ ·) := by
      rw [times]
      decide
    exact ⟨.refl _, List.pairwise_map.mp increasing⟩
  rw [verifies 10000 final.shared ordered] at unverified
  cases unverified

end TwoCalls

end MiniHedge.Audit
