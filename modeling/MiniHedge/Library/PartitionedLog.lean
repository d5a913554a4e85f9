import Mathlib.Data.List.Nodup

/-! Consumers of a partitioned log that is read in order and never changed.

A consumer has a position in each partition and a position that is committed,
from which it resumes. What has been delivered is settled, outstanding, or will
be delivered again: so it is settled once its offset is committed, provided that
nothing is outstanding when positions are committed.
-/

set_option autoImplicit false

namespace MiniHedge.Library

variable {M : Type}

structure Partition (M : Type) where
  log : List M := []
  position : Nat := 0
  committed : Option Nat := none
  deriving DecidableEq, Repr

structure Delivery (M : Type) where
  partition : Nat
  offset : Nat
  message : M
  deriving DecidableEq, Repr

abbrev Topic (M : Type) := List (Partition M)

/-! ## Operations -/

namespace Partition

variable (p : Partition M)

def append (message : M) : Partition M := { p with log := p.log ++ [message] }

def commit : Partition M := { p with committed := some p.position }

/-- Without a committed position, the consumer resumes at the end. -/
def resume : Partition M := { p with position := p.committed.getD p.log.length }

/-- Without a committed position, the consumer resumes at the start. -/
def rewind : Partition M := { p with position := p.committed.getD 0 }

/-- The next messages, `count` at most. -/
def records (i count : Nat) : List (Delivery M) :=
  ((p.log.drop p.position).take count).mapIdx fun j message => ⟨i, p.position + j, message⟩

def advance (count : Nat) : Partition M :=
  { p with position := p.position + ((p.log.drop p.position).take count).length }

end Partition

namespace Topic

variable (topic : Topic M)

/-- The next batch, of so many messages from each partition in this order. -/
def poll : Topic M → List (Nat × Nat) → Topic M × List (Delivery M)
  | topic, [] => (topic, [])
  | topic, (i, count) :: rest =>
    match topic[i]? with
    | none => poll topic rest
    | some p =>
      let (topic', batch) := poll (topic.set i (p.advance count)) rest
      (topic', p.records i count ++ batch)

def append (i : Nat) (message : M) : Topic M := topic.modify i (·.append message)

def commit : Topic M := topic.map (·.commit)

def resume (partitions : List Nat) : Topic M :=
  topic.mapIdx fun i p => if i ∈ partitions then p.resume else p

def rewind (partitions : List Nat) : Topic M :=
  topic.mapIdx fun i p => if i ∈ partitions then p.rewind else p

/-- The offset is not below the committed position. -/
def Ahead (d : Delivery M) : Prop :=
  ∀ p : Partition M, topic[d.partition]? = some p → ∀ committed ∈ p.committed, committed ≤ d.offset

/-- The message will be delivered again. -/
def Upcoming (d : Delivery M) : Prop :=
  ∀ p : Partition M, topic[d.partition]? = some p → p.position ≤ d.offset

def Recorded (d : Delivery M) : Prop :=
  ∀ p : Partition M, topic[d.partition]? = some p → p.log[d.offset]? = some d.message

/-- No partition is committed beyond its position. -/
def Behind : Prop :=
  ∀ (i : Nat) (p : Partition M), topic[i]? = some p → ∀ committed ∈ p.committed, committed ≤ p.position

end Topic

/-! ## One batch -/

section Poll

variable {p : Partition M} {topic : Topic M}

theorem Partition.mem_records {i count : Nat} {d : Delivery M} (member : d ∈ p.records i count) :
    d.partition = i ∧ p.position ≤ d.offset ∧ p.log[d.offset]? = some d.message := by
  obtain ⟨j, inside, rfl⟩ := List.mem_mapIdx.mp member
  refine ⟨rfl, Nat.le_add_right _ _, ?_⟩
  rw [List.length_take, List.length_drop] at inside
  have within : p.position + j < p.log.length := by omega
  simp [List.getElem?_eq_getElem within]

/-- What the position moves past is delivered. -/
theorem Partition.records_complete {i count : Nat} {d : Delivery M} (own : d.partition = i)
    (recorded : p.log[d.offset]? = some d.message) (upcoming : p.position ≤ d.offset)
    (passed : d.offset < (p.advance count).position) : d ∈ p.records i count := by
  obtain ⟨partition, offset, message⟩ := d
  obtain rfl : partition = i := own
  obtain ⟨j, rfl⟩ : ∃ j, offset = p.position + j := ⟨offset - p.position, by
    dsimp only at upcoming
    omega⟩
  have inside : j < ((p.log.drop p.position).take count).length := by
    simp only [Partition.advance] at passed
    omega
  refine List.mem_mapIdx.mpr ⟨j, inside, ?_⟩
  obtain ⟨within, same⟩ := List.getElem?_eq_some_iff.mp recorded
  simpa using same

namespace Topic

/-- The same partitions, at other positions. -/
def Moved (topic topic' : Topic M) : Prop :=
  topic'.map (fun p => (p.log, p.committed)) = topic.map fun p => (p.log, p.committed)

variable {topic topic' topic₁ topic₂ : Topic M}

theorem Moved.symm (moved : Moved topic topic') : Moved topic' topic := Eq.symm moved

theorem Moved.back (moved : Moved topic topic') {i : Nat} {p' : Partition M}
    (found : topic'[i]? = some p') :
    ∃ p : Partition M, topic[i]? = some p ∧ p'.log = p.log ∧ p'.committed = p.committed := by
  have same := congrArg (fun entries : List (List M × Option Nat) => entries[i]?) moved
  simp only [List.getElem?_map, found, Option.map_some] at same
  obtain ⟨p, at_i, fits⟩ := Option.map_eq_some_iff.mp same.symm
  obtain ⟨log, committed⟩ := Prod.mk.inj fits
  exact ⟨p, at_i, log.symm, committed.symm⟩

theorem Moved.recorded (moved : Moved topic topic') {d : Delivery M} (recorded : topic.Recorded d) :
    topic'.Recorded d := by
  intro p' at_d
  obtain ⟨p, found, log, -⟩ := moved.back at_d
  rw [log]
  exact recorded p found

theorem Moved.ahead (moved : Moved topic topic') {d : Delivery M} (ahead : topic.Ahead d) :
    topic'.Ahead d := by
  intro p' at_d committed held
  obtain ⟨p, found, -, same⟩ := moved.back at_d
  exact ahead p found committed (same ▸ held)

structure Polled (topic topic' : Topic M) (batch : List (Delivery M)) : Prop where
  moved : Moved topic topic'
  behind : topic.Behind → topic'.Behind
  ahead : topic.Behind → ∀ d ∈ batch, topic.Ahead d
  recorded : ∀ d ∈ batch, topic.Recorded d
  complete : ∀ d, topic.Recorded d → topic.Upcoming d → topic'.Upcoming d ∨ d ∈ batch

theorem polled_advance {i count : Nat} (found : topic[i]? = some p) :
    Polled topic (topic.set i (p.advance count)) (p.records i count) := by
  obtain ⟨inside, at_i⟩ := List.getElem?_eq_some_iff.mp found
  have lookup : ∀ (j : Nat) (p' : Partition M), (topic.set i (p.advance count))[j]? = some p' →
      (j = i ∧ p' = p.advance count) ∨ (j ≠ i ∧ topic[j]? = some p') := by
    intro j p' at_j
    by_cases same : i = j
    · subst same
      rw [List.getElem?_set_self inside] at at_j
      exact .inl ⟨rfl, (Option.some.inj at_j).symm⟩
    · rw [List.getElem?_set_ne same] at at_j
      exact .inr ⟨Ne.symm same, at_j⟩
  refine ⟨?_, fun behind j p' at_j committed held => ?_,
    fun behind d member q at_d committed held => ?_, fun d member q at_d => ?_,
    fun d recorded upcoming => ?_⟩
  · have within : i < (topic.map fun p => (p.log, p.committed)).length := by simpa using inside
    have kept : ((p.advance count).log, (p.advance count).committed) =
        (topic.map fun p => (p.log, p.committed))[i] := by
      simp [at_i, Partition.advance]
    rw [Moved, List.map_set, kept, List.set_getElem_self]
  · rcases lookup j p' at_j with ⟨rfl, rfl⟩ | ⟨-, before⟩
    · exact Nat.le_trans (behind j p found committed held) (Nat.le_add_right _ _)
    · exact behind j p' before committed held
  · obtain ⟨rfl, at_least, -⟩ := Partition.mem_records member
    obtain rfl := Option.some.inj (found.symm.trans at_d)
    exact Nat.le_trans (behind d.partition p found committed held) at_least
  · obtain ⟨rfl, -, recorded⟩ := Partition.mem_records member
    obtain rfl := Option.some.inj (found.symm.trans at_d)
    exact recorded
  · by_cases own : d.partition = i
    · subst own
      by_cases passed : d.offset < (p.advance count).position
      · exact .inr (Partition.records_complete rfl (recorded p found) (upcoming p found) passed)
      · refine .inl fun p' at_d => ?_
        rcases lookup _ p' at_d with ⟨-, rfl⟩ | ⟨other, -⟩
        · exact Nat.not_lt.mp passed
        · exact absurd rfl other
    · refine .inl fun p' at_d => ?_
      rcases lookup _ p' at_d with ⟨same, -⟩ | ⟨-, before⟩
      · exact absurd same own
      · exact upcoming p' before

theorem Polled.trans {first rest : List (Delivery M)} (left : Polled topic topic₁ first)
    (right : Polled topic₁ topic₂ rest) : Polled topic topic₂ (first ++ rest) where
  moved := Eq.trans right.moved left.moved
  behind behind := right.behind (left.behind behind)
  ahead behind d member := by
    rcases List.mem_append.mp member with early | late
    · exact left.ahead behind d early
    · exact left.moved.symm.ahead (right.ahead (left.behind behind) d late)
  recorded d member := by
    rcases List.mem_append.mp member with early | late
    · exact left.recorded d early
    · exact left.moved.symm.recorded (right.recorded d late)
  complete d recorded upcoming := by
    rcases left.complete d recorded upcoming with later | early
    · rcases right.complete d (left.moved.recorded recorded) later with later | late
      · exact .inl later
      · exact .inr (List.mem_append_right _ late)
    · exact .inr (List.mem_append_left _ early)

theorem poll_polled (topic : Topic M) (taken : List (Nat × Nat)) :
    Polled topic (topic.poll taken).1 (topic.poll taken).2 := by
  induction taken generalizing topic with
  | nil =>
    exact ⟨rfl, id, fun _ d member => absurd member List.not_mem_nil,
      fun d member => absurd member List.not_mem_nil, fun d _ upcoming => .inl upcoming⟩
  | cons next rest ih =>
    obtain ⟨i, count⟩ := next
    unfold poll
    split
    · exact ih topic
    · rename_i p found
      exact (polled_advance found).trans (ih _)

/-- A batch is of the partitions that it is taken from. -/
theorem poll_taken (topic : Topic M) (taken : List (Nat × Nat)) :
    ∀ d ∈ (topic.poll taken).2, ∃ entry ∈ taken, entry.1 = d.partition := by
  induction taken generalizing topic with
  | nil => exact fun d member => absurd member List.not_mem_nil
  | cons next rest ih =>
    obtain ⟨i, count⟩ := next
    intro d member
    unfold poll at member
    split at member
    · obtain ⟨entry, inside, same⟩ := ih topic d member
      exact ⟨entry, List.mem_cons_of_mem _ inside, same⟩
    · rename_i p found
      rcases List.mem_append.mp member with early | late
      · exact ⟨_, List.mem_cons_self, (Partition.mem_records early).1.symm⟩
      · obtain ⟨entry, inside, same⟩ := ih _ d late
        exact ⟨entry, List.mem_cons_of_mem _ inside, same⟩

/-- What a poll moves past is in its batch. -/
theorem poll_passed (taken : List (Nat × Nat)) {i offset : Nat} {message : M} {p' : Partition M}
    (at_i : topic[i]? = some p) (moved : (topic.poll taken).1[i]? = some p')
    (recorded : p.log[offset]? = some message) (beyond : p.position ≤ offset)
    (passed : offset < p'.position) : ⟨i, offset, message⟩ ∈ (topic.poll taken).2 := by
  have polled := poll_polled topic taken
  have known : topic.Recorded ⟨i, offset, message⟩ := fun q at_q => by
    cases at_i.symm.trans at_q
    exact recorded
  have upcoming : topic.Upcoming ⟨i, offset, message⟩ := fun q at_q => by
    cases at_i.symm.trans at_q
    exact beyond
  rcases polled.complete _ known upcoming with later | batch
  · exact absurd passed (Nat.not_lt.mpr (later p' moved))
  · exact batch

/-- A poll does not move past the end of a partition, unless the position is there already. -/
theorem poll_inside {base : Nat → Nat} (taken : List (Nat × Nat))
    (inside : ∀ (i : Nat) (p : Partition M), topic[i]? = some p →
      p.position ≤ base i ∨ p.position ≤ p.log.length) :
    ∀ (i : Nat) (p : Partition M), (topic.poll taken).1[i]? = some p →
      p.position ≤ base i ∨ p.position ≤ p.log.length := by
  induction taken generalizing topic with
  | nil => exact inside
  | cons next rest ih =>
    obtain ⟨i, count⟩ := next
    unfold poll
    split
    · exact ih inside
    · rename_i p found
      refine ih fun j q at_j => ?_
      rw [List.getElem?_set] at at_j
      split at at_j
      · rename_i same
        subst same
        split at at_j
        · cases at_j
          have moved : ((p.log.drop p.position).take count).length ≤ p.log.length - p.position := by
            rw [List.length_take, List.length_drop]
            exact Nat.min_le_right _ _
          change p.position + ((p.log.drop p.position).take count).length ≤ base i ∨
            p.position + ((p.log.drop p.position).take count).length ≤ p.log.length
          rcases inside i p found with early | within
          · omega
          · omega
        · cases at_j
      · exact inside j q at_j

/-- What holds of all messages holds of those that are delivered. -/
theorem poll_forall {holds : M → Prop} {topic : Topic M}
    (each : ∀ p ∈ topic, ∀ message ∈ p.log, holds message) (taken : List (Nat × Nat)) :
    ∀ d ∈ (topic.poll taken).2, holds d.message := by
  induction taken generalizing topic with
  | nil => exact fun d member => absurd member List.not_mem_nil
  | cons next rest ih =>
    obtain ⟨i, count⟩ := next
    unfold poll
    split
    · exact ih each
    · rename_i p found
      have inside := List.mem_of_getElem? found
      intro d member
      rcases List.mem_append.mp member with early | late
      · obtain ⟨-, -, recorded⟩ := Partition.mem_records early
        exact each p inside _ (List.mem_of_getElem? recorded)
      · refine ih (fun q member => ?_) d late
        rcases List.mem_or_eq_of_mem_set member with before | rfl
        · exact each q before
        · exact each p inside

theorem append_forall {holds : M → Prop} (each : ∀ p ∈ topic, ∀ message ∈ p.log, holds message)
    {message : M} (own : holds message) (i : Nat) :
    ∀ p ∈ topic.append i message, ∀ other ∈ p.log, holds other := by
  intro p' member other inside
  obtain ⟨j, found⟩ := List.getElem?_of_mem member
  rw [Topic.append, List.getElem?_modify] at found
  obtain ⟨p, before, rfl⟩ := Option.map_eq_some_iff.mp found
  have held := each p (List.mem_of_getElem? before)
  by_cases same : i = j
  · rw [if_pos same] at inside
    rcases List.mem_append.mp inside with earlier | last
    · exact held other earlier
    · rw [List.mem_singleton.mp last]
      exact own
  · rw [if_neg same] at inside
    exact held other inside

theorem commit_forall {holds : M → Prop} (each : ∀ p ∈ topic, ∀ message ∈ p.log, holds message) :
    ∀ p ∈ topic.commit, ∀ message ∈ p.log, holds message := by
  intro p' member
  obtain ⟨p, inside, rfl⟩ := List.mem_map.mp member
  exact each p inside

theorem rewind_forall {holds : M → Prop} (each : ∀ p ∈ topic, ∀ message ∈ p.log, holds message)
    (partitions : List Nat) : ∀ p ∈ topic.rewind partitions, ∀ message ∈ p.log, holds message := by
  intro p' member
  obtain ⟨i, inside, rfl⟩ := List.mem_mapIdx.mp member
  have held := each _ (List.getElem_mem inside)
  split
  · exact held
  · exact held

/-! ## What has been delivered -/

/-- What is delivered is settled, outstanding or upcoming, and nothing outstanding is
committed. -/
structure Covers (topic : Topic M) (delivered outstanding : List (Delivery M))
    (settled : Delivery M → Prop) : Prop where
  behind : topic.Behind
  recorded : ∀ d ∈ delivered, topic.Recorded d
  ahead : ∀ d ∈ outstanding, topic.Ahead d
  covered : ∀ d ∈ delivered, settled d ∨ d ∈ outstanding ∨ topic.Upcoming d

variable {delivered outstanding : List (Delivery M)} {settled : Delivery M → Prop}

/-- What is delivered and committed is settled. -/
theorem Covers.settled_of_committed (covers : Covers topic delivered outstanding settled) {d : Delivery M}
    (member : d ∈ delivered) {p : Partition M} (found : topic[d.partition]? = some p)
    {committed : Nat} (held : committed ∈ p.committed) (passed : d.offset < committed) :
    settled d := by
  rcases covers.covered d member with done | waiting | upcoming
  · exact done
  · exact absurd (covers.ahead d waiting p found committed held) (Nat.not_le.mpr passed)
  · have behind := covers.behind d.partition p found committed held
    exact absurd (Nat.le_trans behind (upcoming p found)) (Nat.not_le.mpr passed)

/-- Something else is outstanding, as much is settled. -/
theorem Covers.settle (covers : Covers topic delivered outstanding settled)
    {outstanding' : List (Delivery M)} {settled' : Delivery M → Prop}
    (subset : outstanding' ⊆ outstanding) (still : ∀ d, settled d → settled' d)
    (removed : ∀ d ∈ outstanding, settled' d ∨ d ∈ outstanding') :
    Covers topic delivered outstanding' settled' where
  behind := covers.behind
  recorded := covers.recorded
  ahead d member := covers.ahead d (subset member)
  covered d member := by
    rcases covers.covered d member with done | waiting | upcoming
    · exact .inl (still d done)
    · exact (removed d waiting).imp id .inl
    · exact .inr (.inr upcoming)

theorem Covers.poll (covers : Covers topic delivered outstanding settled)
    (taken : List (Nat × Nat)) :
    Covers (topic.poll taken).1 (delivered ++ (topic.poll taken).2)
      (outstanding ++ (topic.poll taken).2) settled := by
  have polled := poll_polled topic taken
  refine ⟨polled.behind covers.behind, fun d member => ?_, fun d member => ?_, fun d member => ?_⟩
  · rcases List.mem_append.mp member with before | batch
    · exact polled.moved.recorded (covers.recorded d before)
    · exact polled.moved.recorded (polled.recorded d batch)
  · rcases List.mem_append.mp member with before | batch
    · exact polled.moved.ahead (covers.ahead d before)
    · exact polled.moved.ahead (polled.ahead covers.behind d batch)
  · rcases List.mem_append.mp member with before | batch
    · rcases covers.covered d before with done | waiting | upcoming
      · exact .inl done
      · exact .inr (.inl (List.mem_append_left _ waiting))
      · rcases polled.complete d (covers.recorded d before) upcoming with later | batch
        · exact .inr (.inr later)
        · exact .inr (.inl (List.mem_append_right _ batch))
    · exact .inr (.inl (List.mem_append_right _ batch))

theorem Covers.commit (covers : Covers topic delivered [] settled) :
    Covers topic.commit delivered [] settled := by
  have lookup : ∀ (i : Nat) (p' : Partition M), topic.commit[i]? = some p' →
      ∃ p : Partition M, topic[i]? = some p ∧ p' = p.commit := by
    intro i p' found
    rw [Topic.commit, List.getElem?_map] at found
    obtain ⟨p, at_i, rfl⟩ := Option.map_eq_some_iff.mp found
    exact ⟨p, at_i, rfl⟩
  refine ⟨fun i p' found committed held => ?_, fun d member p' found => ?_,
    fun d member => absurd member List.not_mem_nil, fun d member => ?_⟩
  · obtain ⟨p, -, rfl⟩ := lookup i p' found
    cases held
    exact Nat.le_refl _
  · obtain ⟨p, at_d, rfl⟩ := lookup _ p' found
    exact covers.recorded d member p at_d
  · rcases covers.covered d member with done | waiting | upcoming
    · exact .inl done
    · cases waiting
    · refine .inr (.inr fun p' found => ?_)
      obtain ⟨p, at_d, rfl⟩ := lookup _ p' found
      exact upcoming p at_d

theorem append_lookup {i j : Nat} {message : M} {p' : Partition M}
    (found : (topic.append i message)[j]? = some p') :
    ∃ p : Partition M, topic[j]? = some p ∧ p'.position = p.position ∧
      p'.committed = p.committed ∧ (p'.log = p.log ∨ p'.log = p.log ++ [message]) := by
  rw [Topic.append, List.getElem?_modify] at found
  obtain ⟨p, at_j, rfl⟩ := Option.map_eq_some_iff.mp found
  by_cases same : i = j
  · exact ⟨p, at_j, by simp [same, Partition.append]⟩
  · exact ⟨p, at_j, by simp [same]⟩

theorem Covers.append (covers : Covers topic delivered outstanding settled) (i : Nat) (message : M) :
    Covers (topic.append i message) delivered outstanding settled := by
  refine ⟨fun j p' found committed held => ?_, fun d member p' found => ?_,
    fun d member p' found committed held => ?_, fun d member => ?_⟩
  · obtain ⟨p, at_j, position, same, -⟩ := append_lookup found
    rw [position]
    exact covers.behind j p at_j committed (same ▸ held)
  · obtain ⟨p, at_d, -, -, log⟩ := append_lookup found
    have before := covers.recorded d member p at_d
    rcases log with same | grown
    · rw [same]
      exact before
    · rw [grown, List.getElem?_append_left (List.getElem?_eq_some_iff.mp before).1]
      exact before
  · obtain ⟨p, at_d, -, same, -⟩ := append_lookup found
    exact covers.ahead d member p at_d committed (same ▸ held)
  · rcases covers.covered d member with done | waiting | upcoming
    · exact .inl done
    · exact .inr (.inl waiting)
    · refine .inr (.inr fun p' found => ?_)
      obtain ⟨p, at_d, position, -, -⟩ := append_lookup found
      rw [position]
      exact upcoming p at_d

theorem resume_lookup {partitions : List Nat} {i : Nat} {p' : Partition M}
    (found : (topic.resume partitions)[i]? = some p') :
    ∃ p : Partition M, topic[i]? = some p ∧ p'.log = p.log ∧ p'.committed = p.committed ∧
      p' = if i ∈ partitions then p.resume else p := by
  rw [Topic.resume, List.getElem?_mapIdx] at found
  obtain ⟨p, at_i, rfl⟩ := Option.map_eq_some_iff.mp found
  refine ⟨p, at_i, ?_, ?_, rfl⟩ <;> split <;> rfl

theorem behind_resume_all (topic : Topic M) : (topic.resume (List.range topic.length)).Behind := by
  intro i p' found committed held
  obtain ⟨p, at_i, -, same, rfl⟩ := resume_lookup found
  have inside : i ∈ List.range topic.length :=
    List.mem_range.mpr (List.getElem?_eq_some_iff.mp at_i).1
  rw [same] at held
  simp [inside, Partition.resume, Option.mem_def.mp held]

/-- A consumer that resumes starts over from what is committed. Where nothing is,
nothing may have been delivered. -/
theorem Covers.resume (covers : Covers topic delivered outstanding settled)
    {partitions : List Nat} (known : ∀ d ∈ delivered, d.partition ∈ partitions →
      ∀ p : Partition M, topic[d.partition]? = some p → p.committed ≠ none) :
    Covers (topic.resume partitions) delivered outstanding settled := by
  refine ⟨fun i p' found committed held => ?_, fun d member p' found => ?_,
    fun d member p' found committed held => ?_, fun d member => ?_⟩
  · obtain ⟨p, at_i, -, same, rfl⟩ := resume_lookup found
    rw [same] at held
    have at_most := covers.behind i p at_i committed held
    split
    · simp [Partition.resume, Option.mem_def.mp held]
    · exact at_most
  · obtain ⟨p, at_d, log, -, -⟩ := resume_lookup found
    rw [log]
    exact covers.recorded d member p at_d
  · obtain ⟨p, at_d, -, same, -⟩ := resume_lookup found
    exact covers.ahead d member p at_d committed (same ▸ held)
  · rcases covers.covered d member with done | waiting | upcoming
    · exact .inl done
    · exact .inr (.inl waiting)
    · refine .inr (.inr fun p' found => ?_)
      obtain ⟨p, at_d, -, -, rfl⟩ := resume_lookup found
      split
      · rename_i resumed
        obtain ⟨committed, held⟩ := Option.ne_none_iff_exists'.mp (known d member resumed p at_d)
        have at_most := covers.behind _ p at_d committed held
        simpa [Partition.resume, held] using Nat.le_trans at_most (upcoming p at_d)
      · exact upcoming p at_d

/-- When all partitions are resumed, what is outstanding is delivered again. -/
theorem Covers.restart (covers : Covers topic delivered outstanding settled)
    (known : ∀ d ∈ delivered, ∀ p : Partition M, topic[d.partition]? = some p →
      p.committed ≠ none) :
    Covers (topic.resume (List.range topic.length)) delivered [] settled := by
  have resumed := covers.resume fun d member (_ : d.partition ∈ List.range topic.length) =>
    known d member
  refine ⟨resumed.behind, resumed.recorded, fun d member => absurd member List.not_mem_nil,
    fun d member => ?_⟩
  rcases resumed.covered d member with done | waiting | upcoming
  · exact .inl done
  · refine .inr (.inr fun p' found => ?_)
    obtain ⟨p, at_d, -, same, rfl⟩ := resume_lookup found
    obtain ⟨committed, held⟩ := Option.ne_none_iff_exists'.mp (known d member p at_d)
    have inside : d.partition ∈ List.range topic.length :=
      List.mem_range.mpr (List.getElem?_eq_some_iff.mp at_d).1
    have at_most := resumed.ahead d waiting _ found committed (same.trans held)
    simpa [inside, Partition.resume, held] using at_most
  · exact .inr (.inr upcoming)

theorem rewind_lookup {partitions : List Nat} {i : Nat} {p' : Partition M}
    (found : (topic.rewind partitions)[i]? = some p') :
    ∃ p : Partition M, topic[i]? = some p ∧ p'.log = p.log ∧ p'.committed = p.committed ∧
      p' = if i ∈ partitions then p.rewind else p := by
  rw [Topic.rewind, List.getElem?_mapIdx] at found
  obtain ⟨p, at_i, rfl⟩ := Option.map_eq_some_iff.mp found
  refine ⟨p, at_i, ?_, ?_, rfl⟩ <;> split <;> rfl

theorem behind_rewind_all (topic : Topic M) : (topic.rewind (List.range topic.length)).Behind := by
  intro i p' found committed held
  obtain ⟨p, at_i, -, same, rfl⟩ := rewind_lookup found
  have inside : i ∈ List.range topic.length :=
    List.mem_range.mpr (List.getElem?_eq_some_iff.mp at_i).1
  rw [same] at held
  simp [inside, Partition.rewind, Option.mem_def.mp held]

/-- A consumer that rewinds does not move past anything. -/
theorem rewind_le (behind : topic.Behind) {partitions : List Nat} {i : Nat} {p p' : Partition M}
    (at_i : topic[i]? = some p) (found : (topic.rewind partitions)[i]? = some p') :
    p'.position ≤ p.position := by
  obtain ⟨q, before, -, -, rfl⟩ := rewind_lookup found
  obtain rfl := Option.some.inj (at_i.symm.trans before)
  split
  · cases held : p.committed with
    | none => simp [Partition.rewind, held]
    | some committed => simpa [Partition.rewind, held] using behind i p at_i committed held
  · exact Nat.le_refl _

theorem Covers.rewind (covers : Covers topic delivered outstanding settled)
    (partitions : List Nat) : Covers (topic.rewind partitions) delivered outstanding settled := by
  refine ⟨fun i p' found committed held => ?_, fun d member p' found => ?_,
    fun d member p' found committed held => ?_, fun d member => ?_⟩
  · obtain ⟨p, at_i, -, same, rfl⟩ := rewind_lookup found
    rw [same] at held
    split
    · simp [Partition.rewind, Option.mem_def.mp held]
    · exact covers.behind i p at_i committed held
  · obtain ⟨p, at_d, log, -, -⟩ := rewind_lookup found
    rw [log]
    exact covers.recorded d member p at_d
  · obtain ⟨p, at_d, -, same, -⟩ := rewind_lookup found
    exact covers.ahead d member p at_d committed (same ▸ held)
  · rcases covers.covered d member with done | waiting | upcoming
    · exact .inl done
    · exact .inr (.inl waiting)
    · refine .inr (.inr fun p' found => ?_)
      obtain ⟨p, at_d, -, -, -⟩ := rewind_lookup found
      exact Nat.le_trans (rewind_le covers.behind at_d found) (upcoming p at_d)

/-- When all partitions are rewound, what is outstanding is delivered again. -/
theorem Covers.startOver (covers : Covers topic delivered outstanding settled) :
    Covers (topic.rewind (List.range topic.length)) delivered [] settled := by
  have rewound := covers.rewind (List.range topic.length)
  refine ⟨rewound.behind, rewound.recorded, fun d member => absurd member List.not_mem_nil,
    fun d member => ?_⟩
  rcases rewound.covered d member with done | waiting | upcoming
  · exact .inl done
  · refine .inr (.inr fun p' found => ?_)
    have ahead := rewound.ahead d waiting p' found
    obtain ⟨p, at_d, -, same, rfl⟩ := rewind_lookup found
    have inside : d.partition ∈ List.range topic.length :=
      List.mem_range.mpr (List.getElem?_eq_some_iff.mp at_d).1
    rw [same] at ahead
    cases held : p.committed with
    | none => simp [inside, Partition.rewind, held]
    | some committed => simpa [inside, Partition.rewind, held] using ahead committed held
  · exact .inr (.inr upcoming)

/-! ## What is past -/

/-- The position is beyond the message. -/
def Past (topic : Topic M) (d : Delivery M) : Prop :=
  ∀ p : Partition M, topic[d.partition]? = some p → d.offset < p.position

/-- A consumer that rewinds does not go back to the message. -/
def NotReread (topic : Topic M) (partitions : List Nat) (d : Delivery M) : Prop :=
  d.partition ∈ partitions → ∀ p ∈ topic[d.partition]?, d.offset < p.committed.getD 0

instance (topic : Topic M) (partitions : List Nat) (d : Delivery M) :
    Decidable (topic.NotReread partitions d) :=
  inferInstanceAs (Decidable (_ → _))

variable {d : Delivery M}

theorem Past.append (past : topic.Past d) (i : Nat) (message : M) : (topic.append i message).Past d := by
  intro p' found
  obtain ⟨p, at_d, position, -⟩ := append_lookup found
  rw [position]
  exact past p at_d

theorem Past.commit (past : topic.Past d) : topic.commit.Past d := by
  intro p' found
  rw [Topic.commit, List.getElem?_map] at found
  obtain ⟨p, at_d, rfl⟩ := Option.map_eq_some_iff.mp found
  exact past p at_d

theorem Past.rewind (past : topic.Past d) {partitions : List Nat} (kept : topic.NotReread partitions d) :
    (topic.rewind partitions).Past d := by
  intro p' found
  obtain ⟨p, at_d, -, -, rfl⟩ := rewind_lookup found
  split
  · rename_i inside
    exact kept inside p at_d
  · exact past p at_d

/-- A poll reads on: it delivers nothing that is past, and nothing twice. -/
theorem poll_reads (topic : Topic M) (taken : List (Nat × Nat)) :
    (∀ d, topic.Past d → (topic.poll taken).1.Past d) ∧
      (∀ d ∈ (topic.poll taken).2, ¬ topic.Past d ∧ (topic.poll taken).1.Past d) ∧
        (topic.poll taken).2.Nodup := by
  induction taken generalizing topic with
  | nil => exact ⟨fun _ past => past, fun d member => absurd member List.not_mem_nil, List.nodup_nil⟩
  | cons next rest ih =>
    obtain ⟨i, count⟩ := next
    unfold poll
    split
    · exact ih topic
    · rename_i p found
      obtain ⟨still, read, distinct⟩ := ih (topic.set i (p.advance count))
      have inside := (List.getElem?_eq_some_iff.mp found).1
      have moves : ∀ d, topic.Past d → Topic.Past (topic.set i (p.advance count)) d := by
        intro d past q at_d
        rw [List.getElem?_set] at at_d
        split at at_d
        · rename_i own
          subst own
          obtain rfl := Option.some.inj at_d
          exact Nat.lt_of_lt_of_le (past p found) (Nat.le_add_right _ _)
        · exact past q at_d
      have records : ∀ d ∈ p.records i count, ¬ topic.Past d ∧ Topic.Past (topic.set i (p.advance count)) d := by
        intro d member
        obtain ⟨j, within, rfl⟩ := List.mem_mapIdx.mp member
        refine ⟨fun past => ?_, fun q at_d => ?_⟩
        · exact absurd (past p found) (Nat.not_lt.mpr (Nat.le_add_right _ _))
        · dsimp only at at_d
          rw [List.getElem?_set_self inside] at at_d
          obtain rfl := Option.some.inj at_d
          exact Nat.add_lt_add_left within p.position
      refine ⟨fun d past => still d (moves d past), fun d member => ?_, ?_⟩
      · rcases List.mem_append.mp member with early | late
        · exact ⟨(records d early).1, still d (records d early).2⟩
        · exact ⟨fun past => (read d late).1 (moves d past), (read d late).2⟩
      · refine List.nodup_append.mpr ⟨?_, distinct, fun d early other late same => ?_⟩
        · unfold Partition.records
          rw [List.nodup_iff_getElem?_ne_getElem?]
          intro a b before bound same
          rw [List.length_mapIdx] at bound
          simp [List.getElem?_mapIdx, List.getElem?_eq_getElem bound,
            List.getElem?_eq_getElem (Nat.lt_trans before bound)] at same
          omega
        · subst same
          exact (read d late).1 (records d early).2

end Topic

end Poll

end MiniHedge.Library
