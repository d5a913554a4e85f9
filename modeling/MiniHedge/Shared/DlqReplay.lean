import MiniHedge.Library.PartitionedLog
import MiniHedge.Library.Transition
import Mathlib.Algebra.GroupWithZero.Nat
import Mathlib.Logic.Function.Basic
import Mathlib.Order.Lattice

/-! `DlqManager.replay`: calls that move the dead letters of a topic back.

The calls are consumers of one group, and may overlap: a partition is assigned
to one of them at a time, which reads it from the committed offset on. A message
that `send` accepts is in a buffer, from where it is acknowledged or lost; the
producer writes out the buffer before it stops.
-/

set_option autoImplicit false

namespace MiniHedge.Shared

open MiniHedge.Library

/-- What is sent on of a message. -/
structure ConsumerRecord where
  key : Option String
  value : Option String
  deriving DecidableEq, Repr

inductive ReplayStage where
  | polling
  | sending
  /-- In the `finally` block. -/
  | stopping
  | returned
  deriving DecidableEq, Repr

structure ReplayCall where
  limit : Nat
  stage : ReplayStage := .polling
  batch : List (Delivery ConsumerRecord) := []
  rest : List (Delivery ConsumerRecord) := []
  buffered : List (Delivery ConsumerRecord) := []
  replayed : Nat := 0
  failed : Nat := 0
  -- the calls that had returned before, and where the partitions were committed
  after : List Nat := []
  floor : List Nat := []
  -- what was sent, and what has been acknowledged
  sent : List (Delivery ConsumerRecord) := []
  acked : List (Delivery ConsumerRecord) := []
  deriving DecidableEq, Repr

/-- The dead letters, the calls, and the call that each partition is assigned to. -/
structure Replays where
  topic : Topic ConsumerRecord
  owner : Nat → Option Nat := fun _ => none
  calls : List ReplayCall := []

inductive ReplayInput where
  | publish (partition : Nat) (message : ConsumerRecord)
  | begin (limit : Nat)
  | assign (partition : Nat) (k : Nat)
  /-- `getmany`, with so many messages from each partition. -/
  | getmany (k : Nat) (taken : List (Nat × Nat))
  /-- `send` accepts the next message or raises. -/
  | send (k : Nat) (accepted : Bool)
  /-- A message of the buffer is acknowledged, or lost. -/
  | write (k : Nat) (j : Nat) (written : Bool)
  /-- `commit`, which may be applied although it raises. -/
  | commit (k : Nat) (applied : Bool)
  /-- The call is cancelled, or `getmany` raises. -/
  | raises (k : Nat)
  /-- Producer and consumer are stopped, and the call ends. -/
  | finish (k : Nat)
  deriving DecidableEq, Repr

namespace ReplayCall

variable (call : ReplayCall)

/-- The batch has been gone through and is not to be committed. -/
def Withheld : Prop := call.rest = [] ∧ (call.batch = [] ∨ call.failed ≠ 0)

instance : Decidable call.Withheld := inferInstanceAs (Decidable (_ ∧ (_ ∨ _)))

/-- Every message of the batch has been accepted, and there is no other to come. -/
def Through : Prop :=
  call.rest = [] ∧ call.failed = 0 ∧ (call.stage = .stopping ∨ call.stage = .returned)

def floorOf (i : Nat) : Nat := call.floor[i]?.getD 0

def send (accepted : Bool) : Option ReplayCall :=
  match call.stage, call.rest with
  | .sending, d :: rest =>
    some <| if accepted then
      { call with
        rest
        buffered := call.buffered ++ [d]
        sent := call.sent ++ [d]
        replayed := call.replayed + 1 }
    else { call with rest, failed := call.failed + 1 }
  | _, _ => none

def write (j : Nat) (written : Bool) : Option ReplayCall := do
  let d ← call.buffered[j]?
  return { call with
    buffered := call.buffered.eraseIdx j
    acked := call.acked ++ if written then [d] else [] }

end ReplayCall

namespace Replays

variable (s : Replays)

/-- No call is under way. -/
def start (topic : Topic ConsumerRecord) : Replays where
  topic := topic.rewind (List.range topic.length)

/-- The positions of its partitions, which the call commits. -/
def committed (k : Nat) : Topic ConsumerRecord :=
  s.topic.mapIdx fun i p => if s.owner i = some k then p.commit else p

def returned : List Nat :=
  (List.range s.calls.length).filter fun k => s.calls[k]?.any (·.stage = .returned)

def turn (k : Nat) (call : ReplayCall) : Replays := { s with calls := s.calls.set k call }

def opened (limit : Nat) : ReplayCall where
  limit := limit
  after := s.returned
  floor := s.topic.map (·.committed.getD 0)

def step : ReplayInput → Option Replays
  | .publish i message => some { s with topic := s.topic.append i message }
  | .begin limit => some { s with calls := s.calls ++ [s.opened limit] }
  | .assign i k => do
    let call ← s.calls[k]?
    if call.stage = .returned then none
    else return { s with topic := s.topic.rewind [i], owner := Function.update s.owner i (some k) }
  | .getmany k taken => do
    let call ← s.calls[k]?
    if call.stage = .polling ∧ (∀ entry ∈ taken, s.owner entry.1 = some k) ∧
        (taken.map (·.2)).sum ≤ call.limit then
      let (topic, batch) := s.topic.poll taken
      return { s with topic }.turn k { call with stage := .sending, batch, rest := batch }
    else none
  | .send k accepted => do
    let call ← (← s.calls[k]?).send accepted
    return s.turn k call
  | .write k j written => do
    let call ← (← s.calls[k]?).write j written
    return s.turn k call
  | .commit k applied => do
    let call ← s.calls[k]?
    if call.stage = .sending ∧ call.rest = [] ∧ ¬ call.Withheld then
      return { s with topic := if applied then s.committed k else s.topic }.turn k
        { call with stage := .stopping }
    else none
  | .raises k => do
    let call ← s.calls[k]?
    if call.stage = .polling ∨ call.stage = .sending then
      return s.turn k { call with stage := .stopping }
    else none
  | .finish k => do
    let call ← s.calls[k]?
    if (call.stage = .stopping ∨ call.stage = .sending ∧ call.Withheld) ∧ call.buffered = [] then
      let left : Replays :=
        { s with owner := fun i => if s.owner i = some k then none else s.owner i }
      return left.turn k { call with stage := .returned }
    else none

def system : System Replays ReplayInput where
  step := step

/-! ## What is to hold -/

/-- Where a partition was committed before any call. -/
def base (topic : Topic ConsumerRecord) (i : Nat) : Nat := (topic[i]?.bind (·.committed)).getD 0

/-- What is committed of each partition, by the calls, is settled for one of them. -/
def Settled (settled : ReplayCall → Delivery ConsumerRecord → Prop) (topic : Topic ConsumerRecord) :
    Prop :=
  ∀ (i : Nat) (p : Partition ConsumerRecord), s.topic[i]? = some p →
    ∀ committed ∈ p.committed, ∀ offset message, p.log[offset]? = some message →
      base topic i ≤ offset → offset < committed →
        ∃ call ∈ s.calls, settled call ⟨i, offset, message⟩

/-- Every message whose offset has been committed was acknowledged. -/
def CommittedAcked (topic : Topic ConsumerRecord) : Prop :=
  s.Settled (fun call d => d ∈ call.acked) topic

/-- Every message whose offset has been committed was accepted by `send`, in a call
that had its whole batch accepted. -/
def CommittedSent (topic : Topic ConsumerRecord) : Prop :=
  s.Settled (fun call d => d ∈ call.sent ∧ call.Through) topic

/-- No call sends what a call that had returned before it was told is there. -/
def NoneResent : Prop :=
  ∀ call ∈ s.calls, ∀ j ∈ call.after, ∀ earlier ∈ s.calls[j]?, ∀ d ∈ earlier.acked, d ∉ call.sent

/-- No call sends what was committed when it started. -/
def SentUncommitted : Prop :=
  ∀ call ∈ s.calls, ∀ d ∈ call.sent, call.floorOf d.partition ≤ d.offset

end Replays

/-! ## One call -/

/-- What a call has is of its batch; a call that has ended has nothing in its buffer. -/
structure ReplayCall.Own (call : ReplayCall) : Prop where
  rest : call.rest ⊆ call.batch
  buffered : call.buffered ⊆ call.batch
  sent : call.sent ⊆ call.batch
  acked : call.acked ⊆ call.batch
  polling : call.stage = .polling → call.batch = []
  returned : call.stage = .returned → call.buffered = []
  complete : call.failed = 0 → ∀ d ∈ call.batch, d ∈ call.rest ∨ d ∈ call.sent
  above : ∀ d ∈ call.batch, call.floorOf d.partition ≤ d.offset

/-- A call goes on: it keeps its batch, and what was sent and acknowledged stays so. -/
structure ReplayCall.Onward (call call' : ReplayCall) : Prop where
  active : call.stage ≠ .returned
  batch : call'.batch = call.batch
  after : call'.after = call.after
  floor : call'.floor = call.floor
  sent : call.sent ⊆ call'.sent
  acked : call.acked ⊆ call'.acked
  through : call.Through → call'.Through
  own : call.Own → call'.Own

namespace ReplayCall

variable {call call' : ReplayCall}

theorem send_onward {accepted : Bool} (sent : call.send accepted = some call') :
    call.Onward call' ∧ call'.stage = .sending := by
  unfold send at sent
  split at sent
  · rename_i d rest sending next
    have active : call.stage ≠ .returned := by simp [sending]
    have sending_still : ¬ call.Through := by simp [Through, sending]
    cases sent
    split
    · refine ⟨⟨active, rfl, rfl, rfl, List.subset_append_left _ _, List.Subset.refl _,
        fun through => absurd through sending_still, fun own => ?_⟩, sending⟩
      have inside : d ∈ call.batch := own.rest (by simp [next])
      refine ⟨fun e member => own.rest (by simp [next, member]), fun e member => ?_,
        fun e member => ?_, own.acked, own.polling, fun ended => absurd ended active,
        fun clean e member => ?_, own.above⟩
      · exact (List.mem_append.mp member).elim (own.buffered ·) fun last =>
          List.mem_singleton.mp last ▸ inside
      · exact (List.mem_append.mp member).elim (own.sent ·) fun last =>
          List.mem_singleton.mp last ▸ inside
      · rcases own.complete clean e member with later | before
        · rw [next] at later
          rcases List.mem_cons.mp later with rfl | later
          · exact .inr (by simp)
          · exact .inl later
        · exact .inr (List.mem_append_left _ before)
    · exact ⟨⟨active, rfl, rfl, rfl, List.Subset.refl _, List.Subset.refl _,
        fun through => absurd through sending_still, fun own =>
        ⟨fun e member => own.rest (by simp [next, member]), own.buffered, own.sent, own.acked,
          own.polling, own.returned, fun clean => absurd clean (Nat.succ_ne_zero _), own.above⟩⟩,
        sending⟩
  · cases sent

/-- Only a call that has not ended has something to write. -/
theorem write_onward {j : Nat} {written : Bool} (own : call.Own)
    (wrote : call.write j written = some call') :
    call.Onward call' ∧ call'.stage = call.stage := by
  simp only [write, Option.bind_eq_bind, Option.bind_eq_some_iff, Option.pure_def,
    Option.some.injEq] at wrote
  obtain ⟨d, found, rfl⟩ := wrote
  have buffered := List.mem_of_getElem? found
  have active : call.stage ≠ .returned := by
    intro ended
    rw [own.returned ended] at buffered
    cases buffered
  refine ⟨⟨active, rfl, rfl, rfl, List.Subset.refl _, List.subset_append_left _ _, id, fun own =>
    ⟨own.rest, fun e member => ?_, own.sent, fun e member => ?_, own.polling,
      fun ended => absurd ended active, own.complete, own.above⟩⟩, rfl⟩
  · exact own.buffered (List.mem_of_mem_eraseIdx member)
  · rcases List.mem_append.mp member with before | last
    · exact own.acked before
    · split at last
      · exact own.buffered (List.mem_singleton.mp last ▸ buffered)
      · cases last

/-- The call comes to its `finally` block. -/
theorem stop_onward (active : call.stage ≠ .returned) :
    call.Onward { call with stage := .stopping } where
  active := active
  batch := rfl
  after := rfl
  floor := rfl
  sent := List.Subset.refl _
  acked := List.Subset.refl _
  through through := ⟨through.1, through.2.1, .inl rfl⟩
  own own := ⟨own.rest, own.buffered, own.sent, own.acked, fun here => (nomatch here),
    fun here => (nomatch here), own.complete, own.above⟩

/-- The call ends, with its buffer written out. -/
theorem return_onward (active : call.stage ≠ .returned) (flushed : call.buffered = []) :
    call.Onward { call with stage := .returned } where
  active := active
  batch := rfl
  after := rfl
  floor := rfl
  sent := List.Subset.refl _
  acked := List.Subset.refl _
  through through := ⟨through.1, through.2.1, .inr rfl⟩
  own own := ⟨own.rest, own.buffered, own.sent, own.acked, fun here => (nomatch here),
    fun _ => flushed, own.complete, own.above⟩

end ReplayCall

/-! ## The invariant -/

namespace Replays

/-- What a call has settled is of its batch, and stays settled while the call goes on. -/
structure Lasting (settled : ReplayCall → Delivery ConsumerRecord → Prop) : Prop where
  within : ∀ call d, call.Own → settled call d → d ∈ call.batch
  onward : ∀ call call' d, call.Onward call' → settled call d → settled call' d

/-- What is committed is settled, and what has been read of a partition since is in
the batch of its call. -/
structure Kept (settled : ReplayCall → Delivery ConsumerRecord → Prop)
    (first : Topic ConsumerRecord) (s : Replays) : Prop where
  behind : s.topic.Behind
  inside : ∀ (i : Nat) (p : Partition ConsumerRecord), s.topic[i]? = some p →
    p.position ≤ base first i ∨ p.position ≤ p.log.length
  from_base : ∀ i, base first i ≤ base s.topic i
  own : ∀ call ∈ s.calls, call.Own
  floor : ∀ call ∈ s.calls, ∀ i, call.floorOf i ≤ base s.topic i
  committed : ∀ (i : Nat) (p : Partition ConsumerRecord), s.topic[i]? = some p →
    ∀ offset message, p.log[offset]? = some message → base first i ≤ offset →
      offset < p.committed.getD 0 → ∃ call ∈ s.calls, settled call ⟨i, offset, message⟩
  taken : ∀ (i : Nat) (p : Partition ConsumerRecord) (k : Nat), s.topic[i]? = some p →
    s.owner i = some k → ∀ offset message, p.log[offset]? = some message →
      p.committed.getD 0 ≤ offset → offset < p.position →
        ∃ call, s.calls[k]? = some call ∧ ⟨i, offset, message⟩ ∈ call.batch

variable {done : ReplayCall → Delivery ConsumerRecord → Prop} {first : Topic ConsumerRecord}
  {s s' : Replays} {k : Nat} {call call' : ReplayCall}

theorem base_eq {topic : Topic ConsumerRecord} {i : Nat} {p : Partition ConsumerRecord}
    (found : topic[i]? = some p) : base topic i = p.committed.getD 0 := by
  simp [base, found]

theorem committed_le (behind : s.topic.Behind) {i : Nat} {p : Partition ConsumerRecord}
    (found : s.topic[i]? = some p) : p.committed.getD 0 ≤ p.position := by
  cases held : p.committed with
  | none => exact Nat.zero_le _
  | some committed => exact behind i p found committed held

theorem Kept.settled (kept : s.Kept done first) : s.Settled done first := by
  intro i p found committed held offset message at_offset above below
  refine kept.committed i p found offset message at_offset above ?_
  rw [Option.mem_def.mp held]
  exact below

theorem Kept.sentUncommitted (kept : s.Kept done first) : s.SentUncommitted :=
  fun call member d sent => (kept.own call member).above d ((kept.own call member).sent sent)

/-- Offsets that are committed stay so. -/
def Grows (topic topic' : Topic ConsumerRecord) : Prop :=
  ∀ (i : Nat) (p : Partition ConsumerRecord), topic[i]? = some p → ∀ committed ∈ p.committed,
    ∃ p' : Partition ConsumerRecord, topic'[i]? = some p' ∧
      ∃ later ∈ p'.committed, committed ≤ later

theorem grows_base {topic topic' : Topic ConsumerRecord} (grows : Grows topic topic') (i : Nat) :
    base topic i ≤ base topic' i := by
  cases found : topic[i]? with
  | none => simp [base, found]
  | some p =>
    cases held : p.committed with
    | none => simp [base, found, held]
    | some committed =>
      obtain ⟨p', found', later, held', le⟩ := grows i p found committed held
      simpa [base, found, held, found', Option.mem_def.mp held'] using le

theorem grows_append (topic : Topic ConsumerRecord) (i : Nat) (message : ConsumerRecord) :
    Grows topic (topic.append i message) := by
  intro j p found committed held
  refine ⟨_, by rw [Topic.append, List.getElem?_modify, found]; rfl, committed, ?_, le_rfl⟩
  dsimp only
  split <;> exact held

theorem grows_rewind (topic : Topic ConsumerRecord) (partitions : List Nat) :
    Grows topic (topic.rewind partitions) := by
  intro j p found committed held
  refine ⟨_, by rw [Topic.rewind, List.getElem?_mapIdx, found]; rfl, committed, ?_, le_rfl⟩
  dsimp only
  split <;> exact held

theorem grows_moved {topic topic' : Topic ConsumerRecord} (moved : Topic.Moved topic topic') :
    Grows topic topic' := by
  intro i p found committed held
  obtain ⟨p', found', -, same⟩ := moved.symm.back found
  exact ⟨p', found', committed, same ▸ held, le_rfl⟩

theorem kept_start (topic : Topic ConsumerRecord) : (start topic).Kept done topic := by
  have lookup : ∀ (i : Nat) (p : Partition ConsumerRecord), (start topic).topic[i]? = some p →
      p.committed.getD 0 = base topic i ∧ p.position = base topic i := by
    intro i p found
    obtain ⟨q, here, -, same, rfl⟩ := Topic.rewind_lookup found
    have inside : i ∈ List.range topic.length :=
      List.mem_range.mpr (List.getElem?_eq_some_iff.mp here).1
    rw [if_pos inside]
    simp [base, here, Partition.rewind]
  refine ⟨Topic.behind_rewind_all topic, fun i p found => .inl (lookup i p found).2.le,
    fun i => ?_, ?_, ?_, fun i p found offset _ _ above below => ?_, ?_⟩
  · exact grows_base (grows_rewind topic _) i
  · exact fun call member => absurd member List.not_mem_nil
  · exact fun call member => absurd member List.not_mem_nil
  · rw [(lookup i p found).1] at below
    exact absurd above (Nat.not_le.mpr below)
  · exact fun i p k _ owned => by cases owned

/-! ## Steps -/

theorem turn_own (found : s.calls[k]? = some call) : (s.turn k call').calls[k]? = some call' := by
  rw [turn, List.getElem?_set_self (List.getElem?_eq_some_iff.mp found).1]

theorem turn_other {j : Nat} (other : j ≠ k) : (s.turn k call').calls[j]? = s.calls[j]? := by
  rw [turn, List.getElem?_set_ne (Ne.symm other)]

theorem mem_turn {other : ReplayCall} (here : other ∈ (s.turn k call').calls) :
    other = call' ∨ other ∈ s.calls :=
  (List.mem_or_eq_of_mem_set here).symm

theorem settled_turn (found : s.calls[k]? = some call) {d : Delivery ConsumerRecord}
    (still : done call d → done call' d) (before : ∃ call ∈ s.calls, done call d) :
    ∃ call ∈ (s.turn k call').calls, done call d := by
  obtain ⟨other, member, held⟩ := before
  obtain ⟨j, here⟩ := List.getElem?_of_mem member
  by_cases same : j = k
  · subst same
    cases found.symm.trans here
    exact ⟨call', List.mem_of_getElem? (turn_own found), still held⟩
  · exact ⟨other, List.mem_of_getElem? ((turn_other same).trans here), held⟩

theorem Kept.turn (lasting : Lasting done) (kept : s.Kept done first)
    (found : s.calls[k]? = some call) (onward : call.Onward call') :
    (s.turn k call').Kept done first := by
  have inside := List.mem_of_getElem? found
  refine ⟨kept.behind, kept.inside, kept.from_base, fun other here => ?_, fun other here => ?_,
    fun i p at_i offset message at_offset above below => ?_,
    fun i p j at_i owned offset message at_offset above below => ?_⟩
  · rcases mem_turn here with rfl | before
    · exact onward.own (kept.own call inside)
    · exact kept.own other before
  · rcases mem_turn here with rfl | before
    · intro i
      rw [ReplayCall.floorOf, onward.floor]
      exact kept.floor call inside i
    · exact kept.floor other before
  · exact settled_turn found (lasting.onward _ _ _ onward)
      (kept.committed i p at_i offset message at_offset above below)
  · obtain ⟨reader, here, read⟩ := kept.taken i p j at_i owned offset message at_offset above below
    by_cases same : j = k
    · subst same
      cases found.symm.trans here
      exact ⟨call', turn_own found, onward.batch ▸ read⟩
    · exact ⟨reader, (turn_other same).trans here, read⟩

/-- Partitions are given up. -/
theorem Kept.disown (kept : s.Kept done first) {owner : Nat → Option Nat}
    (fewer : ∀ i k, owner i = some k → s.owner i = some k) : Kept done first { s with owner } :=
  ⟨kept.behind, kept.inside, kept.from_base, kept.own, kept.floor, kept.committed,
    fun i p k found owned => kept.taken i p k found (fewer i k owned)⟩

/-- A new message is at the end, and nothing has been read beyond it. -/
theorem Kept.earlier (kept : s.Kept done first) {i offset : Nat} {p p' : Partition ConsumerRecord}
    {message m : ConsumerRecord} (found : s.topic[i]? = some p)
    (log : p'.log = p.log ∨ p'.log = p.log ++ [message]) (at_offset : p'.log[offset]? = some m)
    (above : base first i ≤ offset) (below : offset < p.position) : p.log[offset]? = some m := by
  rcases log with same | grown
  · rw [← same]
    exact at_offset
  · rw [grown, List.getElem?_append] at at_offset
    split at at_offset
    · exact at_offset
    · rename_i beyond
      rcases kept.inside i p found with early | within <;> omega

theorem Kept.publish (kept : s.Kept done first) (i : Nat) (message : ConsumerRecord) :
    Kept done first { s with topic := s.topic.append i message } := by
  have grown := grows_base (grows_append s.topic i message)
  refine ⟨fun j p' found committed held => ?_, fun j p' found => ?_,
    fun j => (kept.from_base j).trans (grown j), kept.own,
    fun call member j => (kept.floor call member j).trans (grown j),
    fun j p' found offset m at_offset above below => ?_,
    fun j p' k found owned offset m at_offset above below => ?_⟩
  · obtain ⟨p, at_j, position, same, -⟩ := Topic.append_lookup found
    rw [position]
    exact kept.behind j p at_j committed (same ▸ held)
  · obtain ⟨p, at_j, position, -, log⟩ := Topic.append_lookup found
    rw [position]
    refine (kept.inside j p at_j).imp id fun within => within.trans ?_
    rcases log with same | grown
    · rw [same]
    · simp [grown]
  · obtain ⟨p, at_j, -, same, log⟩ := Topic.append_lookup found
    rw [same] at below
    have read := below.trans_le (committed_le kept.behind at_j)
    exact kept.committed j p at_j offset m (kept.earlier at_j log at_offset above read) above below
  · obtain ⟨p, at_j, position, same, log⟩ := Topic.append_lookup found
    rw [same] at above
    rw [position] at below
    have beyond := (kept.from_base j).trans ((base_eq at_j).le.trans above)
    exact kept.taken j p k at_j owned offset m (kept.earlier at_j log at_offset beyond below) above
      below

theorem opened_floor (s : Replays) (limit i : Nat) :
    (s.opened limit).floorOf i = base s.topic i := by
  cases found : s.topic[i]? <;> simp [ReplayCall.floorOf, opened, base, found]

theorem opened_own (s : Replays) (limit : Nat) : (s.opened limit).Own where
  rest := List.nil_subset _
  buffered := List.nil_subset _
  sent := List.nil_subset _
  acked := List.nil_subset _
  polling _ := rfl
  returned _ := rfl
  complete _ _ member := absurd member List.not_mem_nil
  above _ member := absurd member List.not_mem_nil

theorem Kept.begin (kept : s.Kept done first) (limit : Nat) :
    Kept done first { s with calls := s.calls ++ [s.opened limit] } := by
  have member : ∀ call ∈ s.calls ++ [s.opened limit], call ∈ s.calls ∨ call = s.opened limit := by
    simp
  refine ⟨kept.behind, kept.inside, kept.from_base, fun call here => ?_, fun call here => ?_,
    fun i p found offset m at_offset above below => ?_,
    fun i p k found owned offset m at_offset above below => ?_⟩
  · rcases member call here with before | rfl
    · exact kept.own call before
    · exact s.opened_own limit
  · rcases member call here with before | rfl
    · exact kept.floor call before
    · exact fun i => (s.opened_floor limit i).le
  · obtain ⟨call, inside, held⟩ := kept.committed i p found offset m at_offset above below
    exact ⟨call, List.mem_append_left _ inside, held⟩
  · obtain ⟨call, here, read⟩ := kept.taken i p k found owned offset m at_offset above below
    refine ⟨call, ?_, read⟩
    rw [List.getElem?_append_left (List.getElem?_eq_some_iff.mp here).1]
    exact here

/-- A partition is read anew from where it is committed. -/
theorem Kept.assign (kept : s.Kept done first) (i k : Nat) :
    Kept done first { s with
      topic := s.topic.rewind [i]
      owner := Function.update s.owner i (some k) } := by
  have grown := grows_base (grows_rewind s.topic [i])
  refine ⟨fun j p' found committed held => ?_, fun j p' found => ?_,
    fun j => (kept.from_base j).trans (grown j), kept.own,
    fun call member j => (kept.floor call member j).trans (grown j),
    fun j p' found offset m at_offset above below => ?_,
    fun j p' k' found owned offset m at_offset above below => ?_⟩
  · obtain ⟨p, at_j, -, same, rfl⟩ := Topic.rewind_lookup found
    rw [same] at held
    split
    · simp [Partition.rewind, Option.mem_def.mp held]
    · exact kept.behind j p at_j committed held
  · obtain ⟨p, at_j, log, -, -⟩ := Topic.rewind_lookup found
    have back := Topic.rewind_le kept.behind at_j found
    rw [log]
    exact (kept.inside j p at_j).imp back.trans back.trans
  · obtain ⟨p, at_j, log, same, -⟩ := Topic.rewind_lookup found
    rw [same] at below
    rw [log] at at_offset
    exact kept.committed j p at_j offset m at_offset above below
  · obtain ⟨p, at_j, log, same, moved⟩ := Topic.rewind_lookup found
    rw [log] at at_offset
    rw [same] at above
    by_cases own : j = i
    · rw [moved, if_pos (by simp [own])] at below
      exact absurd above (Nat.not_le.mpr below)
    · rw [moved, if_neg (by simp [own])] at below
      have owned : Function.update s.owner i (some k) j = some k' := owned
      rw [Function.update_of_ne own] at owned
      exact kept.taken j p k' at_j owned offset m at_offset above below

/-- The call once it has taken a batch. -/
def taking (s : Replays) (taken : List (Nat × Nat)) (call : ReplayCall) : ReplayCall :=
  { call with
    stage := .sending
    batch := (s.topic.poll taken).2
    rest := (s.topic.poll taken).2 }

/-- A batch lies beyond what is committed, and so beyond what was when the call started. -/
theorem Kept.taking_own (kept : s.Kept done first) (inside : call ∈ s.calls)
    (polling : call.stage = .polling) (taken : List (Nat × Nat)) : (s.taking taken call).Own := by
  have polled := Topic.poll_polled s.topic taken
  have own := kept.own call inside
  have nothing : ∀ {l : List (Delivery ConsumerRecord)}, l ⊆ call.batch →
      l ⊆ (s.taking taken call).batch := by
    intro l within
    rw [own.polling polling] at within
    exact List.subset_nil.mp within ▸ List.nil_subset _
  refine ⟨List.Subset.refl _, nothing own.buffered, nothing own.sent, nothing own.acked,
    fun here => (nomatch here), fun here => (nomatch here), fun _ d member => .inl member,
    fun d member => ?_⟩
  refine (kept.floor call inside d.partition).trans ?_
  cases found : s.topic[d.partition]? with
  | none => simp [base, found]
  | some p =>
    rw [base_eq found]
    cases held : p.committed with
    | none => exact Nat.zero_le _
    | some committed => exact polled.ahead kept.behind d member p found committed held

/-- A call that has not read anything takes its batch, from where it is committed on. -/
theorem Kept.getmany {taken : List (Nat × Nat)} (lasting : Lasting done) (kept : s.Kept done first)
    (found : s.calls[k]? = some call) (polling : call.stage = .polling)
    (owned : ∀ entry ∈ taken, s.owner entry.1 = some k) :
    (Replays.turn { s with topic := (s.topic.poll taken).1 } k (s.taking taken call)).Kept
      done first := by
  have polled := Topic.poll_polled s.topic taken
  have inside := List.mem_of_getElem? found
  have own := kept.own call inside
  have unread : call.batch = [] := own.polling polling
  let read : Replays := { s with topic := (s.topic.poll taken).1 }
  have found' : read.calls[k]? = some call := found
  have grown := grows_base (grows_moved polled.moved)
  refine ⟨polled.behind kept.behind, Topic.poll_inside taken kept.inside,
    fun i => (kept.from_base i).trans (grown i), fun other here => ?_,
    fun other here i => le_trans ?_ (grown i), fun i p' at_i offset m at_offset above below => ?_,
    fun i p' j at_i owner offset m at_offset above below => ?_⟩
  · rcases mem_turn here with rfl | before
    · exact kept.taking_own inside polling taken
    · exact kept.own other before
  · rcases mem_turn here with rfl | before
    · exact kept.floor call inside i
    · exact kept.floor other before i
  · obtain ⟨p, here, log, same⟩ := polled.moved.back at_i
    rw [log] at at_offset
    rw [same] at below
    refine settled_turn found' (fun held => ?_)
      (kept.committed i p here offset m at_offset above below)
    have impossible := lasting.within call _ own held
    rw [unread] at impossible
    cases impossible
  · obtain ⟨p, here, log, same⟩ := polled.moved.back at_i
    rw [log] at at_offset
    rw [same] at above
    by_cases before : offset < p.position
    · obtain ⟨reader, there, already⟩ := kept.taken i p j here owner offset m at_offset above before
      have other : j ≠ k := by
        rintro rfl
        cases found.symm.trans there
        rw [unread] at already
        cases already
      exact ⟨reader, (turn_other other).trans there, already⟩
    · have batch := Topic.poll_passed taken here at_i at_offset (Nat.not_lt.mp before) below
      obtain ⟨entry, listed, same⟩ := Topic.poll_taken s.topic taken _ batch
      have owner' := owned entry listed
      rw [same] at owner'
      cases owner.symm.trans owner'
      exact ⟨s.taking taken call, turn_own found', batch⟩

theorem committed_lookup {i : Nat} {p' : Partition ConsumerRecord}
    (found : (s.committed k)[i]? = some p') :
    ∃ p, s.topic[i]? = some p ∧ p'.log = p.log ∧ p'.position = p.position ∧
      (s.owner i = some k ∧ p'.committed = some p.position ∨ p'.committed = p.committed) := by
  rw [Replays.committed, List.getElem?_mapIdx] at found
  obtain ⟨p, here, rfl⟩ := Option.map_eq_some_iff.mp found
  refine ⟨p, here, ?_⟩
  split
  · rename_i owned
    exact ⟨rfl, rfl, .inl ⟨owned, rfl⟩⟩
  · exact ⟨rfl, rfl, .inr rfl⟩

theorem Kept.grows_committed (kept : s.Kept done first) (k : Nat) :
    Grows s.topic (s.committed k) := by
  intro i p at_i committed held
  refine ⟨_, by rw [Replays.committed, List.getElem?_mapIdx, at_i]; rfl, ?_⟩
  have le := kept.behind i p at_i committed held
  dsimp only
  split
  · exact ⟨p.position, rfl, le⟩
  · exact ⟨committed, held, le_rfl⟩

/-- Positions are committed of which everything read is settled. -/
theorem Kept.commit (kept : s.Kept done first) (found : s.calls[k]? = some call)
    (all : ∀ d ∈ call.batch, done call d) : Kept done first { s with topic := s.committed k } := by
  have grown := grows_base (kept.grows_committed k)
  refine ⟨fun i p' at_i committed held => ?_, fun i p' at_i => ?_,
    fun i => (kept.from_base i).trans (grown i), kept.own,
    fun other here i => (kept.floor other here i).trans (grown i),
    fun i p' at_i offset m at_offset above below => ?_,
    fun i p' j at_i owned offset m at_offset above below => ?_⟩
  · obtain ⟨p, here, -, position, ⟨-, moved⟩ | same⟩ := committed_lookup at_i
    · rw [moved] at held
      cases held
      rw [position]
    · rw [position]
      exact kept.behind i p here committed (same ▸ held)
  · obtain ⟨p, here, log, position, -⟩ := committed_lookup at_i
    rw [log, position]
    exact kept.inside i p here
  · obtain ⟨p, here, log, -, ⟨owned, moved⟩ | same⟩ := committed_lookup at_i
    · rw [log] at at_offset
      rw [moved] at below
      by_cases before : offset < p.committed.getD 0
      · exact kept.committed i p here offset m at_offset above before
      · obtain ⟨reader, there, read⟩ :=
          kept.taken i p k here owned offset m at_offset (Nat.not_lt.mp before) below
        cases found.symm.trans there
        exact ⟨call, List.mem_of_getElem? found, all _ read⟩
    · rw [log] at at_offset
      rw [same] at below
      exact kept.committed i p here offset m at_offset above below
  · obtain ⟨p, here, log, position, ⟨-, moved⟩ | same⟩ := committed_lookup at_i
    · rw [moved] at above
      rw [position] at below
      exact absurd above (Nat.not_le.mpr below)
    · rw [log] at at_offset
      rw [same] at above
      rw [position] at below
      exact kept.taken i p j here owned offset m at_offset above below

/-- What is settled of a whole batch once a commit is applied. -/
def Enough (done : ReplayCall → Delivery ConsumerRecord → Prop) (s : Replays)
    (input : ReplayInput) : Prop :=
  ∀ k, input = .commit k true → ∀ call ∈ s.calls[k]?, call.rest = [] → call.failed = 0 →
    call.Own → ∀ d ∈ call.batch, done { call with stage := .stopping } d

/-- What a step can do. -/
inductive Stepped (s : Replays) : ReplayInput → Replays → Prop
  | publish (i : Nat) (message : ConsumerRecord) :
    Stepped s (.publish i message) { s with topic := s.topic.append i message }
  | begin (limit : Nat) : Stepped s (.begin limit) { s with calls := s.calls ++ [s.opened limit] }
  | assign (i k : Nat) : Stepped s (.assign i k)
      { s with topic := s.topic.rewind [i], owner := Function.update s.owner i (some k) }
  | getmany {k : Nat} {taken : List (Nat × Nat)} {call : ReplayCall}
    (found : s.calls[k]? = some call) (polling : call.stage = .polling)
    (owned : ∀ entry ∈ taken, s.owner entry.1 = some k) :
    Stepped s (.getmany k taken)
      (Replays.turn { s with topic := (s.topic.poll taken).1 } k (s.taking taken call))
  | goes {input : ReplayInput} {k : Nat} {call call' : ReplayCall}
    (found : s.calls[k]? = some call)
    (onward : call.Own → call.Onward call' ∧ call'.stage ≠ .returned) :
    Stepped s input (s.turn k call')
  | commit {k : Nat} {call : ReplayCall} (found : s.calls[k]? = some call)
    (active : call.stage ≠ .returned) (through : call.rest = []) (clean : call.failed = 0) :
    Stepped s (.commit k true)
      (Replays.turn { s with topic := s.committed k } k { call with stage := .stopping })
  | finish {k : Nat} {call : ReplayCall} (found : s.calls[k]? = some call)
    (active : call.stage ≠ .returned) (flushed : call.buffered = []) :
    Stepped s (.finish k)
      (Replays.turn { s with owner := fun i => if s.owner i = some k then none else s.owner i } k
        { call with stage := .returned })

theorem step_cases {input : ReplayInput} (stepped : system.step s input = some s') :
    s.Stepped input s' := by
  cases input with
  | publish i message =>
    cases stepped
    exact .publish i message
  | begin limit =>
    cases stepped
    exact .begin limit
  | assign i k =>
    simp only [system, Replays.step, Option.bind_eq_bind, Option.bind_eq_some_iff] at stepped
    obtain ⟨call, -, stepped⟩ := stepped
    split at stepped
    · cases stepped
    · cases stepped
      exact .assign i k
  | getmany k taken =>
    simp only [system, Replays.step, Option.bind_eq_bind, Option.bind_eq_some_iff] at stepped
    obtain ⟨call, found, stepped⟩ := stepped
    split at stepped
    · rename_i enabled
      cases stepped
      exact .getmany found enabled.1 enabled.2.1
    · cases stepped
  | send k accepted =>
    simp only [system, Replays.step, Option.bind_eq_bind, Option.bind_eq_some_iff] at stepped
    obtain ⟨call, found, call', sent, stepped⟩ := stepped
    cases stepped
    obtain ⟨onward, sending⟩ := ReplayCall.send_onward sent
    exact .goes found fun _ => ⟨onward, by simp [sending]⟩
  | write k j written =>
    simp only [system, Replays.step, Option.bind_eq_bind, Option.bind_eq_some_iff] at stepped
    obtain ⟨call, found, call', wrote, stepped⟩ := stepped
    cases stepped
    -- a write changes the message and not what is left to send
    refine .goes found fun own => ?_
    obtain ⟨onward, same⟩ := ReplayCall.write_onward own wrote
    exact ⟨onward, same ▸ onward.active⟩
  | commit k applied =>
    simp only [system, Replays.step, Option.bind_eq_bind, Option.bind_eq_some_iff] at stepped
    obtain ⟨call, found, stepped⟩ := stepped
    split at stepped
    · rename_i enabled
      obtain ⟨sending, through, offered⟩ := enabled
      cases stepped
      have active : call.stage ≠ .returned := by simp [sending]
      cases applied with
      | false =>
        exact .goes found fun _ => ⟨ReplayCall.stop_onward active, fun here => (nomatch here)⟩
      | true =>
        -- it is committed only where no send has failed
        have clean : call.failed = 0 := by
          by_contra failed
          exact offered ⟨through, .inr failed⟩
        exact .commit found active through clean
    · cases stepped
  | raises k =>
    simp only [system, Replays.step, Option.bind_eq_bind, Option.bind_eq_some_iff] at stepped
    obtain ⟨call, found, stepped⟩ := stepped
    split at stepped
    · rename_i enabled
      cases stepped
      have active : call.stage ≠ .returned := by rcases enabled with here | here <;> simp [here]
      exact .goes found fun _ => ⟨ReplayCall.stop_onward active, fun here => (nomatch here)⟩
    · cases stepped
  | finish k =>
    simp only [system, Replays.step, Option.bind_eq_bind, Option.bind_eq_some_iff] at stepped
    obtain ⟨call, found, stepped⟩ := stepped
    split at stepped
    · rename_i enabled
      cases stepped
      have active : call.stage ≠ .returned := by
        rcases enabled.1 with here | ⟨here, -⟩ <;> simp [here]
      exact .finish found active enabled.2
    · cases stepped

theorem Kept.step {input : ReplayInput} (lasting : Lasting done) (kept : s.Kept done first)
    (enough : Enough done s input) (stepped : s.Stepped input s') : s'.Kept done first := by
  cases stepped with
  | publish i message => exact kept.publish i message
  | begin limit => exact kept.begin limit
  | assign i k => exact kept.assign i k
  | getmany found polling owned => exact kept.getmany lasting found polling owned
  | goes found onward =>
    have own := kept.own _ (List.mem_of_getElem? found)
    exact kept.turn lasting found (onward own).1
  | @commit k call found active through clean =>
    -- the call stops first: what it commits is settled once it has
    have own := kept.own call (List.mem_of_getElem? found)
    have stopped := kept.turn lasting found (ReplayCall.stop_onward active)
    exact stopped.commit (turn_own found) (enough k rfl call found through clean own)
  | @finish k call found active flushed =>
    have left : Kept done first { s with
        owner := fun i => if s.owner i = some k then none else s.owner i } := by
      refine kept.disown fun i j owned => ?_
      split at owned
      · cases owned
      · exact owned
    exact left.turn lasting found (ReplayCall.return_onward active flushed)

/-! ## Runs -/

theorem lasting_sent : Lasting fun call d => d ∈ call.sent ∧ call.Through where
  within _ _ own held := own.sent held.1
  onward _ _ _ onward held := ⟨onward.sent held.1, onward.through held.2⟩

/-- A call commits where `send` has accepted the whole batch. -/
theorem enough_sent (s : Replays) (input : ReplayInput) :
    Enough (fun call d => d ∈ call.sent ∧ call.Through) s input := by
  intro k _ call _ through clean own d member
  rcases own.complete clean d member with later | sent
  · rw [through] at later
    cases later
  · exact ⟨sent, through, clean, .inl rfl⟩

/-- What is committed was accepted by `send`, together with the whole batch of a call,
and no call sends what was committed when it started. -/
theorem committedSent_sentUncommitted {topic : Topic ConsumerRecord} {inputs : List ReplayInput}
    (ran : system.run (start topic) inputs = some s) :
    s.CommittedSent topic ∧ s.SentUncommitted := by
  have kept := System.invariant_run
    (fun t input _ kept stepped =>
      Kept.step lasting_sent kept (enough_sent t input) (step_cases stepped))
    ran (kept_start topic)
  exact ⟨kept.settled, kept.sentUncommitted⟩

/-! ## A few dead letters -/

instance : Decidable s.NoneResent :=
  inferInstanceAs (Decidable (∀ call ∈ s.calls, ∀ j ∈ call.after, ∀ earlier ∈ s.calls[j]?,
    ∀ d ∈ earlier.acked, d ∉ call.sent))

def letter (value : String) : ConsumerRecord := ⟨some value, some value⟩

/-- A call starts and takes what there is. -/
def reads (k : Nat) : List ReplayInput := [.begin 100, .assign 0 k, .getmany k [(0, 100)]]

/-- Where the second of two messages cannot be sent, nothing is committed, and the next
call sends both. -/
def replayedAgain : List ReplayInput :=
  [.publish 0 (letter "a"), .publish 0 (letter "b")] ++ reads 0 ++
    [.send 0 true, .send 0 false, .write 0 0 true, .finish 0] ++ reads 1 ++
    [.send 1 true, .send 1 true, .write 1 0 true, .commit 1 true, .write 1 0 true, .finish 1]

theorem replayedAgain_committed :
    ∃ s, system.run (start [{}]) replayedAgain = some s ∧
      s.calls.map (·.acked.length) = [1, 2] ∧ s.CommittedSent [{}] ∧ s.SentUncommitted := by
  have reached : (system.run (start [{}]) replayedAgain).map
      (fun s => s.calls.map (·.acked.length)) = some [1, 2] := by decide +kernel
  obtain ⟨s, ran, counts⟩ := Option.map_eq_some_iff.mp reached
  exact ⟨s, ran, counts, committedSent_sentUncommitted ran⟩

/-- Where the second of two messages cannot be sent, the first is sent again by the
next call; and a message is committed while it is still in the buffer. -/
theorem resent_and_committed_early :
    (∃ s, system.run (start [{}]) ([.publish 0 (letter "a"), .publish 0 (letter "b")] ++ reads 0 ++
        [.send 0 true, .send 0 false, .write 0 0 true, .finish 0] ++ reads 1 ++ [.send 1 true]) =
      some s ∧ ¬ s.NoneResent) ∧
    ∃ s, system.run (start [{}]) ([.publish 0 (letter "a")] ++ reads 0 ++
        [.send 0 true, .commit 0 true, .write 0 0 false, .finish 0]) = some s ∧
      ¬ s.CommittedAcked [{}] := by
  have resent : (system.run (start [{}]) ([.publish 0 (letter "a"), .publish 0 (letter "b")] ++
      reads 0 ++ [.send 0 true, .send 0 false, .write 0 0 true, .finish 0] ++ reads 1 ++
      [.send 1 true])).map (fun s => decide s.NoneResent) = some false := by
    decide +kernel
  have lost : (system.run (start [{}]) ([.publish 0 (letter "a")] ++ reads 0 ++
      [.send 0 true, .commit 0 true, .write 0 0 false, .finish 0])).map
        (fun s => (s.topic, s.calls.map (·.acked))) =
      some ([⟨[letter "a"], 1, some 1⟩], [[]]) := by
    decide +kernel
  obtain ⟨s, ran, again⟩ := Option.map_eq_some_iff.mp resent
  obtain ⟨t, ran', values⟩ := Option.map_eq_some_iff.mp lost
  obtain ⟨topic, acked⟩ := Prod.mk.inj values
  refine ⟨⟨s, ran, of_decide_eq_false again⟩, t, ran', fun every => ?_⟩
  have found : t.topic[0]? = some ⟨[letter "a"], 1, some 1⟩ := by rw [topic]; rfl
  obtain ⟨call, member, inside⟩ := every 0 _ found 1 rfl 0 (letter "a") rfl (by decide) (by decide)
  have nothing : call.acked ∈ t.calls.map (·.acked) := List.mem_map_of_mem member
  rw [acked, List.mem_singleton] at nothing
  rw [nothing] at inside
  cases inside

end Replays

end MiniHedge.Shared
