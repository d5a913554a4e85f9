import MiniHedge.Library.Mapping
import MiniHedge.Library.PartitionedLog
import MiniHedge.Library.Transition
import MiniHedge.Shared.Events

/-! `KafkaEventBus`: the loop that consumes one topic.

A message is handled in one step, and its handlers succeed or fail in any way.
The process may restart between any two steps, and partitions may be assigned
anew. What `send` accepts is in a buffer until it is written. A poll that raises
changes nothing.
-/

set_option autoImplicit false

namespace MiniHedge.Shared

open MiniHedge.Python MiniHedge.Library

/-! ## State -/

def dlqMaxRetries : Nat := 3

def maxRecords : Nat := 10

/-- The value of a message, if it has one. -/
abbrev Message := Option String

structure DeadLetter where
  key : String
  value : String
  deriving DecidableEq, Repr

structure ConsumeLoop where
  topic : Topic Message
  /-- The rest of the batch; there is none before the next poll. -/
  batch : Option (List (Delivery Message)) := none
  failureCounts : List (String × Nat) := []
  /-- Dead letters that are not written yet, with the messages they are for. -/
  unsent : List (Delivery Message × DeadLetter) := []
  dlq : List DeadLetter := []
  -- what has been delivered, and the handlers that have processed it
  delivered : List (Delivery Message) := []
  processed : List (Delivery Message × Nat) := []
  deriving DecidableEq, Repr

inductive ConsumeInput where
  /-- A message is published, in the partition. -/
  | publish (partition : Nat) (message : Message)
  /-- `getmany`, with so many messages from each partition. -/
  | poll (taken : List (Nat × Nat))
  /-- The next message, and whether `send` accepts a dead letter. -/
  | handle (outcomes : List Bool) (sent : Bool)
  /-- `commit`, which may be applied although it raises. -/
  | commit (applied : Bool)
  /-- The producer writes the next dead letter, or gives up. -/
  | write (written : Bool)
  /-- The loops of other topics count failures too. -/
  | otherTopics (failureCounts : List (String × Nat))
  | assign (partitions : List Nat)
  | restart
  deriving DecidableEq, Repr

namespace ConsumeLoop

/-! ## Steps -/

def start (topic : Topic Message) : ConsumeLoop :=
  { topic := topic.resume (List.range topic.length) }

def failures (s : ConsumeLoop) (eventId : String) : Nat := (s.failureCounts.lookup eventId).getD 0

def popFailures (s : ConsumeLoop) (eventId : String) : List (String × Nat) :=
  s.failureCounts.filter fun entry => entry.1 ≠ eventId

section Steps

-- `decode` is the deserialization, up to the event; it may raise
variable (decode : String → Option BaseEvent) (handlers : Nat) (s : ConsumeLoop)

/-- After every handler has run. -/
def settle (d : Delivery Message) (value : String) (event : BaseEvent) (outcomes : List Bool)
    (sent : Bool) : ConsumeLoop :=
  let s := { s with
    processed := s.processed ++
      ((List.range handlers).filter fun i => outcomes[i]?.getD false).map (d, ·) }
  if outcomes.all id then { s with failureCounts := s.popFailures event.eventId }
  else
    let count := s.failures event.eventId + 1
    if dlqMaxRetries ≤ count then
      { s with
        failureCounts := s.popFailures event.eventId
        unsent := s.unsent ++ if sent then [(d, ⟨event.eventId, value⟩)] else [] }
    else { s with failureCounts := setItem event.eventId count s.failureCounts }

def handle (d : Delivery Message) (outcomes : List Bool) (sent : Bool) : Option ConsumeLoop :=
  match d.message with
  | none => some s
  | some value =>
    match decode value with
    | none => some s
    | some event =>
      if outcomes.length = handlers then some (s.settle handlers d value event outcomes sent)
      else none

def step (s : ConsumeLoop) : ConsumeInput → Option ConsumeLoop
  | .publish i message => some { s with topic := s.topic.append i message }
  | .poll taken =>
    if s.batch = none ∧ (taken.map (·.2)).sum ≤ maxRecords then
      let (topic, batch) := s.topic.poll taken
      some { s with topic, batch := some batch, delivered := s.delivered ++ batch }
    else none
  | .handle outcomes sent =>
    match s.batch with
    | some (d :: rest) => handle decode handlers { s with batch := some rest } d outcomes sent
    | some [] | none => none
  | .commit applied =>
    if s.batch = some [] then
      some { s with batch := none, topic := if applied then s.topic.commit else s.topic }
    else none
  | .write written =>
    match s.unsent with
    | [] => none
    | (_, letter) :: rest =>
      some { s with unsent := rest, dlq := s.dlq ++ if written then [letter] else [] }
  | .otherTopics failureCounts => some { s with failureCounts }
  | .assign partitions => some { s with topic := s.topic.resume partitions }
  | .restart => some { s with
      topic := s.topic.resume (List.range s.topic.length)
      batch := none
      failureCounts := []
      unsent := [] }

def system : System ConsumeLoop ConsumeInput where
  step := step decode handlers

/-! ## What is to hold -/

/-- All handlers have processed the message, or it is a dead letter. -/
def Settled (d : Delivery Message) : Prop :=
  (∀ i < handlers, (d, i) ∈ s.processed) ∨
    ∃ value event, d.message = some value ∧ decode value = some event ∧
      ⟨event.eventId, value⟩ ∈ s.dlq

/-- No message that has been delivered is committed unless it is settled. -/
def NoneDropped : Prop :=
  ∀ d ∈ s.delivered, ∀ p ∈ s.topic[d.partition]?, ∀ committed ∈ p.committed,
    d.offset < committed → s.Settled decode handlers d

/-! ## The condition -/

/-- The partitions are resumed where something is committed, or nothing was delivered. -/
def Known (partitions : List Nat) : Prop :=
  ∀ d ∈ s.delivered, d.partition ∈ partitions →
    ∀ p ∈ s.topic[d.partition]?, p.committed ≠ none

instance (partitions : List Nat) : Decidable (s.Known partitions) :=
  inferInstanceAs (Decidable (∀ d ∈ s.delivered, _ → ∀ p ∈ s.topic[d.partition]?, _))

/-- The message is decoded and all handlers succeed, or it has failed for the last time
and its dead letter is accepted. -/
def Resolves (outcomes : List Bool) (sent : Bool) (d : Delivery Message) : Prop :=
  ∃ event ∈ d.message.bind decode,
    outcomes.all id ∨ dlqMaxRetries ≤ s.failures event.eventId + 1 ∧ sent

instance (outcomes : List Bool) (sent : Bool) (d : Delivery Message) :
    Decidable (s.Resolves decode outcomes sent d) :=
  match decoded : d.message.bind decode with
  | none => isFalse (by simp [Resolves, decoded])
  | some event =>
    decidable_of_iff (outcomes.all id ∨ dlqMaxRetries ≤ s.failures event.eventId + 1 ∧ sent)
      (by simp [Resolves, decoded])

/-- The next message is resolved, and all dead letters are written before a commit. -/
def Sound (s : ConsumeLoop) : ConsumeInput → Prop
  | .handle outcomes sent => ∀ d ∈ (s.batch.getD []).head?, s.Resolves decode outcomes sent d
  | .commit applied => applied → s.unsent = []
  | .write written => written
  | .assign partitions => s.Known partitions
  | .restart => s.Known (List.range s.topic.length)
  | .publish .. | .poll _ | .otherTopics _ => True

instance (s : ConsumeLoop) (input : ConsumeInput) : Decidable (Sound decode s input) :=
  match input with
  | .handle .. => inferInstanceAs (Decidable (∀ d ∈ (s.batch.getD []).head?, _))
  | .commit applied => inferInstanceAs (Decidable (applied = true → s.unsent = []))
  | .write written => inferInstanceAs (Decidable (written = true))
  | .assign partitions => inferInstanceAs (Decidable (s.Known partitions))
  | .restart => inferInstanceAs (Decidable (s.Known (List.range s.topic.length)))
  | .publish .. | .poll _ | .otherTopics _ => isTrue trivial

end Steps

/-! ## Runs -/

section Runs

variable {decode : String → Option BaseEvent} {handlers : Nat} {s s' : ConsumeLoop}

/-- The messages that are still to be handled, and those whose dead letter is to be written. -/
def outstanding (s : ConsumeLoop) : List (Delivery Message) :=
  s.batch.getD [] ++ s.unsent.map (·.1)

variable (decode handlers) in
structure Kept (s : ConsumeLoop) : Prop where
  covers : s.topic.Covers s.delivered s.outstanding (s.Settled decode handlers)
  letters : ∀ d letter, (d, letter) ∈ s.unsent → ∃ value event, d.message = some value ∧
    decode value = some event ∧ letter = ⟨event.eventId, value⟩

theorem Kept.noneDropped (kept : s.Kept decode handlers) : s.NoneDropped decode handlers :=
  fun _ member _ found _ held passed => kept.covers.settled_of_committed member found held passed

theorem Settled.mono {d : Delivery Message} (settled : s.Settled decode handlers d)
    (processed : s.processed ⊆ s'.processed) (dlq : s.dlq ⊆ s'.dlq) :
    s'.Settled decode handlers d := by
  rcases settled with each | ⟨value, event, valued, decoded, letter⟩
  · exact .inl fun i inside => processed (each i inside)
  · exact .inr ⟨value, event, valued, decoded, dlq letter⟩

theorem kept_start (topic : Topic Message) : (start topic).Kept decode handlers where
  covers := ⟨Topic.behind_resume_all topic, fun _ member => absurd member List.not_mem_nil,
    fun _ member => absurd member List.not_mem_nil, fun _ member => absurd member List.not_mem_nil⟩
  letters _ _ member := absurd member List.not_mem_nil

theorem Kept.poll (kept : s.Kept decode handlers) (taken : List (Nat × Nat))
    (idle : s.batch = none) :
    Kept decode handlers { s with
      topic := (s.topic.poll taken).1
      batch := some (s.topic.poll taken).2
      delivered := s.delivered ++ (s.topic.poll taken).2 } := by
  refine ⟨?_, kept.letters⟩
  have polled := kept.covers.poll taken
  simp only [outstanding, idle, Option.getD_none, List.nil_append] at polled
  refine polled.settle (fun d member => ?_) (fun d settled => settled) fun d member => .inr ?_
  · exact List.mem_append.mpr (List.mem_append.mp member).symm
  · exact List.mem_append.mpr (List.mem_append.mp member).symm

/-- A message that all handlers have processed, or whose dead letter was accepted. -/
theorem Kept.settle {d : Delivery Message} {rest : List (Delivery Message)}
    {value : String} {event : BaseEvent} {outcomes : List Bool} {sent : Bool}
    (kept : s.Kept decode handlers) (next : s.batch = some (d :: rest))
    (valued : d.message = some value) (decoded : decode value = some event)
    (each : outcomes.length = handlers)
    (sound : outcomes.all id ∨ dlqMaxRetries ≤ s.failures event.eventId + 1 ∧ sent) :
    (settle handlers { s with batch := some rest } d value event outcomes sent).Kept decode
      handlers := by
  have covers := kept.covers
  simp only [outstanding, next, Option.getD_some] at covers
  unfold ConsumeLoop.settle
  dsimp only
  split
  · rename_i succeeded
    refine ⟨covers.settle (fun other member => List.mem_cons_of_mem d member)
      (fun other settled => settled.mono (List.subset_append_left _ _) (List.Subset.refl _))
      fun other member => ?_, kept.letters⟩
    rcases List.mem_cons.mp member with rfl | later
    · refine .inl (.inl fun i inside => List.mem_append_right _ (List.mem_map.mpr ⟨i, ?_, rfl⟩))
      have found : i < outcomes.length := each ▸ inside
      have ok := List.all_eq_true.mp succeeded _ (List.getElem_mem found)
      exact List.mem_filter.mpr ⟨List.mem_range.mpr inside, by simpa [found] using ok⟩
    · exact .inr later
  · rename_i failed
    obtain ⟨last, accepted⟩ := sound.resolve_left failed
    subst accepted
    rw [if_pos rfl]
    split
    case isFalse below => exact absurd last below
    refine ⟨covers.settle ?_
      (fun other settled => settled.mono (List.subset_append_left _ _) (List.Subset.refl _)) ?_, ?_⟩
    · intro other member
      simp only [outstanding, Option.getD_some, List.map_append, List.map_cons, List.map_nil,
        List.mem_append, List.mem_cons, List.not_mem_nil, or_false] at member ⊢
      tauto
    · intro other member
      refine .inr ?_
      simp only [outstanding, Option.getD_some, List.map_append, List.map_cons, List.map_nil,
        List.mem_append, List.mem_cons, List.not_mem_nil, or_false] at member ⊢
      tauto
    · intro other letter member
      rcases List.mem_append.mp member with before | last
      · exact kept.letters other letter before
      · cases List.mem_singleton.mp last
        exact ⟨value, event, valued, decoded, rfl⟩

theorem Kept.write (kept : s.Kept decode handlers) {d : Delivery Message} {letter : DeadLetter}
    {rest : List (Delivery Message × DeadLetter)} (next : s.unsent = (d, letter) :: rest) :
    Kept decode handlers { s with unsent := rest, dlq := s.dlq ++ [letter] } := by
  obtain ⟨value, event, valued, decoded, rfl⟩ := kept.letters d letter (by simp [next])
  refine ⟨kept.covers.settle ?_
    (fun other settled => settled.mono (List.Subset.refl _) (List.subset_append_left _ _)) ?_,
    fun other letter member => kept.letters other letter (next ▸ List.mem_cons_of_mem _ member)⟩
  · intro other member
    simp only [outstanding, next, List.map_cons, List.mem_append, List.mem_cons] at member ⊢
    tauto
  · intro other member
    simp only [outstanding, next, List.map_cons, List.mem_append, List.mem_cons] at member ⊢
    rcases member with waiting | rfl | later
    · exact .inr (.inl waiting)
    · exact .inl (.inr ⟨value, event, valued, decoded, by simp⟩)
    · exact .inr (.inr later)

theorem Kept.step {input : ConsumeInput} (kept : s.Kept decode handlers)
    (sound : Sound decode s input) (stepped : step decode handlers s input = some s') :
    s'.Kept decode handlers := by
  cases input with
  | publish i message =>
    cases stepped
    exact ⟨kept.covers.append i message, kept.letters⟩
  | poll taken =>
    simp only [ConsumeLoop.step] at stepped
    split at stepped
    · rename_i idle
      cases stepped
      exact kept.poll taken idle.1
    · cases stepped
  | handle outcomes sent =>
    simp only [ConsumeLoop.step] at stepped
    split at stepped
    · rename_i d rest next
      -- the message can be read, and it is resolved
      obtain ⟨event, found, resolved⟩ := sound d (by simp [next])
      obtain ⟨value, valued, decoded⟩ := Option.bind_eq_some_iff.mp found
      simp only [handle, valued, decoded] at stepped
      split at stepped
      · rename_i each
        cases stepped
        exact kept.settle next valued decoded each resolved
      · cases stepped
    · cases stepped
    · cases stepped
  | commit applied =>
    simp only [ConsumeLoop.step] at stepped
    split at stepped
    · rename_i handled
      cases stepped
      refine ⟨?_, kept.letters⟩
      have covers := kept.covers
      simp only [outstanding, handled, Option.getD_some, List.nil_append] at covers
      cases applied with
      | false => exact covers
      | true =>
        -- where the commit is applied, no dead letter is in the buffer
        have written := sound rfl
        rw [written, List.map_nil] at covers
        have nothing : outstanding { s with batch := none, topic := s.topic.commit } = [] := by
          simp [outstanding, written]
        change Topic.Covers s.topic.commit s.delivered
          (outstanding { s with batch := none, topic := s.topic.commit }) (s.Settled decode handlers)
        rw [nothing]
        exact covers.commit
    · cases stepped
  | write written =>
    simp only [ConsumeLoop.step] at stepped
    split at stepped
    · cases stepped
    · rename_i d letter rest next
      cases stepped
      -- a dead letter that is not accepted would be lost
      have accepted : written = true := sound
      rw [if_pos accepted]
      exact kept.write next
  | otherTopics failureCounts =>
    cases stepped
    exact ⟨kept.covers, kept.letters⟩
  | assign partitions =>
    cases stepped
    exact ⟨kept.covers.resume sound, kept.letters⟩
  | restart =>
    cases stepped
    refine ⟨kept.covers.restart fun d member p found => ?_,
      fun _ _ member => absurd member List.not_mem_nil⟩
    exact sound d member (List.mem_range.mpr (List.getElem?_eq_some_iff.mp found).1) p found

/-- In runs whose steps are sound, no message is committed unless it is settled. -/
theorem noneDropped_of_sound {topic : Topic Message} {inputs : List ConsumeInput}
    (sound : (system decode handlers).Along (Sound decode) (start topic) inputs)
    (ran : (system decode handlers).run (start topic) inputs = some s) :
    s.NoneDropped decode handlers :=
  (System.invariant_along (fun _ _ _ kept met stepped => Kept.step kept met stepped) sound ran
    (kept_start topic)).noneDropped

end Runs

/-! ## One message -/

section OneMessage

/-- The event that a value stands for. -/
def eventNamed (value : String) : Option BaseEvent :=
  if value = "garbled" then none
  else some { eventId := value, eventType := "trade.executed", timestamp := "t", data := [] }

/-- It is published, polled and handled by two handlers, and committed. -/
def consumed (outcomes : List Bool) : List ConsumeInput :=
  [.publish 0 (some "e1"), .poll [(0, 10)], .handle outcomes false, .commit true]

/-- A first message fails in one handler, three times, before it becomes a dead letter. -/
def failedThrice : List ConsumeInput :=
  [.publish 0 (some "e1"), .poll [(0, 10)], .otherTopics [("e1", 2)],
    .handle [true, false] true, .write true, .commit true, .restart]

theorem noneDropped_failedThrice :
    ∃ s, (system eventNamed 2).run (start [{}]) failedThrice = some s ∧
      s.delivered.length = 1 ∧ s.dlq = [⟨"e1", "e1"⟩] ∧ s.NoneDropped eventNamed 2 := by
  have reached : ((system eventNamed 2).run (start [{}]) failedThrice).map
      (fun s => (s.delivered.length, s.dlq)) = some (1, [⟨"e1", "e1"⟩]) := by decide +kernel
  have sound : (system eventNamed 2).Along (Sound eventNamed) (start [{}]) failedThrice := by
    decide +kernel
  obtain ⟨s, ran, ends⟩ := Option.map_eq_some_iff.mp reached
  obtain ⟨delivered, dlq⟩ := Prod.mk.inj ends
  exact ⟨s, ran, delivered, dlq, noneDropped_of_sound sound ran⟩

/-- A message that fails once is committed with its batch. -/
theorem failed_message_committed :
    ∃ s, (system eventNamed 2).run (start [{}]) (consumed [true, false]) = some s ∧
      ¬ s.NoneDropped eventNamed 2 := by
  refine ⟨{
    topic := [⟨[some "e1"], 1, some 1⟩]
    failureCounts := [("e1", 1)]
    delivered := [⟨0, 0, some "e1"⟩]
    processed := [(⟨0, 0, some "e1"⟩, 0)] }, by decide +kernel, fun settled => ?_⟩
  rcases settled _ (.head _) _ rfl 1 rfl (by decide) with each | ⟨value, event, -, -, letter⟩
  · have second := each 1 (by decide)
    revert second
    decide
  · cases letter

end OneMessage

end ConsumeLoop

end MiniHedge.Shared
