import MiniHedge.Library.PartitionedLog
import MiniHedge.Library.Transition
import Mathlib.Algebra.GroupWithZero.Nat

/-! Consumers that poll a batch, handle its messages in turn, and then commit.

What the messages leave behind are the effects of the consumer. It reads a topic
from the start where nothing is committed, and a restart may come between any two
steps. Where a commit waits until all that was handled is settled, what is
committed is settled. Where no position goes back to a message that is done, no
message is done twice.
-/

set_option autoImplicit false

namespace MiniHedge.Library

variable {M E I J : Type}

structure Consumer (M E : Type) where
  topic : Topic M
  /-- The rest of the batch; there is none before the next poll. -/
  batch : Option (List (Delivery M)) := none
  delivered : List (Delivery M) := []
  effects : E
  deriving DecidableEq, Repr

inductive ConsumerInput (M I J : Type) where
  | publish (partition : Nat) (message : M)
  /-- The next batch, of so many messages from each partition. -/
  | poll (taken : List (Nat × Nat))
  | handle (input : I)
  /-- A commit, which may be applied although it raises. -/
  | commit (applied : Bool)
  | background (input : J)
  | assign (partitions : List Nat)
  | restart
  deriving DecidableEq, Repr

/-- What a consumer does with a message, and what happens in the meantime. -/
structure Handling (M E I J : Type) where
  maxRecords : Nat
  handle : E → Delivery M → I → Option E
  background : E → J → Option E
  /-- What a restart leaves of the effects. -/
  restarted : E → E

namespace Consumer

/-! ## Steps -/

def start (topic : Topic M) (effects : E) : Consumer M E :=
  { topic := topic.rewind (List.range topic.length), effects }

variable (handling : Handling M E I J)

/-- There is a commit only after a batch with messages. -/
def step (s : Consumer M E) : ConsumerInput M I J → Option (Consumer M E)
  | .publish i message => some { s with topic := s.topic.append i message }
  | .poll taken =>
    if s.batch.isNone ∧ (taken.map (·.2)).sum ≤ handling.maxRecords then
      let (topic, batch) := s.topic.poll taken
      some { s with
        topic
        batch := if batch.isEmpty then none else some batch
        delivered := s.delivered ++ batch }
    else none
  | .handle input =>
    match s.batch with
    | some (d :: rest) =>
      (handling.handle s.effects d input).map fun effects => { s with batch := some rest, effects }
    | some [] | none => none
  | .commit applied =>
    match s.batch with
    | some [] =>
      some { s with batch := none, topic := if applied then s.topic.commit else s.topic }
    | some (_ :: _) | none => none
  | .background input =>
    (handling.background s.effects input).map fun effects => { s with effects }
  | .assign partitions => some { s with topic := s.topic.rewind partitions }
  | .restart => some { s with
      topic := s.topic.rewind (List.range s.topic.length)
      batch := none
      effects := handling.restarted s.effects }

def system : System (Consumer M E) (ConsumerInput M I J) where
  step := step handling

/-- The offset of the message is committed. -/
def Committed (s : Consumer M E) (d : Delivery M) : Prop :=
  d ∈ s.delivered ∧ ∃ p ∈ s.topic[d.partition]?, ∃ committed ∈ p.committed, d.offset < committed

end Consumer

/-! ## The rule -/

section Rule

-- `waiting` are the messages that have been handled and are not settled yet
variable (settled : E → Delivery M → Prop) (waiting : E → List (Delivery M))

/-- What is settled stays so, and the other messages are settled or wait. -/
structure Passes (before : List (Delivery M)) (e e' : E) : Prop where
  still : ∀ d, settled e d → settled e' d
  fewer : waiting e' ⊆ before
  passed : ∀ d ∈ before, settled e' d ∨ d ∈ waiting e'

variable (handling : Handling M E I J) (inv : E → Prop) (admits : E → Delivery M → I → Prop)

-- `produced` is what is known of all messages of the topic
variable (produced : M → Prop)

structure Handling.Settles : Prop where
  handle : ∀ {e e' d input}, inv e → produced d.message → admits e d input →
    handling.handle e d input = some e' → inv e' ∧ Passes settled waiting (d :: waiting e) e e'
  background : ∀ {e e' input}, inv e → handling.background e input = some e' →
    inv e' ∧ Passes settled waiting (waiting e) e e'
  restarted : ∀ {e}, inv e → inv (handling.restarted e) ∧
    (∀ d, settled e d → settled (handling.restarted e) d) ∧ waiting (handling.restarted e) = []

/-- Messages are handled as the rule admits, and none waits when a position is committed. -/
def Consumer.Sound (s : Consumer M E) : ConsumerInput M I J → Prop
  | .handle input => ∀ d ∈ (s.batch.getD []).head?, admits s.effects d input
  | .commit applied => applied → waiting s.effects = []
  | .publish .. | .poll _ | .background _ | .assign _ | .restart => True

instance [∀ e d input, Decidable (admits e d input)] (s : Consumer M E)
    (input : ConsumerInput M I J) : Decidable (Consumer.Sound waiting admits s input) :=
  match input with
  | .handle _ => inferInstanceAs (Decidable (∀ d ∈ (s.batch.getD []).head?, _))
  | .commit applied => inferInstanceAs (Decidable (applied = true → waiting s.effects = []))
  | .publish .. | .poll _ | .background _ | .assign _ | .restart => isTrue trivial

/-- The message may be published. -/
def ConsumerInput.Publishes : ConsumerInput M I J → Prop
  | .publish _ message => produced message
  | .poll _ | .handle _ | .commit _ | .background _ | .assign _ | .restart => True

namespace Consumer

variable {settled waiting handling inv admits produced} {s s' : Consumer M E}

variable (settled waiting inv produced) in
structure Kept (s : Consumer M E) : Prop where
  covers : s.topic.Covers s.delivered (s.batch.getD [] ++ waiting s.effects) (settled s.effects)
  inv : inv s.effects
  logged : ∀ p ∈ s.topic, ∀ message ∈ p.log, produced message
  batched : ∀ d ∈ s.batch.getD [], produced d.message

theorem Kept.settled_of_committed (kept : s.Kept settled waiting inv produced) {d : Delivery M}
    (committed : s.Committed d) : settled s.effects d ∧ produced d.message := by
  obtain ⟨member, p, found, offset, held, passed⟩ := committed
  refine ⟨kept.covers.settled_of_committed member found held passed, ?_⟩
  have recorded := kept.covers.recorded d member p found
  exact kept.logged p (List.mem_of_getElem? found) _ (List.mem_of_getElem? recorded)

theorem kept_start {effects : E} {topic : Topic M} (initial : inv effects)
    (none : waiting effects = []) (logged : ∀ p ∈ topic, ∀ message ∈ p.log, produced message) :
    (start topic effects).Kept settled waiting inv produced := by
  refine ⟨⟨Topic.behind_rewind_all topic, ?_, ?_, ?_⟩, initial, ?_, ?_⟩
  · exact fun d member => absurd member List.not_mem_nil
  · intro d member
    simp [start, none] at member
  · exact fun d member => absurd member List.not_mem_nil
  · exact Topic.rewind_forall logged _
  · exact fun d member => absurd member List.not_mem_nil

theorem Kept.poll (kept : s.Kept settled waiting inv produced) (taken : List (Nat × Nat))
    (idle : s.batch.isNone) :
    Kept settled waiting inv produced { s with
      topic := (s.topic.poll taken).1
      batch := if (s.topic.poll taken).2.isEmpty then none else some (s.topic.poll taken).2
      delivered := s.delivered ++ (s.topic.poll taken).2 } := by
  have rest : (if (s.topic.poll taken).2.isEmpty then none
      else some (s.topic.poll taken).2).getD [] = (s.topic.poll taken).2 := by
    split
    · rename_i empty
      exact (List.isEmpty_iff.mp empty).symm
    · rfl
  have polled := kept.covers.poll taken
  rw [Option.isNone_iff_eq_none.mp idle, Option.getD_none, List.nil_append] at polled
  refine ⟨?_, kept.inv, ?_, ?_⟩
  · dsimp only
    rw [rest]
    refine polled.settle (fun d member => ?_) (fun d settled => settled) fun d member => .inr ?_
    · exact List.mem_append.mpr (List.mem_append.mp member).symm
    · exact List.mem_append.mpr (List.mem_append.mp member).symm
  · intro p' member
    obtain ⟨i, found⟩ := List.getElem?_of_mem member
    obtain ⟨p, before, log, -⟩ := (Topic.poll_polled s.topic taken).moved.back found
    rw [log]
    exact kept.logged p (List.mem_of_getElem? before)
  · dsimp only
    rw [rest]
    exact Topic.poll_forall kept.logged taken

theorem Kept.step (settles : handling.Settles settled waiting inv admits produced)
    {input : ConsumerInput M I J} (kept : s.Kept settled waiting inv produced)
    (sound : Sound waiting admits s input) (publishes : input.Publishes produced)
    (stepped : step handling s input = some s') : s'.Kept settled waiting inv produced := by
  cases input with
  | publish i message =>
    cases stepped
    exact ⟨kept.covers.append i message, kept.inv, Topic.append_forall kept.logged publishes i,
      kept.batched⟩
  | poll taken =>
    simp only [Consumer.step] at stepped
    split at stepped
    · rename_i idle
      cases stepped
      exact kept.poll taken idle.1
    · cases stepped
  | handle input =>
    simp only [Consumer.step] at stepped
    split at stepped
    · rename_i d rest next
      obtain ⟨effects, handled, rfl⟩ := Option.map_eq_some_iff.mp stepped
      -- the handler settles the message or leaves it waiting
      have own : produced d.message := kept.batched d (by simp [next])
      obtain ⟨inv', passes⟩ := settles.handle kept.inv own (sound d (by simp [next])) handled
      have covers := kept.covers
      rw [next, Option.getD_some, List.cons_append] at covers
      -- what is handled leaves the batch, and only what waits is kept for it
      refine ⟨covers.settle (fun other member => ?_) passes.still fun other member => ?_, inv',
        kept.logged, fun other later => kept.batched other (by simp_all)⟩
      · rcases List.mem_append.mp member with later | left
        · exact List.mem_cons_of_mem d (List.mem_append_left _ later)
        · rcases List.mem_cons.mp (passes.fewer left) with rfl | before
          · exact List.mem_cons_self
          · exact List.mem_cons_of_mem d (List.mem_append_right _ before)
      · have later : other ∈ rest ∨ other ∈ d :: waiting s.effects := by
          simp only [List.mem_cons, List.mem_append] at member ⊢
          tauto
        rcases later with later | handled
        · exact .inr (List.mem_append_left _ later)
        · exact (passes.passed other handled).imp id (List.mem_append_right _)
    · cases stepped
    · cases stepped
  | commit applied =>
    simp only [Consumer.step] at stepped
    split at stepped
    · rename_i handled
      cases stepped
      have covers := kept.covers
      rw [handled, Option.getD_some, List.nil_append] at covers
      refine ⟨?_, kept.inv, ?_, fun d member => absurd member List.not_mem_nil⟩
      · change Topic.Covers _ s.delivered ([] ++ waiting s.effects) (settled s.effects)
        rw [List.nil_append]
        cases applied with
        | false => exact covers
        | true =>
          -- where the commit is applied, nothing waits
          rw [sound rfl] at covers ⊢
          exact covers.commit
      · cases applied with
        | false => exact kept.logged
        | true => exact Topic.commit_forall kept.logged
    · cases stepped
    · cases stepped
  | background input =>
    obtain ⟨effects, happened, rfl⟩ := Option.map_eq_some_iff.mp stepped
    obtain ⟨inv', passes⟩ := settles.background kept.inv happened
    -- what happens in the background takes from what waits
    refine ⟨kept.covers.settle (fun other member => ?_) passes.still fun other member => ?_, inv',
      kept.logged, kept.batched⟩
    · exact List.mem_append.mpr ((List.mem_append.mp member).imp id fun left => passes.fewer left)
    · rcases List.mem_append.mp member with later | before
      · exact .inr (List.mem_append_left _ later)
      · exact (passes.passed other before).imp id (List.mem_append_right _)
  | assign partitions =>
    cases stepped
    exact ⟨kept.covers.rewind partitions, kept.inv, Topic.rewind_forall kept.logged partitions,
      kept.batched⟩
  | restart =>
    cases stepped
    -- nothing waits after a restart: the topic starts over instead
    obtain ⟨inv', still, none⟩ := settles.restarted kept.inv
    refine ⟨?_, inv', Topic.rewind_forall kept.logged _, fun d member =>
      absurd member List.not_mem_nil⟩
    change Topic.Covers _ s.delivered ([] ++ waiting (handling.restarted s.effects)) _
    rw [none, List.append_nil]
    exact kept.covers.startOver.settle (List.Subset.refl _) still fun _ member =>
      absurd member List.not_mem_nil

/-- In runs whose steps are sound, what is committed is settled. -/
theorem kept_of_sound (settles : handling.Settles settled waiting inv admits produced)
    {topic : Topic M} {effects : E} {inputs : List (ConsumerInput M I J)} (initial : inv effects)
    (none : waiting effects = []) (logged : ∀ p ∈ topic, ∀ message ∈ p.log, produced message)
    (publishes : ∀ input ∈ inputs, input.Publishes produced)
    (sound : (system handling).Along (Sound waiting admits) (start topic effects) inputs)
    (ran : (system handling).run (start topic effects) inputs = some s) :
    s.Kept settled waiting inv produced := by
  have along := sound.and (System.along_of_forall publishes _)
  refine System.invariant_along (fun before input after kept met stepped => ?_) along ran
    (kept_start initial none logged)
  exact Kept.step settles kept met.1 met.2 stepped

end Consumer

end Rule

/-! ## What is handled once -/

section Once

-- `done` are the messages that are not to be handled again
variable (done : E → List (Delivery M)) (handling : Handling M E I J)

structure Handling.Marks : Prop where
  handle : ∀ {e e' d input}, handling.handle e d input = some e' → done e' ⊆ d :: done e
  background : ∀ {e e' input}, handling.background e input = some e' → done e' ⊆ done e
  restarted : ∀ e, done (handling.restarted e) ⊆ done e

namespace Consumer

/-- Nothing that is done is read again: a restart or a rebalance goes back to no message that is
done, and a rebalance to none of the batch. -/
def ReadsOn (s : Consumer M E) : ConsumerInput M I J → Prop
  | .restart => ∀ d ∈ done s.effects, s.topic.NotReread (List.range s.topic.length) d
  | .assign partitions => ∀ d ∈ done s.effects ++ s.batch.getD [], s.topic.NotReread partitions d
  | .publish .. | .poll _ | .handle _ | .commit _ | .background _ => True

instance (s : Consumer M E) (input : ConsumerInput M I J) : Decidable (ReadsOn done s input) :=
  match input with
  | .restart => inferInstanceAs (Decidable (∀ d ∈ done s.effects, _))
  | .assign _ => inferInstanceAs (Decidable (∀ d ∈ done s.effects ++ s.batch.getD [], _))
  | .publish .. | .poll _ | .handle _ | .commit _ | .background _ => isTrue trivial

/-- What is done or in the batch is past, and nothing is both or in the batch twice. -/
structure ReadOnce (s : Consumer M E) : Prop where
  past : ∀ d ∈ done s.effects ++ s.batch.getD [], s.topic.Past d
  distinct : (s.batch.getD []).Nodup
  apart : ∀ d ∈ done s.effects, d ∉ s.batch.getD []

variable {done handling} {s s' : Consumer M E}

theorem ReadOnce.step (marks : handling.Marks done) {input : ConsumerInput M I J} (once : s.ReadOnce done)
    (readsOn : ReadsOn done s input) (stepped : step handling s input = some s') : s'.ReadOnce done := by
  cases input with
  | publish i message =>
    cases stepped
    exact ⟨fun d member => (once.past d member).append i message, once.distinct, once.apart⟩
  | poll taken =>
    simp only [Consumer.step] at stepped
    split at stepped
    · rename_i idle
      cases stepped
      obtain ⟨still, read, distinct⟩ := s.topic.poll_reads taken
      have rest : (if (s.topic.poll taken).2.isEmpty then none
          else some (s.topic.poll taken).2).getD [] = (s.topic.poll taken).2 := by
        split
        · rename_i empty
          exact (List.isEmpty_iff.mp empty).symm
        · rfl
      have earlier : ∀ d ∈ done s.effects, s.topic.Past d := fun d member =>
        once.past d (List.mem_append_left _ member)
      refine ⟨fun d member => ?_, ?_, fun d member batch => ?_⟩
      · dsimp only at member
        rw [rest] at member
        rcases List.mem_append.mp member with before | batch
        · exact still d (earlier d before)
        · exact (read d batch).2
      · dsimp only
        rw [rest]
        exact distinct
      · dsimp only at batch
        rw [rest] at batch
        exact (read d batch).1 (earlier d member)
    · cases stepped
  | handle input =>
    simp only [Consumer.step] at stepped
    split at stepped
    · rename_i d rest next
      obtain ⟨effects, handled, rfl⟩ := Option.map_eq_some_iff.mp stepped
      obtain ⟨past, distinct, apart⟩ := once
      rw [next, Option.getD_some] at past distinct apart
      obtain ⟨absent, distinct⟩ := List.nodup_cons.mp distinct
      have more := marks.handle handled
      refine ⟨fun other member => ?_, distinct, fun other member batch => ?_⟩
      · rcases List.mem_append.mp member with marked | later
        · rcases List.mem_cons.mp (more marked) with rfl | before
          · exact past other (List.mem_append_right _ List.mem_cons_self)
          · exact past other (List.mem_append_left _ before)
        · exact past other (List.mem_append_right _ (List.mem_cons_of_mem d later))
      · rcases List.mem_cons.mp (more member) with rfl | before
        · exact absent batch
        · exact apart other before (List.mem_cons_of_mem d batch)
    · cases stepped
    · cases stepped
  | commit applied =>
    simp only [Consumer.step] at stepped
    split at stepped
    · rename_i handled
      cases stepped
      refine ⟨fun d member => ?_, List.nodup_nil, fun d _ => List.not_mem_nil⟩
      have before := once.past d (List.mem_append_left _ (by simpa using member))
      cases applied with
      | false => exact before
      | true => exact before.commit
    · cases stepped
    · cases stepped
  | background input =>
    obtain ⟨effects, happened, rfl⟩ := Option.map_eq_some_iff.mp stepped
    have fewer := marks.background happened
    refine ⟨fun d member => ?_, once.distinct, fun d member => once.apart d (fewer member)⟩
    exact once.past d (List.mem_append.mpr ((List.mem_append.mp member).imp (fun marked => fewer marked) id))
  | assign partitions =>
    cases stepped
    exact ⟨fun d member => (once.past d member).rewind (readsOn d member), once.distinct, once.apart⟩
  | restart =>
    cases stepped
    refine ⟨fun d member => ?_, List.nodup_nil, fun d _ => List.not_mem_nil⟩
    have before := marks.restarted s.effects (by simpa using member)
    exact (once.past d (List.mem_append_left _ before)).rewind (readsOn d before)

theorem readOnce_start {topic : Topic M} {effects : E} (none : done effects = []) :
    (start topic effects).ReadOnce done :=
  ⟨by simp [start, none], List.nodup_nil, by simp [start]⟩

/-- The next message is not done. -/
theorem ReadOnce.fresh (once : s.ReadOnce done) {d : Delivery M} (next : d ∈ (s.batch.getD []).head?) :
    d ∉ done s.effects :=
  fun marked => once.apart d marked (List.mem_of_head? next)

end Consumer

end Once

end MiniHedge.Library
