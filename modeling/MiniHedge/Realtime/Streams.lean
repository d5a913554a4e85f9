import MiniHedge.Library.Transition
import MiniHedge.Positions.TradeHandler
import MiniHedge.Shared.Events
import Mathlib.Data.List.Chain

/-! The bridge from the topics to the streams of the browsers.

Each topic has its own loop, which makes the calls of an event's handlers one after
another; the loops, the streams and the client of a stream take their steps in any order.
An attempt to publish succeeds, finds no free connection, or raises: then the message may
have gone out. A published message is put to every stream that listens to its channel.
-/

set_option autoImplicit false

namespace MiniHedge.Realtime

open MiniHedge.Library MiniHedge.Shared
open MiniHedge.Positions (fundTopic truthy)

/-! ## Topics and channels -/

def sharedTopic (base : String) : String := "shared." ++ base

def sharedTopics : List String :=
  ["prices.normalized", "fx-rates.normalized", "interest-rates", "fx-forwards", "audit", "regulatory",
    "capital.allocation", "capital.subscription", "capital.redemption", "market-data.status",
    "investor-operations"].map sharedTopic

def auditBases : List String :=
  ["positions.changed", "trades.executed", "exposures.updated", "compliance.violations", "orders.created",
    "orders.filled", "trades.approved", "trades.rejected", "risk.updated", "cash.settlement.created",
    "cash.settlement.settled", "fx-hedging.events"]

def otherBases : List String :=
  ["pnl.updated", "order_intents.generated", "fees.accrued", "fees.crystallized", "corporate_actions.processed",
    "tca.computed", "risk.limit_breached", "cash.projected", "cash.settlement_due", "cash.balance_warning"]

def fundAuditTopicsForSlug (fundSlug : String) : List String := auditBases.map (fundTopic fundSlug)

def fundTopicsForSlug (fundSlug : String) : List String :=
  fundAuditTopicsForSlug fundSlug ++ otherBases.map (fundTopic fundSlug)

def pricesChannel : String := "shared:prices"

def fundChannel (fundSlug : String) : String := "fund:" ++ fundSlug ++ ":events"

/-- The subscriptions of `wire`: the topic, and the channel of the handler. -/
def wire (fundSlugs : List String) : List (String × String) :=
  sharedTopics.map (fun topic => (topic, pricesChannel)) ++
    fundSlugs.flatMap fun slug => (fundTopicsForSlug slug).map fun topic => (topic, fundChannel slug)

def channelsOf (fundSlugs : List String) (topic : String) : List String :=
  ((wire fundSlugs).filter fun subscription => subscription.1 = topic).map (·.2)

/-- The channels of `stream_events`, for the fund of the request. -/
def streamChannels (fundSlug : Option String) : List String :=
  pricesChannel :: ((truthy fundSlug).map fundChannel).toList

/-! ## State and steps -/

def maxRetries : ℕ := 3

/-- A call of a handler, and how many attempts it has made. -/
structure Call where
  topic : String
  event : BaseEvent
  channel : String
  attempt : ℕ := 0
  deriving DecidableEq, Repr

inductive Outcome where
  | published
  /-- No free connection in the pool. -/
  | exhausted
  | failed (applied : Bool)
  deriving DecidableEq, Repr

def Outcome.reached : Outcome → Bool
  | .published => true
  | .exhausted => false
  | .failed applied => applied

structure Stream where
  fundSlug : Option String
  connected : Bool := true
  /-- What the subscription holds, and what the browser was sent. -/
  queue : List Call := []
  sent : List Call := []
  deriving DecidableEq, Repr

structure Bridge where
  /-- For each topic, the calls that its loop has still to finish. -/
  calls : String → List Call := fun _ => []
  streams : List Stream := []
  dropCount : ℕ := 0
  lastDropLog : ℚ := 0
  -- what has happened so far: the warnings with the drops that they report, the events
  -- that the loops took, and the calls that are over
  warnings : List (ℚ × ℕ) := []
  consumed : List (String × BaseEvent) := []
  settled : List (Call × Outcome) := []

inductive Input where
  | consume (topic : String) (event : BaseEvent)
  /-- The next attempt of the topic's loop, and the time after it. -/
  | attempt (topic : String) (outcome : Outcome) (now : ℚ)
  | connect (fundSlug : Option String)
  | send (stream : ℕ)
  | disconnect (stream : ℕ)
  deriving DecidableEq, Repr

def Stream.received (stream : Stream) : List Call := stream.sent ++ stream.queue

def Stream.listens (stream : Stream) (call : Call) : Bool :=
  stream.connected && decide (call.channel ∈ streamChannels stream.fundSlug)

def Stream.deliver (stream : Stream) (call : Call) : Stream :=
  if stream.listens call then { stream with queue := stream.queue ++ [call] } else stream

namespace Bridge

variable (fundSlugs : List String) (s : Bridge)

def publish (call : Call) : Bridge := { s with streams := s.streams.map fun stream => stream.deliver call }

/-- `_record_drop`, with one warning a second at most. -/
def recordDrop (now : ℚ) : Bridge :=
  if 1 ≤ now - s.lastDropLog then
    { s with dropCount := 0, lastDropLog := now, warnings := s.warnings ++ [(now, s.dropCount + 1)] }
  else { s with dropCount := s.dropCount + 1 }

def settle (call : Call) (rest : List Call) (outcome : Outcome) : Bridge :=
  { s with calls := Function.update s.calls call.topic rest, settled := s.settled ++ [(call, outcome)] }

def attempt (call : Call) (rest : List Call) (now : ℚ) : Outcome → Bridge
  | .published => (s.publish call).settle call rest .published
  | .exhausted =>
    if call.attempt < maxRetries then
      { s with calls := Function.update s.calls call.topic ({ call with attempt := call.attempt + 1 } :: rest) }
    else (s.recordDrop now).settle call rest .exhausted
  | .failed applied => (if applied then s.publish call else s).settle call rest (.failed applied)

def step : Input → Option Bridge
  | .consume topic event =>
    if s.calls topic = [] then some { s with
      calls := Function.update s.calls topic
        ((channelsOf fundSlugs topic).map fun channel => { topic, event, channel })
      consumed := s.consumed ++ [(topic, event)] }
    else none
  | .attempt topic outcome now =>
    match s.calls topic with
    | [] => none
    | call :: rest => some (s.attempt call rest now outcome)
  | .connect fundSlug => some { s with streams := s.streams ++ [{ fundSlug }] }
  | .send i =>
    match s.streams[i]? with
    | some { connected := true, queue := call :: queue, fundSlug, sent } =>
      some { s with streams := s.streams.set i { fundSlug, queue, sent := sent ++ [call] } }
    | _ => none
  | .disconnect i => some { s with streams := s.streams.modify i fun stream => { stream with connected := false } }

end Bridge

def bridge (fundSlugs : List String) : System Bridge Input where
  step := Bridge.step fundSlugs

/-! ## Topics are apart -/

theorem fundTopicsForSlug_eq (fundSlug : String) :
    fundTopicsForSlug fundSlug = (auditBases ++ otherBases).map (fundTopic fundSlug) :=
  List.map_append.symm

/-- Where two texts are joined by the same letter, they come apart at the same place,
unless one end holds the letter and the other end. -/
theorem append_cons_inj {α : Type} {first second before after : List α} {letter : α}
    (one : ¬ letter :: after <:+ before) (other : ¬ letter :: before <:+ after)
    (same : first ++ letter :: before = second ++ letter :: after) : first = second ∧ before = after := by
  obtain ⟨between, rest⟩ | ⟨between, rest⟩ := List.append_eq_append_iff.mp same
  · cases between' : between with
    | nil => simp_all
    | cons head tail =>
      rw [between', List.cons_append, List.cons.injEq] at rest
      exact absurd ⟨tail, rest.2.2.symm⟩ one
  · cases between' : between with
    | nil => simp_all
    | cons head tail =>
      rw [between', List.cons_append, List.cons.injEq] at rest
      exact absurd ⟨tail, rest.2.2.symm⟩ other

/-- No base topic ends in a dot and another one. -/
theorem bases_apart : ∀ base ∈ auditBases ++ otherBases, ∀ other ∈ auditBases ++ otherBases,
    ¬ '.' :: other.toList <:+ base.toList := by
  decide

/-- A topic of a fund tells which fund it is of, whatever the slugs are. -/
theorem fund_of_topic {topic fundSlug other : String} (member : topic ∈ fundTopicsForSlug fundSlug)
    (shared : topic ∈ fundTopicsForSlug other) : fundSlug = other := by
  rw [fundTopicsForSlug_eq, List.mem_map] at member shared
  obtain ⟨base, base_mem, rfl⟩ := member
  obtain ⟨otherBase, other_mem, same⟩ := shared
  have texts := congrArg String.toList same
  simp only [fundTopic, String.toList_append, List.append_assoc, List.append_cancel_left_eq] at texts
  have apart := append_cons_inj (bases_apart otherBase other_mem base base_mem)
    (bases_apart base base_mem otherBase other_mem) texts
  exact (String.toList_inj.mp apart.1).symm

theorem shared_not_fund {topic : String} (shared : topic ∈ sharedTopics) (fundSlug : String) :
    topic ∉ fundTopicsForSlug fundSlug := by
  intro member
  rw [fundTopicsForSlug_eq, List.mem_map] at member
  obtain ⟨base, -, rfl⟩ := member
  have starts : ∀ t ∈ sharedTopics, t.toList.head? = some 's' := by decide
  have head := starts _ shared
  simp [fundTopic, String.toList_append] at head

theorem fundChannel_inj {fundSlug other : String} (same : fundChannel fundSlug = fundChannel other) :
    fundSlug = other := by
  have texts := congrArg String.toList same
  simp only [fundChannel, String.toList_append, List.append_assoc, List.append_cancel_left_eq,
    List.append_cancel_right_eq] at texts
  exact String.toList_inj.mp texts

theorem pricesChannel_ne (fundSlug : String) : pricesChannel ≠ fundChannel fundSlug := by
  intro same
  have heads := congrArg (fun channel => channel.toList.head?) same
  simp [pricesChannel, fundChannel, String.toList_append] at heads

/-- The subscriptions of some topics to one channel, as far as they are to one topic. -/
theorem filter_subscriptions {topics : List String} (nodup : topics.Nodup) (channel topic : String) :
    (topics.map fun t => (t, channel)).filter (fun subscription => subscription.1 = topic) =
      if topic ∈ topics then [(topic, channel)] else [] := by
  rw [List.filter_map]
  have alike : ((fun subscription : String × String => decide (subscription.1 = topic)) ∘ fun t => (t, channel)) =
      fun t => decide (t = topic) := rfl
  rw [alike, List.filter_eq]
  split
  · rename_i member
    rw [List.count_eq_one_of_mem nodup member]
    rfl
  · rename_i absent
    rw [List.count_eq_zero_of_not_mem absent]
    rfl

theorem fundTopics_nodup (fundSlug : String) : (fundTopicsForSlug fundSlug).Nodup := by
  rw [fundTopicsForSlug_eq]
  exact List.Nodup.map (fun _ _ same => Positions.fundTopic_inj.mp same) (by decide)

theorem mem_channelsOf {fundSlugs : List String} {topic channel : String}
    (member : channel ∈ channelsOf fundSlugs topic) :
    channel = pricesChannel ∧ topic ∈ sharedTopics ∨
      ∃ slug ∈ fundSlugs, channel = fundChannel slug ∧ topic ∈ fundTopicsForSlug slug := by
  simp only [channelsOf, wire, List.mem_map, List.mem_filter, List.mem_append, List.mem_flatMap,
    decide_eq_true_eq] at member
  obtain ⟨subscription, ⟨⟨shared, shared_mem, rfl⟩ | ⟨slug, slug_mem, ours, ours_mem, rfl⟩, rfl⟩, rfl⟩ := member
  · exact .inl ⟨rfl, shared_mem⟩
  · exact .inr ⟨slug, slug_mem, rfl, ours_mem⟩

/-- What an event of a shared topic, or of a fund's topic, is published to. -/
theorem channelsOf_eq {fundSlugs : List String} (nodup : fundSlugs.Nodup) (topic : String) :
    (topic ∈ sharedTopics → channelsOf fundSlugs topic = [pricesChannel]) ∧
      ∀ slug ∈ fundSlugs, topic ∈ fundTopicsForSlug slug → channelsOf fundSlugs topic = [fundChannel slug] := by
  have others : ∀ slugs : List String, (∀ slug ∈ slugs, topic ∉ fundTopicsForSlug slug) →
      ((slugs.flatMap fun slug => (fundTopicsForSlug slug).map fun t => (t, fundChannel slug)).filter
        fun subscription => subscription.1 = topic) = [] := by
    intro slugs absent
    rw [List.filter_eq_nil_iff]
    intro subscription member
    obtain ⟨slug, slug_mem, ours⟩ := List.mem_flatMap.mp member
    obtain ⟨t, t_mem, rfl⟩ := List.mem_map.mp ours
    rw [decide_eq_true_eq]
    rintro rfl
    exact absent slug slug_mem t_mem
  constructor
  · intro shared
    rw [channelsOf, wire, List.filter_append, filter_subscriptions (by decide), if_pos shared,
      others fundSlugs fun slug _ => shared_not_fund shared slug]
    rfl
  · intro slug slug_mem ours
    have absent : topic ∉ sharedTopics := fun shared => shared_not_fund shared slug ours
    obtain ⟨before, after, rfl⟩ := List.append_of_mem slug_mem
    have apart : ∀ other ∈ before ++ after, topic ∉ fundTopicsForSlug other := by
      intro other other_mem theirs
      have same := fund_of_topic ours theirs
      rw [List.nodup_middle, List.nodup_cons] at nodup
      exact nodup.1 (same ▸ other_mem)
    rw [channelsOf, wire, List.filter_append, filter_subscriptions (by decide), if_neg absent,
      List.flatMap_append, List.filter_append, List.flatMap_cons, List.filter_append,
      filter_subscriptions (fundTopics_nodup slug), if_pos ours,
      others before fun other member => apart other (List.mem_append_left _ member),
      others after fun other member => apart other (List.mem_append_right _ member)]
    rfl

/-! ## What a step does -/

/-- The events that the loop of a topic took. -/
def Bridge.consumedOn (s : Bridge) (topic : String) : List BaseEvent :=
  (s.consumed.filter fun taken => taken.1 = topic).map (·.2)

def settledOn (settled : List (Call × Outcome)) (topic : String) : List (Call × Outcome) :=
  settled.filter fun result => result.1.topic = topic

inductive Effect (fundSlugs : List String) (s : Bridge) : Bridge → Prop where
  | consumed {topic : String} {event : BaseEvent} (idle : s.calls topic = []) : Effect fundSlugs s { s with
      calls := Function.update s.calls topic
        ((channelsOf fundSlugs topic).map fun channel => { topic, event, channel })
      consumed := s.consumed ++ [(topic, event)] }
  | retried {topic : String} {call : Call} {rest : List Call} (first : s.calls topic = call :: rest)
      (again : call.attempt < maxRetries) : Effect fundSlugs s { s with
        calls := Function.update s.calls call.topic ({ call with attempt := call.attempt + 1 } :: rest) }
  | settled {topic : String} {call : Call} {rest : List Call} (outcome : Outcome) {next : Bridge}
      (first : s.calls topic = call :: rest) (spent : outcome = .exhausted → maxRetries ≤ call.attempt)
      (calls : next.calls = Function.update s.calls call.topic rest)
      (settled : next.settled = s.settled ++ [(call, outcome)])
      (streams : next.streams = if outcome.reached then s.streams.map (·.deliver call) else s.streams)
      (consumed : next.consumed = s.consumed) : Effect fundSlugs s next
  | connected (fundSlug : Option String) : Effect fundSlugs s { s with streams := s.streams ++ [{ fundSlug }] }
  | sent {i : ℕ} {fundSlug : Option String} {call : Call} {queue sent : List Call}
      (found : s.streams[i]? = some { fundSlug, queue := call :: queue, sent }) :
      Effect fundSlugs s { s with streams := s.streams.set i { fundSlug, queue, sent := sent ++ [call] } }
  | disconnected (i : ℕ) : Effect fundSlugs s
      { s with streams := s.streams.modify i fun stream => { stream with connected := false } }

section Steps

variable {fundSlugs : List String} {s next : Bridge} {input : Input}

theorem attempt_effect {topic : String} {call : Call} {rest : List Call} (now : ℚ) (outcome : Outcome)
    (first : s.calls topic = call :: rest) : Effect fundSlugs s (s.attempt call rest now outcome) := by
  cases outcome with
  | published => exact .settled .published first (fun no => nomatch no) rfl rfl rfl rfl
  | exhausted =>
    rw [Bridge.attempt]
    split
    · exact .retried first ‹_›
    · have spent : maxRetries ≤ call.attempt := Nat.le_of_not_lt ‹_›
      rw [Bridge.recordDrop]
      split <;> exact .settled .exhausted first (fun _ => spent) rfl rfl rfl rfl
  | failed applied =>
    cases applied <;> exact .settled (.failed _) first (fun no => nomatch no) rfl rfl rfl rfl

theorem effect_of_step (stepped : (bridge fundSlugs).step s input = some next) : Effect fundSlugs s next := by
  simp only [bridge] at stepped
  cases input with
  | consume topic event =>
    rw [Bridge.step] at stepped
    split at stepped
    · cases stepped
      exact .consumed ‹_›
    · cases stepped
  | attempt topic outcome now =>
    rw [Bridge.step] at stepped
    split at stepped
    · cases stepped
    · cases stepped
      exact attempt_effect now outcome ‹_›
  | connect fundSlug =>
    cases stepped
    exact .connected fundSlug
  | send i =>
    rw [Bridge.step] at stepped
    split at stepped
    · cases stepped
      exact .sent ‹_›
    · cases stepped
  | disconnect i =>
    cases stepped
    exact .disconnected i

end Steps

/-! ## Invariants -/

/-- The call is of a subscription to its topic, for an event that the topic's loop took. -/
structure Routed (fundSlugs : List String) (s : Bridge) (call : Call) : Prop where
  channel : call.channel ∈ channelsOf fundSlugs call.topic
  taken : (call.topic, call.event) ∈ s.consumed

structure Bridge.Valid (fundSlugs : List String) (s : Bridge) : Prop where
  calls : ∀ topic, ∀ call ∈ s.calls topic, call.topic = topic ∧ Routed fundSlugs s call ∧ call.attempt ≤ maxRetries
  streams : ∀ stream ∈ s.streams, ∀ call ∈ stream.received,
    call.channel ∈ streamChannels stream.fundSlug ∧ Routed fundSlugs s call
  spent : ∀ result ∈ s.settled, result.2 = .exhausted → result.1.attempt = maxRetries
  /-- The loop of a topic makes the calls of its events in order, and settles each once. -/
  order : ∀ topic, ((s.consumedOn topic).flatMap fun event =>
      (channelsOf fundSlugs topic).map fun channel => (event, channel)) =
    ((settledOn s.settled topic).map (·.1) ++ s.calls topic).map fun call => (call.event, call.channel)

theorem Routed.mono {fundSlugs : List String} {s next : Bridge} {call : Call} (routed : Routed fundSlugs s call)
    (grows : s.consumed ⊆ next.consumed) : Routed fundSlugs next call :=
  ⟨routed.channel, grows routed.taken⟩

section Kept

variable {fundSlugs : List String} {s next : Bridge}

theorem consumed_grows (effect : Effect fundSlugs s next) : s.consumed <+: next.consumed := by
  cases effect with
  | consumed => exact List.prefix_append _ _
  | settled outcome first spent calls settled streams consumed => rw [consumed]
  | retried => exact List.prefix_rfl
  | connected => exact List.prefix_rfl
  | sent => exact List.prefix_rfl
  | disconnected => exact List.prefix_rfl

theorem calls_kept (valid : s.Valid fundSlugs) (effect : Effect fundSlugs s next) (topic : String) :
    ∀ call ∈ next.calls topic, call.topic = topic ∧ Routed fundSlugs next call ∧ call.attempt ≤ maxRetries := by
  have grows := (consumed_grows effect).subset
  have kept : ∀ call ∈ s.calls topic, call.topic = topic ∧ Routed fundSlugs next call ∧ call.attempt ≤ maxRetries :=
    fun call member => (valid.calls topic call member).imp id (And.imp (·.mono grows) id)
  intro call member
  cases effect with
  | @consumed taken event idle =>
    rcases eq_or_ne topic taken with rfl | apart
    · simp only [Function.update_self, List.mem_map] at member
      obtain ⟨channel, routed, rfl⟩ := member
      exact ⟨rfl, ⟨routed, List.mem_append_right _ (List.mem_singleton_self _)⟩, Nat.zero_le _⟩
    · simp only [Function.update_of_ne apart] at member
      exact kept call member
  | @retried taken one rest first again =>
    rcases eq_or_ne topic one.topic with rfl | apart
    · have head := valid.calls taken one (first ▸ List.mem_cons_self)
      simp only [Function.update_self] at member
      rw [← head.1] at first
      rcases List.mem_cons.mp member with rfl | later
      · exact ⟨rfl, ⟨head.2.1.channel, head.2.1.taken⟩, again⟩
      · exact kept call (first ▸ List.mem_cons_of_mem _ later)
    · simp only [Function.update_of_ne apart] at member
      exact kept call member
  | @settled taken one rest outcome _ first spent calls settled streams consumed =>
    rw [calls] at member
    rcases eq_or_ne topic one.topic with rfl | apart
    · have head := valid.calls taken one (first ▸ List.mem_cons_self)
      rw [Function.update_self] at member
      rw [← head.1] at first
      exact kept call (first ▸ List.mem_cons_of_mem _ member)
    · rw [Function.update_of_ne apart] at member
      exact kept call member
  | connected => exact kept call member
  | sent => exact kept call member
  | disconnected => exact kept call member

theorem received_deliver {stream : Stream} {call got : Call} (member : got ∈ (stream.deliver call).received) :
    got ∈ stream.received ∨ got = call ∧ call.channel ∈ streamChannels stream.fundSlug := by
  rw [Stream.deliver] at member
  split at member
  · rename_i listens
    rw [Stream.received, ← List.append_assoc, List.mem_append, List.mem_singleton] at member
    rw [Stream.listens, Bool.and_eq_true, decide_eq_true_eq] at listens
    exact member.imp id fun same => ⟨same, listens.2⟩
  · exact .inl member

theorem fundSlug_deliver (stream : Stream) (call : Call) : (stream.deliver call).fundSlug = stream.fundSlug := by
  rw [Stream.deliver]
  split <;> rfl

theorem streams_kept (valid : s.Valid fundSlugs) (effect : Effect fundSlugs s next) : ∀ stream ∈ next.streams,
    ∀ call ∈ stream.received, call.channel ∈ streamChannels stream.fundSlug ∧ Routed fundSlugs next call := by
  have grows := (consumed_grows effect).subset
  have kept : ∀ stream ∈ s.streams, ∀ call ∈ stream.received,
      call.channel ∈ streamChannels stream.fundSlug ∧ Routed fundSlugs next call :=
    fun stream member call got => (valid.streams stream member call got).imp id (·.mono grows)
  intro stream member call got
  cases effect with
  | consumed => exact kept stream member call got
  | retried => exact kept stream member call got
  | @settled taken one rest outcome _ first spent calls settled streams consumed =>
    rw [streams] at member
    split at member
    · obtain ⟨old, old_mem, rfl⟩ := List.mem_map.mp member
      rw [fundSlug_deliver]
      rcases received_deliver got with before | ⟨rfl, listens⟩
      · exact kept old old_mem call before
      · exact ⟨listens, (valid.calls taken call (first ▸ List.mem_cons_self)).2.1.mono grows⟩
    · exact kept stream member call got
  | connected =>
    rcases List.mem_append.mp member with old | new
    · exact kept stream old call got
    · cases List.mem_singleton.mp new
      cases got
  | sent found =>
    rcases List.mem_or_eq_of_mem_set member with old | rfl
    · exact kept stream old call got
    · refine kept _ (List.mem_of_getElem? found) call ?_
      rwa [Stream.received, List.append_assoc] at got
  | disconnected i =>
    obtain ⟨j, found⟩ := List.mem_iff_getElem?.mp member
    rw [List.getElem?_modify, Option.map_eq_map, Option.map_eq_some_iff] at found
    obtain ⟨old, old_found, rfl⟩ := found
    have same : (if i = j then { old with connected := false } else old : Stream).fundSlug = old.fundSlug ∧
        (if i = j then { old with connected := false } else old : Stream).received = old.received := by
      split <;> exact ⟨rfl, rfl⟩
    rw [same.2] at got
    rw [same.1]
    exact kept old (List.mem_of_getElem? old_found) call got

theorem spent_kept (valid : s.Valid fundSlugs) (effect : Effect fundSlugs s next) :
    ∀ result ∈ next.settled, result.2 = .exhausted → result.1.attempt = maxRetries := by
  cases effect with
  | @settled taken one rest outcome _ first spent calls settled streams consumed =>
    intro result member exhausted
    rw [settled] at member
    rcases List.mem_append.mp member with old | new
    · exact valid.spent result old exhausted
    · cases List.mem_singleton.mp new
      exact le_antisymm (valid.calls taken one (first ▸ List.mem_cons_self)).2.2 (spent exhausted)
  | consumed => exact valid.spent
  | retried => exact valid.spent
  | connected => exact valid.spent
  | sent => exact valid.spent
  | disconnected => exact valid.spent

theorem order_kept (valid : s.Valid fundSlugs) (effect : Effect fundSlugs s next) (topic : String) :
    ((next.consumedOn topic).flatMap fun event => (channelsOf fundSlugs topic).map fun channel => (event, channel)) =
      ((settledOn next.settled topic).map (·.1) ++ next.calls topic).map fun call => (call.event, call.channel) := by
  have before := valid.order topic
  cases effect with
  | @consumed taken event idle =>
    rw [Bridge.consumedOn, List.filter_append, List.map_append, List.flatMap_append, ← Bridge.consumedOn, before,
      List.filter_singleton]
    rcases eq_or_ne topic taken with rfl | apart
    · simp [idle]
    · simp [Function.update_of_ne apart, Ne.symm apart]
  | @retried taken one rest first again =>
    have head := valid.calls taken one (first ▸ List.mem_cons_self)
    rw [← head.1] at first
    refine before.trans ?_
    rcases eq_or_ne topic one.topic with rfl | apart
    · simp [first]
    · simp [Function.update_of_ne apart]
  | @settled taken one rest outcome _ first spent calls settled streams consumed =>
    have head := valid.calls taken one (first ▸ List.mem_cons_self)
    rw [← head.1] at first
    rw [Bridge.consumedOn, consumed, ← Bridge.consumedOn, before, settled, calls, settledOn, settledOn,
      List.filter_append, List.filter_singleton]
    rcases eq_or_ne topic one.topic with rfl | apart
    · rw [Function.update_self, first]
      simp
    · rw [Function.update_of_ne apart]
      simp [Ne.symm apart]
  | connected => exact before
  | sent => exact before
  | disconnected => exact before

theorem valid_kept (valid : s.Valid fundSlugs) (effect : Effect fundSlugs s next) : next.Valid fundSlugs where
  calls := calls_kept valid effect
  streams := streams_kept valid effect
  spent := spent_kept valid effect
  order := order_kept valid effect

end Kept

theorem valid_run {fundSlugs : List String} {inputs : List Input} {s : Bridge}
    (ran : (bridge fundSlugs).run {} inputs = some s) : s.Valid fundSlugs := by
  refine System.invariant_run (fun s _ next valid stepped => valid_kept valid (effect_of_step stepped)) ran ?_
  refine ⟨?_, ?_, ?_, ?_⟩
  · intro topic call member
    cases member
  · intro stream member
    cases member
  · intro result member
    cases member
  · intro topic
    rfl

/-! ## What a stream gets -/

/-- Whatever the order of the steps, no stream gets an event from a topic of a fund that it
is not for. -/
theorem stream_isolated {fundSlugs : List String} {inputs : List Input} {s : Bridge}
    (ran : (bridge fundSlugs).run {} inputs = some s) {stream : Stream} (member : stream ∈ s.streams)
    {call : Call} (got : call ∈ stream.received) {other : String} (apart : truthy stream.fundSlug ≠ some other) :
    (call.topic, call.event) ∈ s.consumed ∧ call.topic ∉ fundTopicsForSlug other := by
  obtain ⟨listens, routed⟩ := (valid_run ran).streams stream member call got
  refine ⟨routed.taken, fun theirs => ?_⟩
  obtain ⟨-, shared⟩ | ⟨slug, -, channel, ours⟩ := mem_channelsOf routed.channel
  · exact shared_not_fund shared other theirs
  · cases fund_of_topic ours theirs
    rw [channel, streamChannels, List.mem_cons, Option.mem_toList, Option.map_eq_some_iff] at listens
    obtain prices | ⟨fund, for_fund, same⟩ := listens
    · exact pricesChannel_ne _ prices.symm
    · cases fundChannel_inj same
      exact apart for_fund

def riskUpdated : BaseEvent :=
  { eventId := "e1", eventType := "risk.updated", timestamp := "2025-03-03T10:00:00+00:00", data := [] }

def audited : BaseEvent := { riskUpdated with eventId := "e2", eventType := "audit" }

/-- Two streams, an event of a fund that waits for a connection, and a shared one. -/
def twoStreams : List Input :=
  [.connect (some "alpha"), .connect (some "beta"), .consume "fund-alpha.risk.updated" riskUpdated,
    .attempt "fund-alpha.risk.updated" .exhausted 1, .consume "shared.audit" audited,
    .attempt "shared.audit" (.failed true) 2, .attempt "fund-alpha.risk.updated" .published 3, .send 0, .send 1]

def afterTwo : Bridge := ((bridge ["alpha", "beta"]).run {} twoStreams).get (by decide +kernel)

theorem ran_twoStreams : (bridge ["alpha", "beta"]).run {} twoStreams = some afterTwo :=
  (Option.some_get _).symm

def riskCall : Call := ⟨"fund-alpha.risk.updated", riskUpdated, "fund:alpha:events", 1⟩

def auditCall : Call := ⟨"shared.audit", audited, "shared:prices", 0⟩

theorem twoStreams_isolated :
    (riskCall.topic, riskCall.event) ∈ afterTwo.consumed ∧ riskCall.topic ∉ fundTopicsForSlug "beta" := by
  have member : (⟨some "alpha", true, [riskCall], [auditCall]⟩ : Stream) ∈ afterTwo.streams := by decide +kernel
  exact stream_isolated ran_twoStreams member (by decide +kernel) (by decide +kernel)

/-- The calls that reached the channels of a stream for the fund. -/
def heard (fundSlug : Option String) (settled : List (Call × Outcome)) : List Call :=
  (settled.filter fun result => result.2.reached && decide (result.1.channel ∈ streamChannels fundSlug)).map (·.1)

/-- The stream that connected in the first state, and what it has got since. -/
def HeardSince (start : Bridge) (fundSlug : Option String) (s : Bridge) : Prop :=
  ∃ more stream, s.settled = start.settled ++ more ∧ s.streams[start.streams.length]? = some stream ∧
    stream.fundSlug = fundSlug ∧ (stream.connected = true → stream.received = heard fundSlug more)

theorem connected_deliver (stream : Stream) (call : Call) : (stream.deliver call).connected = stream.connected := by
  rw [Stream.deliver]
  split <;> rfl

theorem received_delivered {stream : Stream} (connected : stream.connected = true) (call : Call) :
    (stream.deliver call).received =
      stream.received ++ if call.channel ∈ streamChannels stream.fundSlug then [call] else [] := by
  rw [Stream.deliver, Stream.listens, connected, Bool.true_and]
  split
  · rename_i listens
    rw [if_pos (of_decide_eq_true listens), Stream.received, ← List.append_assoc, Stream.received]
  · rename_i deaf
    rw [if_neg (fun listens => deaf (decide_eq_true listens)), List.append_nil]

theorem heard_concat (fundSlug : Option String) (settled : List (Call × Outcome)) (call : Call) (outcome : Outcome) :
    heard fundSlug (settled ++ [(call, outcome)]) = heard fundSlug settled ++
      if outcome.reached = true ∧ call.channel ∈ streamChannels fundSlug then [call] else [] := by
  rw [heard, heard, List.filter_append, List.map_append, List.filter_singleton]
  congr 1
  split
  · rename_i listens
    rw [listens.1, decide_eq_true listens.2]
    rfl
  · rename_i deaf
    have silent : (outcome.reached && decide (call.channel ∈ streamChannels fundSlug)) = false := by
      simpa using deaf
    rw [silent]
    rfl

theorem heardSince_kept {fundSlugs : List String} {start s next : Bridge} {fundSlug : Option String}
    (since : HeardSince start fundSlug s) (effect : Effect fundSlugs s next) : HeardSince start fundSlug next := by
  obtain ⟨more, stream, grown, found, fund, got⟩ := since
  cases effect with
  | consumed => exact ⟨more, stream, grown, found, fund, got⟩
  | retried => exact ⟨more, stream, grown, found, fund, got⟩
  | @settled taken one rest outcome _ first spent calls settled streams consumed =>
    refine ⟨more ++ [(one, outcome)], if outcome.reached then stream.deliver one else stream, ?_, ?_, ?_, ?_⟩
    · rw [settled, grown, List.append_assoc]
    · rw [streams]
      split
      · rw [List.getElem?_map, found]
        rfl
      · exact found
    · split
      · rw [fundSlug_deliver, fund]
      · exact fund
    · intro connected
      rw [heard_concat]
      cases reached : outcome.reached with
      | true =>
        rw [reached, if_pos rfl, connected_deliver] at connected
        rw [if_pos rfl, received_delivered connected, got connected, fund]
        simp
      | false =>
        rw [reached, if_neg Bool.false_ne_true] at connected
        rw [if_neg Bool.false_ne_true, got connected]
        simp
  | connected other =>
    obtain ⟨bound, -⟩ := List.getElem?_eq_some_iff.mp found
    exact ⟨more, stream, grown, (List.getElem?_append_left bound).trans found, fund, got⟩
  | @sent i theirs one queue sent head =>
    rcases eq_or_ne i start.streams.length with rfl | apart
    · cases head.symm.trans found
      obtain ⟨bound, -⟩ := List.getElem?_eq_some_iff.mp found
      refine ⟨more, _, grown, List.getElem?_set_self bound, fund, fun connected => ?_⟩
      rw [← got rfl, Stream.received, List.append_assoc]
      rfl
    · exact ⟨more, stream, grown, (List.getElem?_set_ne apart).trans found, fund, got⟩
  | disconnected i =>
    rcases eq_or_ne i start.streams.length with rfl | apart
    · refine ⟨more, { stream with connected := false }, grown, ?_, fund, fun connected => nomatch connected⟩
      simp [found]
    · refine ⟨more, stream, grown, ?_, fund, got⟩
      simp [found, apart]

theorem settledOn_append (first rest : List (Call × Outcome)) (topic : String) :
    settledOn (first ++ rest) topic = settledOn first topic ++ settledOn rest topic :=
  List.filter_append _ _

/-- A stream hears the topics that are shared and those of its fund, which is wired. -/
def Hears (fundSlugs : List String) (fundSlug : Option String) (topic : String) : Prop :=
  topic ∈ sharedTopics ∨ ∃ slug ∈ fundSlugs, truthy fundSlug = some slug ∧ topic ∈ fundTopicsForSlug slug

theorem channelsOf_heard {fundSlugs : List String} (nodup : fundSlugs.Nodup) {fundSlug : Option String}
    {topic : String} (hears : Hears fundSlugs fundSlug topic) :
    ∃ channel ∈ streamChannels fundSlug, channelsOf fundSlugs topic = [channel] := by
  obtain shared | ⟨slug, wired, for_fund, ours⟩ := hears
  · exact ⟨pricesChannel, List.mem_cons_self, (channelsOf_eq nodup topic).1 shared⟩
  · refine ⟨fundChannel slug, List.mem_cons_of_mem _ ?_, (channelsOf_eq nodup topic).2 slug wired ours⟩
    rw [for_fund]
    exact List.mem_cons_self

theorem heardSince_run {fundSlugs : List String} {start s : Bridge} {fundSlug : Option String} {after : List Input}
    (ran : (bridge fundSlugs).run start (.connect fundSlug :: after) = some s) :
    HeardSince start fundSlug s ∧ start.consumed <+: s.consumed := by
  have joined : HeardSince start fundSlug { start with streams := start.streams ++ [{ fundSlug }] } := by
    refine ⟨[], { fundSlug }, (List.append_nil _).symm, ?_, rfl, fun _ => rfl⟩
    rw [List.getElem?_append_right (le_refl _), Nat.sub_self]
    rfl
  have kept : ∀ s input next, HeardSince start fundSlug s ∧ start.consumed <+: s.consumed →
      (bridge fundSlugs).step s input = some next →
      HeardSince start fundSlug next ∧ start.consumed <+: next.consumed := by
    intro s input next kept stepped
    have effect := effect_of_step stepped
    exact ⟨heardSince_kept kept.1 effect, kept.2.trans (consumed_grows effect)⟩
  exact System.invariant_run kept (s := { start with streams := start.streams ++ [{ fundSlug }] }) ran
    ⟨joined, List.prefix_rfl⟩

/-- A stream gets each event that is taken from a topic of its own while it is connected,
once and in order, except those that could not be published: an attempt raised, or four
attempts in a row found no free connection. -/
theorem stream_gets_all {fundSlugs : List String} (nodup : fundSlugs.Nodup) {before after : List Input}
    {start s : Bridge} {fundSlug : Option String} (began : (bridge fundSlugs).run {} before = some start)
    (ran : (bridge fundSlugs).run start (.connect fundSlug :: after) = some s) {stream : Stream}
    (found : s.streams[start.streams.length]? = some stream) (connected : stream.connected = true)
    {topic : String} (hears : Hears fundSlugs fundSlug topic) (idle : start.calls topic = [])
    (idle_again : s.calls topic = []) :
    ∃ results : List (Call × Outcome), results <:+: settledOn s.settled topic ∧
      results.map (·.1.event) = (s.consumedOn topic).drop (start.consumedOn topic).length ∧
      stream.received.filter (fun call => call.topic = topic) = (results.filter (·.2.reached)).map (·.1) ∧
      ∀ result ∈ results, result.2 = .exhausted → result.1.attempt = maxRetries := by
  obtain ⟨⟨more, same, grown, here, -, got⟩, taken⟩ := heardSince_run ran
  cases here.symm.trans found
  obtain ⟨new, taken⟩ := taken
  obtain ⟨channel, listens, only⟩ := channelsOf_heard nodup hears
  have whole : (bridge fundSlugs).run {} (before ++ .connect fundSlug :: after) = some s := by
    rw [System.run_append, began]
    exact ran
  have settled := settledOn_append start.settled more topic
  have consumed : s.consumedOn topic = start.consumedOn topic ++ (new.filter fun event => event.1 = topic).map (·.2) := by
    rw [Bridge.consumedOn, ← taken, List.filter_append, List.map_append, Bridge.consumedOn]
  have first := (valid_run began).order topic
  have last := (valid_run whole).order topic
  simp only [only, idle, idle_again, List.append_nil, List.map_singleton] at first last
  rw [consumed, grown, settled, List.flatMap_append, first, List.map_append, List.map_append,
    List.append_cancel_left_eq] at last
  have heard_all : ∀ result ∈ settledOn more topic, result.1.channel ∈ streamChannels fundSlug := by
    intro result member
    have paired : (result.1.event, result.1.channel) ∈
        ((settledOn more topic).map (·.1)).map fun call => (call.event, call.channel) :=
      List.mem_map_of_mem (List.mem_map_of_mem member)
    rw [← last] at paired
    obtain ⟨event, -, pair⟩ := List.mem_flatMap.mp paired
    cases List.mem_singleton.mp pair
    exact listens
  refine ⟨settledOn more topic, ?_, ?_, ?_, ?_⟩
  · rw [grown, settled]
    exact (List.suffix_append _ _).isInfix
  · rw [consumed, List.drop_left]
    have events := congrArg (List.map Prod.fst) last
    rw [List.map_flatMap] at events
    simpa [Function.comp_def] using events.symm
  · rw [got connected, heard, List.filter_map, List.filter_filter]
    congr 1
    rw [settledOn, List.filter_filter]
    refine List.filter_congr fun result member => ?_
    by_cases ours : result.1.topic = topic
    · have listened := heard_all result (List.mem_filter.mpr ⟨member, decide_eq_true ours⟩)
      simp [ours, listened]
    · simp [ours]
  · intro result member exhausted
    refine (valid_run whole).spent result ?_ exhausted
    rw [grown]
    exact List.mem_append_right _ (List.mem_filter.mp member).1

theorem twoStreams_gets_all : ∃ results : List (Call × Outcome),
    results <:+: settledOn afterTwo.settled "shared.audit" ∧
      results.map (·.1.event) = (afterTwo.consumedOn "shared.audit").drop 0 ∧
      [auditCall] = (results.filter (·.2.reached)).map (·.1) ∧
      ∀ result ∈ results, result.2 = .exhausted → result.1.attempt = maxRetries := by
  have found : afterTwo.streams[0]? = some ⟨some "alpha", true, [riskCall], [auditCall]⟩ := by decide +kernel
  have began : (bridge ["alpha", "beta"]).run {} [] = some {} := rfl
  exact stream_gets_all (by decide) began ran_twoStreams found rfl (.inl (by decide)) rfl (by decide +kernel)

/-! ## Drops -/

/-- What the warnings report and the count that is left. -/
structure Bridge.Reported (s : Bridge) : Prop where
  all : (s.warnings.map (·.2)).sum + s.dropCount = (s.settled.filter fun result => result.2 = .exhausted).length
  last : ∀ warning ∈ s.warnings.getLast?, warning.1 = s.lastDropLog
  apart : s.warnings.IsChain fun warning later => warning.1 + 1 ≤ later.1

theorem reported_settle {s : Bridge} (reported : s.Reported) (call : Call) (rest : List Call) {outcome : Outcome}
    (kept : outcome ≠ .exhausted) : (s.settle call rest outcome).Reported := by
  refine ⟨?_, reported.last, reported.apart⟩
  rw [Bridge.settle, List.filter_append, List.filter_singleton, decide_eq_false kept]
  exact reported.all.trans (congrArg List.length (List.append_nil _).symm)

theorem reported_drop {s : Bridge} (reported : s.Reported) (call : Call) (rest : List Call) (now : ℚ) :
    ((s.recordDrop now).settle call rest .exhausted).Reported := by
  have counted := reported.all
  rw [Bridge.recordDrop]
  split
  · rename_i due
    refine ⟨?_, ?_, ?_⟩
    · simp only [Bridge.settle, List.map_append, List.sum_append, List.filter_append, List.length_append]
      simp
      omega
    · intro warning member
      simp only [Bridge.settle, List.getLast?_concat, Option.mem_some_iff] at member
      subst member
      rfl
    · refine List.isChain_append.mpr ⟨reported.apart, List.isChain_singleton _, ?_⟩
      intro warning last later head
      cases head
      rw [reported.last warning last]
      linarith
  · refine ⟨?_, reported.last, reported.apart⟩
    simp only [Bridge.settle, List.filter_append, List.length_append]
    simp
    omega

theorem reported_attempt {s : Bridge} (reported : s.Reported) (call : Call) (rest : List Call) (now : ℚ)
    (outcome : Outcome) : (s.attempt call rest now outcome).Reported := by
  have told : (s.publish call).Reported := ⟨reported.all, reported.last, reported.apart⟩
  cases outcome with
  | published => exact reported_settle told call rest Outcome.noConfusion
  | exhausted =>
    rw [Bridge.attempt]
    split
    · exact ⟨reported.all, reported.last, reported.apart⟩
    · exact reported_drop reported call rest now
  | failed applied =>
    cases applied with
    | false => exact reported_settle reported call rest Outcome.noConfusion
    | true => exact reported_settle told call rest Outcome.noConfusion

/-- Every event that was dropped is in one warning or in the count for the next, and the
warnings are a second apart at least. -/
theorem drops_reported {fundSlugs : List String} {inputs : List Input} {s : Bridge}
    (ran : (bridge fundSlugs).run {} inputs = some s) : s.Reported := by
  have none_yet : Bridge.Reported {} := ⟨rfl, fun _ none => (nomatch none), .nil⟩
  refine System.invariant_run (fun s input next reported stepped => ?_) ran none_yet
  simp only [bridge] at stepped
  cases input with
  | consume topic event =>
    rw [Bridge.step] at stepped
    split at stepped
    · cases stepped
      exact ⟨reported.all, reported.last, reported.apart⟩
    · cases stepped
  | attempt topic outcome now =>
    rw [Bridge.step] at stepped
    split at stepped
    · cases stepped
    · cases stepped
      exact reported_attempt reported _ _ now outcome
  | connect fundSlug =>
    cases stepped
    exact ⟨reported.all, reported.last, reported.apart⟩
  | send i =>
    rw [Bridge.step] at stepped
    split at stepped
    · cases stepped
      exact ⟨reported.all, reported.last, reported.apart⟩
    · cases stepped
  | disconnect i =>
    cases stepped
    exact ⟨reported.all, reported.last, reported.apart⟩

theorem twoStreams_reported : afterTwo.Reported := drops_reported ran_twoStreams

end MiniHedge.Realtime
