import MiniHedge.Positions.TradeHandler

/-! What one committed command does to the tables.

`Settled` joins the history in the event store to the read models. The newest
event stands in the read models as the handler applied it, at the instant of
its own clock; every earlier one as the store returns it.
-/

set_option autoImplicit false

namespace MiniHedge.Positions

open MiniHedge.Python

def TradeEvent.stamped (event : TradeEvent) (instant : Datetime) : TradeEvent :=
  { event with timestamp := instant }

namespace TradeEvent

@[simp] theorem stamped_stamped (event : TradeEvent) (first second : Datetime) :
    (event.stamped first).stamped second = event.stamped second := rfl

@[simp] theorem stamped_self (event : TradeEvent) : event.stamped event.timestamp = event := rfl

theorem OwnedBy.stamped {event : TradeEvent} {portfolioId : UUID} {instrumentId : String}
    (owned : event.OwnedBy portfolioId instrumentId) (instant : Datetime) :
    (event.stamped instant).OwnedBy portfolioId instrumentId := owned

theorem Applicable.stamped {event : TradeEvent} (applicable : event.Applicable)
    (instant : Datetime) : (event.stamped instant).Applicable := by
  cases applicable with
  | buy t d => exact .buy instant d
  | sell t d => exact .sell instant d
  | split t d nonzero => exact .split instant d nonzero
  | dividend t d => exact .dividend instant d

end TradeEvent

namespace PositionAggregate

@[simp] theorem after_portfolioId (a : PositionAggregate) (event : TradeEvent) :
    (a.after event).portfolioId = a.portfolioId := by
  unfold after
  split <;> rfl

@[simp] theorem after_instrumentId (a : PositionAggregate) (event : TradeEvent) :
    (a.after event).instrumentId = a.instrumentId := by
  unfold after
  split <;> rfl

theorem foldl_after_owner (a : PositionAggregate) (events : List TradeEvent) :
    (events.foldl after a).portfolioId = a.portfolioId ∧
      (events.foldl after a).instrumentId = a.instrumentId := by
  induction events generalizing a with
  | nil => exact ⟨rfl, rfl⟩
  | cons event rest ih => simpa using ih (a.after event)

end PositionAggregate

/-! ## The lot an event opens

Only the lot that an event opens carries the event's instant.
-/

namespace PositionAggregate

def kept (a : PositionAggregate) (event : TradeEvent) : List LotState :=
  match event.eventType, event.data with
  | .tradeSell, .trade d => (inPlace (a.matching d).lots).filter fun lot => 0 < lot.quantity
  | .stockSplit, .corporateAction d => a.lots.map (scaleLot d.splitRatio)
  | _, _ => a.lots

def opened (a : PositionAggregate) (event : TradeEvent) : Option LotState :=
  match event.eventType, event.data with
  | .tradeBuy, .trade d => some {
      lotId := UUID.uuid5 d.tradeId "lot"
      quantity := d.quantity
      originalQuantity := d.quantity
      price := d.price
      acquiredAt := event.timestamp
      tradeId := d.tradeId }
  | .tradeSell, .trade d =>
    if 0 < (a.matching d).remaining then some {
      lotId := UUID.uuid5 d.tradeId "short"
      quantity := -(a.matching d).remaining
      originalQuantity := -(a.matching d).remaining
      price := d.price
      acquiredAt := event.timestamp
      tradeId := d.tradeId }
    else none
  | _, _ => none

variable (a : PositionAggregate) {event : TradeEvent} (applicable : event.Applicable)
include applicable

theorem after_lots : (a.after event).lots = a.kept event ++ (a.opened event).toList := by
  cases applicable with
  | buy t d => rfl
  | sell t d =>
    by_cases short : 0 < (a.matching d).remaining
    · simp [sell, lotsAfterSell, kept, opened, short]
    · simp [sell, lotsAfterSell, kept, opened, short]
  | split t d nonzero => simp [split, kept, opened]
  | dividend t d => simp [dividend, kept, opened]

theorem kept_stamped (t : Datetime) : a.kept (event.stamped t) = a.kept event := by
  cases applicable <;> rfl

theorem opened_stamped (t : Datetime) : a.opened (event.stamped t) =
    (a.opened event).map fun lot => { lot with acquiredAt := t } := by
  cases applicable with
  | buy t' d => rfl
  | sell t' d =>
    by_cases short : 0 < (a.matching d).remaining <;> simp [TradeEvent.stamped, opened, short]
  | split t' d nonzero => rfl
  | dividend t' d => rfl

/-- Every value that is read from the lots without their instants is the same
at any instant of the event. -/
theorem after_stamped_lots {β : Type} (f : LotState → β)
    (blind : ∀ lot t, f { lot with acquiredAt := t } = f lot) (t : Datetime) :
    (a.after (event.stamped t)).lots.map f = (a.after event).lots.map f := by
  rw [after_lots a (applicable.stamped t), after_lots a applicable, kept_stamped a applicable,
    opened_stamped a applicable]
  cases a.opened event with
  | none => rfl
  | some lot => simp [blind]

theorem after_stamped_numbers (t : Datetime) :
    (a.after (event.stamped t)).quantity = (a.after event).quantity ∧
      (a.after (event.stamped t)).costBasis = (a.after event).costBasis ∧
      (a.after (event.stamped t)).realizedPnl = (a.after event).realizedPnl ∧
      (a.after (event.stamped t)).currency = (a.after event).currency := by
  cases applicable with
  | buy t' d => exact ⟨rfl, rfl, rfl, rfl⟩
  | sell t' d =>
    have lots := after_stamped_lots a (.sell t' d) (fun lot => |lot.quantity| * lot.price)
      (fun _ _ => rfl) t
    exact ⟨rfl, congrArg List.sum lots, rfl, rfl⟩
  | split t' d nonzero => exact ⟨rfl, rfl, rfl, rfl⟩
  | dividend t' d => exact ⟨rfl, rfl, rfl, rfl⟩

theorem after_stamped_avgCost (t : Datetime) :
    (a.after (event.stamped t)).avgCost = (a.after event).avgCost := by
  obtain ⟨quantity, cost, -, -⟩ := after_stamped_numbers a applicable t
  rw [avgCost, avgCost, quantity, cost]

end PositionAggregate

/-- The aggregate of a position after a history. -/
def positionOf (portfolioId : UUID) (instrumentId : String) (history : List TradeEvent) :
    PositionAggregate :=
  history.foldl .after (.empty portfolioId instrumentId)

@[simp] theorem positionOf_portfolioId (portfolioId : UUID) (instrumentId : String)
    (history : List TradeEvent) :
    (positionOf portfolioId instrumentId history).portfolioId = portfolioId :=
  (PositionAggregate.foldl_after_owner _ history).1

@[simp] theorem positionOf_instrumentId (portfolioId : UUID) (instrumentId : String)
    (history : List TradeEvent) :
    (positionOf portfolioId instrumentId history).instrumentId = instrumentId :=
  (PositionAggregate.foldl_after_owner _ history).2

theorem positionOf_append (portfolioId : UUID) (instrumentId : String)
    (history : List TradeEvent) (event : TradeEvent) :
    positionOf portfolioId instrumentId (history ++ [event]) =
      (positionOf portfolioId instrumentId history).after event := by
  rw [positionOf, List.foldl_append]
  rfl

structure Settled (db : Database) (portfolioId : UUID) (instrumentId : String)
    (history : List TradeEvent) : Prop extends Stored db portfolioId instrumentId history where
  projected : ∀ earlier newest, history = earlier ++ [newest] →
    ∃ instant, Projects db
      ((positionOf portfolioId instrumentId earlier).after (newest.stamped instant))
  untouched : history = [] → db.position portfolioId instrumentId = none ∧
    db.lotsOf portfolioId instrumentId = []

theorem Settled.nil (portfolioId : UUID) (instrumentId : String) :
    Settled {} portfolioId instrumentId [] where
  sequence := rfl
  decoded := rfl
  owned := by simp
  applicable := by simp
  projected := by simp
  untouched := fun _ => ⟨rfl, rfl⟩

namespace Command

/-- The command is for the position, and its event applies. -/
structure For (c : Command) (portfolioId : UUID) (instrumentId : String) : Prop where
  portfolio : c.portfolioId = portfolioId
  instrument : c.instrumentId = instrumentId
  owned : c.event.OwnedBy portfolioId instrumentId
  applicable : c.event.Applicable

/-- The aggregate that the command projects after the history it loaded. -/
def position (c : Command) (history : List TradeEvent) : PositionAggregate :=
  (positionOf c.portfolioId c.instrumentId history).after c.event

def writes (c : Command) (history : List TradeEvent) (createdAt : Datetime)
    (row : CurrentPositionRecord) (deleted : List LotRecord) : List Write :=
  [.event (c.record (history.length + 1) createdAt), .position row, .deleteLots deleted,
    .insertLots ((c.position history).lots.map
      (LotRecord.ofState c.portfolioId c.instrumentId))]

variable {c : Command} {portfolioId : UUID} {instrumentId : String}

theorem For.aggregateId (own : c.For portfolioId instrumentId) :
    c.aggregateId = Positions.aggregateId portfolioId instrumentId := by
  rw [Command.aggregateId, own.portfolio, own.instrument]

@[simp] theorem position_portfolioId (history : List TradeEvent) :
    (c.position history).portfolioId = c.portfolioId := by simp [position]

@[simp] theorem position_instrumentId (history : List TradeEvent) :
    (c.position history).instrumentId = c.instrumentId := by simp [position]

theorem For.deserialize_record (own : c.For portfolioId instrumentId) (n : Nat)
    (createdAt : Datetime) :
    EventStore.deserialize (c.record n createdAt) = .ok (c.event.stamped createdAt) :=
  EventStore.deserialize_serialize own.applicable rfl rfl

theorem For.load (own : c.For portfolioId instrumentId) {db : Database}
    {history : List TradeEvent} (stored : Stored db portfolioId instrumentId history) :
    ∃ downstream, c.load history = .ok (c.position history, downstream) := by
  obtain ⟨downstream, applied⟩ := PositionAggregate.apply_applicable
    (positionOf portfolioId instrumentId history) own.applicable
  refine ⟨downstream, ?_⟩
  simp only [Command.load, Command.position, own.portfolio, own.instrument, stored.fromEvents]
  exact applied

end Command

section Commit

variable {db : Database} {portfolioId : UUID} {instrumentId : String} {history : List TradeEvent}
  {c : Command} {row : CurrentPositionRecord} {deleted : List LotRecord}

/-- A commit extends the history by the event as the store will return it, and
leaves the read models of the event as the handler applied it. -/
theorem Stored.commit (stored : Stored db portfolioId instrumentId history)
    (own : c.For portfolioId instrumentId) (createdAt : Datetime)
    (of : UpsertOf db (c.position history) c.currency row)
    (all : deleted = db.lotsOf portfolioId instrumentId) :
    Settled (db.writes (c.writes history createdAt row deleted)) portfolioId instrumentId
        (history ++ [c.event.stamped createdAt]) ∧
      Projects (db.writes (c.writes history createdAt row deleted)) (c.position history) := by
  have appended := stored.append (r := c.record (history.length + 1) createdAt)
    own.aggregateId rfl (own.deserialize_record _ createdAt) (own.owned.stamped createdAt)
    (own.applicable.stamped createdAt)
  have upserted : UpsertOf (db.write (.event (c.record (history.length + 1) createdAt)))
      (c.position history) c.currency row :=
    ⟨of.own, of.quantity, of.avgCost, of.costBasis, of.realizedPnl, of.currency⟩
  have projects := Database.projects_writes upserted (d := deleted) (by
    simp only [Command.position_portfolioId, Command.position_instrumentId, own.portfolio,
      own.instrument]
    exact all)
  simp only [Command.position_portfolioId, Command.position_instrumentId] at projects
  refine ⟨⟨appended.congr rfl, fun earlier newest same => ?_, by simp⟩, projects⟩
  obtain ⟨rfl, newestSame⟩ := List.append_inj' same rfl
  obtain rfl := List.cons.inj newestSame |>.1
  refine ⟨c.event.timestamp, ?_⟩
  rw [TradeEvent.stamped_stamped, TradeEvent.stamped_self, ← own.portfolio, ← own.instrument]
  exact projects

/-- A commit leaves every other position as it was. -/
theorem Settled.commit_other {portfolioId' : UUID} {instrumentId' : String}
    (settled : Settled db portfolioId' instrumentId' history)
    (other : ¬ (c.portfolioId = portfolioId' ∧ c.instrumentId = instrumentId'))
    {loaded : List TradeEvent} (createdAt : Datetime) (own : row.At c.portfolioId c.instrumentId)
    (all : deleted = db.lotsOf c.portfolioId c.instrumentId) :
    Settled (db.writes (c.writes loaded createdAt row deleted)) portfolioId' instrumentId'
      history := by
  have apart : ¬ (c.record (loaded.length + 1) createdAt).aggregateId =
      aggregateId portfolioId' instrumentId' := fun same => other (aggregateId_injective same)
  have records : (db.writes (c.writes loaded createdAt row deleted)).recordsOf
      (aggregateId portfolioId' instrumentId') =
        db.recordsOf (aggregateId portfolioId' instrumentId') := by
    have first := Database.recordsOf_event db (c.record (loaded.length + 1) createdAt)
      (aggregateId portfolioId' instrumentId')
    rw [if_neg apart, List.append_nil] at first
    exact first
  have position : (db.writes (c.writes loaded createdAt row deleted)).position portfolioId'
      instrumentId' = db.position portfolioId' instrumentId' := by
    refine Database.position_write_other (db.write (.event (c.record (loaded.length + 1) createdAt)))
      fun at' => other ?_
    exact ⟨own.1.symm.trans at'.1, own.2.symm.trans at'.2⟩
  have lots : (db.writes (c.writes loaded createdAt row deleted)).lotsOf portfolioId'
      instrumentId' = db.lotsOf portfolioId' instrumentId' := by
    have notInserted : ∀ r ∈ (c.position loaded).lots.map
        (LotRecord.ofState c.portfolioId c.instrumentId), ¬ r.At portfolioId' instrumentId' := by
      intro r member at'
      have own' := LotRecord.ofState_at _ _ _ r member
      exact other ⟨own'.1.symm.trans at'.1, own'.2.symm.trans at'.2⟩
    have notDeleted : ∀ r ∈ deleted, ¬ r.At portfolioId' instrumentId' := by
      intro r member at'
      rw [all] at member
      have own' : r.At c.portfolioId c.instrumentId := by simpa using (List.mem_filter.mp member).2
      exact other ⟨own'.1.symm.trans at'.1, own'.2.symm.trans at'.2⟩
    simp only [Command.writes, Database.writes_cons, Database.writes_nil]
    rw [Database.lotsOf_insertLots_other _ notInserted, Database.lotsOf_deleteLots_other _ notDeleted]
    rfl
  refine ⟨settled.toStored.congr records, fun earlier newest same => ?_, fun none => ?_⟩
  rotate_left
  · rw [position, lots]
    exact settled.untouched none
  obtain ⟨instant, ⟨r, found, numbers⟩, held⟩ := settled.projected earlier newest same
  simp only [PositionAggregate.after_portfolioId, PositionAggregate.after_instrumentId,
    positionOf_portfolioId, positionOf_instrumentId] at found held
  refine ⟨instant, ⟨r, ?_, numbers⟩, ?_⟩
  · simpa [position] using found
  · simpa [lots] using held

end Commit

/-! ## A call that runs alone -/

/-- A committed attempt: what it projected and what it wrote. -/
structure Committed (db : Database) (history : List TradeEvent) (c : Command)
    (createdAt : Datetime) (row : CurrentPositionRecord) (next : Database) : Prop where
  fresh : c.duplicate db = false
  upserted : UpsertOf db (c.position history) c.currency row
  fits : c.instrumentId.length ≤ 32 ∧ c.currency.length ≤ 3
  nonzero : ∀ lot ∈ (c.position history).lots, lot.quantity ≠ 0
  writes : next = db.writes (c.writes history createdAt row
    (db.lotsOf c.portfolioId c.instrumentId))
  unique : (next.lots.map LotRecord.id).Nodup

theorem attempt_cases {db next : Database} {portfolioId : UUID} {instrumentId : String}
    {history : List TradeEvent} {c : Command} {createdAt : Datetime}
    {downstream : Option (List DownstreamEvent)}
    (stored : Stored db portfolioId instrumentId history) (own : c.For portfolioId instrumentId)
    (attempted : attempt db createdAt c = .ok (next, downstream)) :
    (c.duplicate db = true ∧ next = db ∧ downstream = none) ∨
      (∃ row, Committed db history c createdAt row next) ∧ downstream ≠ none := by
  cases duplicate : c.duplicate db with
  | true =>
    simp only [attempt, duplicate, if_true, Pure.pure, Except.pure, Except.ok.injEq,
      Prod.mk.injEq] at attempted
    exact .inl ⟨rfl, attempted.1.symm, attempted.2.symm⟩
  | false =>
    right
    obtain ⟨emitted, loaded⟩ := own.load stored
    simp only [attempt, duplicate, Bool.false_eq_true, if_false, own.aggregateId,
      stored.getByAggregate, stored.nextSequence, Bind.bind, Except.bind, loaded] at attempted
    cases appended : db.insertEvent (c.record (history.length + 1) createdAt) with
    | error e => simp [appended] at attempted
    | ok w =>
      have event : w = .event (c.record (history.length + 1) createdAt) := by
        simp only [Database.insertEvent] at appended
        split at appended
        · cases appended
        · split at appended
          · cases appended
          · exact (Except.ok.inj appended).symm
      subst event
      simp only [appended] at attempted
      cases projected : (db.write (.event (c.record (history.length + 1) createdAt))).project
          (c.position history) c.currency with
      | error e => simp [projected] at attempted
      | ok final =>
        simp only [projected, Pure.pure, Except.pure, Except.ok.injEq, Prod.mk.injEq] at attempted
        obtain ⟨rfl, rfl⟩ := attempted
        obtain ⟨fits, nonzero, row, of, same, unique⟩ := Database.project_cases projected
        simp only [Command.position_portfolioId, Command.position_instrumentId] at fits same
        refine ⟨⟨row, duplicate, ⟨of.own, of.quantity, of.avgCost, of.costBasis, of.realizedPnl,
          of.currency⟩, fits, nonzero, ?_, unique⟩, by simp⟩
        exact same

theorem submit_cases {db next : Database} {starts : Nat → Datetime} {c : Command}
    {downstream : Option (List DownstreamEvent)}
    (submitted : submit db starts c = .ok (next, downstream)) :
    ∃ createdAt, attempt db createdAt c = .ok (next, downstream) := by
  have looped : ∀ left, submitWith db starts c left = .ok (next, downstream) →
      ∃ createdAt, attempt db createdAt c = .ok (next, downstream) := by
    intro left
    induction left with
    | zero => exact fun done => ⟨_, done⟩
    | succ left ih =>
      intro done
      rw [submitWith] at done
      split at done
      · exact ih done
      · exact ⟨_, done⟩
  exact looped _ submitted

/-! ## The commands of the entry points -/

theorem Trade.command_for (trade : Trade) (now : Datetime) (key : Option String) :
    (trade.command now key).For trade.portfolioId trade.instrumentId where
  portfolio := rfl
  instrument := rfl
  owned := ⟨rfl, rfl⟩
  applicable := by
    cases side : trade.side with
    | buy => simpa [command, eventType, side] using TradeEvent.Applicable.buy now trade.data
    | sell => simpa [command, eventType, side] using TradeEvent.Applicable.sell now trade.data

theorem CorporateActionFields.command_for (fields : CorporateActionFields) (now : Datetime)
    (eventType : String) :
    (fields.command now eventType).For fields.portfolioId fields.instrumentId := by
  have ratio : fields.split.splitRatio ≠ 0 := by
    by_cases positive : 0 < fields.quantity
    · simpa [split, positive] using positive.ne'
    · simp [split, positive]
  by_cases named : "split".toList <:+: eventType.toList
  · have same : fields.event now eventType = ⟨.stockSplit, now, .corporateAction fields.split⟩ :=
      if_pos named
    refine ⟨rfl, rfl, ?_, ?_⟩ <;> simp only [command, same]
    · exact ⟨rfl, rfl⟩
    · exact .split now fields.split ratio
  · have same : fields.event now eventType =
      ⟨.dividendPaid, now, .corporateAction fields.dividend⟩ := if_neg named
    refine ⟨rfl, rfl, ?_, ?_⟩ <;> simp only [command, same]
    · exact ⟨rfl, rfl⟩
    · exact .dividend now fields.dividend

/-- A call that returns has submitted a command for its position, or nothing. -/
def Submitted (db next : Database) : Prop :=
  next = db ∨ ∃ c starts downstream, c.For c.portfolioId c.instrumentId ∧
    submit db starts c = .ok (next, downstream)

theorem handleTrade_submitted {db next : Database} {clock : Clock} {context : RequestContext}
    {trade : Trade} {key : Option String} {messages : List Message}
    (handled : handleTrade db clock context trade key = .ok (next, messages)) :
    Submitted db next := by
  right
  cases applied : applyTrade db clock trade key with
  | error e => simp [handleTrade, applied, Bind.bind, Except.bind] at handled
  | ok result =>
    obtain ⟨final, downstream⟩ := result
    refine ⟨trade.command clock.now key, clock.starts, downstream, trade.command_for _ _, ?_⟩
    cases downstream <;>
      simp only [handleTrade, applied, Bind.bind, Except.bind, Pure.pure, Except.pure,
        Except.ok.injEq, Prod.mk.injEq] at handled <;>
      rw [← handled.1] <;> exact applied

theorem handleTradeEvent_submitted {db next : Database} {clock : Clock} {fresh : UUID}
    {event : BaseEvent} {messages : List Message}
    (handled : handleTradeEvent db clock fresh event = .ok (next, messages)) :
    Submitted db next := by
  by_cases silent : truthy event.fundSlug = none
  · simp only [handleTradeEvent, silent, if_true, Pure.pure, Except.pure, Except.ok.injEq,
      Prod.mk.injEq] at handled
    exact .inl handled.1.symm
  right
  by_cases action : event.data.get "source" = some (.text "corporate_action")
  · cases read : corporateActionFields fresh event.data with
    | error e =>
      simp [handleTradeEvent, silent, action, applyCorporateAction, read, Bind.bind, Except.bind]
        at handled
    | ok fields =>
      cases applied : submit db clock.starts (fields.command clock.now event.eventType) with
      | error e =>
        simp [handleTradeEvent, silent, action, applyCorporateAction, read, applied, Bind.bind,
          Except.bind] at handled
      | ok result =>
        obtain ⟨final, downstream⟩ := result
        refine ⟨_, _, downstream, fields.command_for clock.now event.eventType, applied.trans ?_⟩
        cases downstream <;>
          simp only [handleTradeEvent, silent, action, applyCorporateAction, read, applied,
            if_true, if_false, Bind.bind, Except.bind, Pure.pure, Except.pure, Except.ok.injEq,
            Prod.mk.injEq] at handled <;>
          rw [handled.1]
  · cases read : tradeOfEvent fresh event.data with
    | error e =>
      simp [handleTradeEvent, silent, action, read, Bind.bind, Except.bind] at handled
    | ok trade =>
      cases applied : applyTrade db clock trade (some trade.tradeId.str) with
      | error e =>
        simp [handleTradeEvent, silent, action, read, applied, Bind.bind, Except.bind] at handled
      | ok result =>
        obtain ⟨final, downstream⟩ := result
        refine ⟨_, _, downstream, trade.command_for clock.now (some trade.tradeId.str),
          Eq.trans (b := applyTrade db clock trade (some trade.tradeId.str)) rfl
            (applied.trans ?_)⟩
        cases downstream <;>
          simp only [handleTradeEvent, silent, action, read, applied, if_false, Bind.bind,
            Except.bind, Pure.pure, Except.pure, Except.ok.injEq, Prod.mk.injEq] at handled <;>
          rw [handled.1]

end MiniHedge.Positions
