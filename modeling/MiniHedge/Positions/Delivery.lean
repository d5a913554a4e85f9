import MiniHedge.Positions.Settled
import MiniHedge.Library.Transition

/-! Direct calls and deliveries of what they publish, in one fund.

The fund's topic feeds the handler that publishes to it. A direct call stores
its trade under the caller's key, or none, and the subscriber looks the same
trade up under its identifier, so a delivery finds the trade unknown. Only the
primary key of the lots can refuse it, while the lot the trade opened is there.
-/

set_option autoImplicit false

namespace MiniHedge.Positions

open MiniHedge.Python MiniHedge.Library

structure FundState where
  db : Database := {}
  /-- The events on the fund's `trades.executed` topic. -/
  published : List BaseEvent := []
  /-- The trades that direct calls applied. -/
  executed : List Trade := []
  deriving DecidableEq, Repr

inductive Call where
  | direct (clock : Clock) (context : RequestContext) (trade : Trade) (key : Option String)
  | deliver (index : Nat) (clock : Clock) (fresh : UUID)

/-- A call that raises leaves the state as it was. -/
def fundStep (fund : String) (s : FundState) : Call → Option FundState
  | .direct clock context trade key =>
    match handleTrade s.db clock context trade key with
    | .error _ => some s
    | .ok (next, []) => some { s with db := next }
    | .ok (next, messages) => some {
        db := next
        published := s.published ++ (messages.filter fun m =>
          m.topic = fundTopic fund "trades.executed").map Message.event
        executed := s.executed ++ [trade] }
  | .deliver index clock fresh =>
    match s.published[index]? with
    | none => none
    | some event =>
      match handleTradeEvent s.db clock fresh event with
      | .error _ => some s
      | .ok (next, _) => some { s with db := next }

def fundSystem (fund : String) : System FundState Call := ⟨fundStep fund⟩

/-- The trades stored for a position, in the order of the event store. -/
def storedTrades (db : Database) (portfolioId : UUID) (instrumentId : String) :
    List TradeEventData :=
  match db.getByAggregate (aggregateId portfolioId instrumentId) with
  | .error _ => []
  | .ok events => events.filterMap fun event =>
    match event.data with
    | .trade d => some d
    | .corporateAction _ => none

def Trade.signed (trade : Trade) : Decimal :=
  if trade.side = .buy then trade.quantity else -trade.quantity

/-- Every executed trade is stored once for its position, and the quantity of
the position is the signed sum of its trades. -/
structure ExactlyOnce (s : FundState) : Prop where
  once : ∀ trade ∈ s.executed,
    (storedTrades s.db trade.portfolioId trade.instrumentId).countP
      (·.tradeId = trade.tradeId) = 1
  quantity : ∀ trade ∈ s.executed, ∃ row,
    s.db.position trade.portfolioId trade.instrumentId = some row ∧
      row.quantity = ((s.executed.filter
        (·.At trade.portfolioId trade.instrumentId)).map Trade.signed).sum

/-- The lot that a buy opened is still among the lots of its position. -/
def BuyStillOpen (db : Database) (trade : Trade) : Prop :=
  trade.side = .buy ∧ ∃ row ∈ db.lotsOf trade.portfolioId trade.instrumentId,
    row.id = UUID.uuid5 trade.tradeId "lot"

instance (db : Database) (trade : Trade) : Decidable (BuyStillOpen db trade) :=
  inferInstanceAs (Decidable (_ ∧ _))

/-- The delivered trade is stored under its own identifier already, or it is a
buy whose lot is still open. -/
def Harmless (db : Database) (fresh : UUID) (event : BaseEvent) : Prop :=
  event.data.get "source" ≠ some (.text "corporate_action") ∧
    match tradeOfEvent fresh event.data with
    | .error _ => False
    | .ok trade => db.hasIdempotencyKey trade.tradeId.str = true ∨ BuyStillOpen db trade

instance (db : Database) (fresh : UUID) (event : BaseEvent) :
    Decidable (Harmless db fresh event) := by
  unfold Harmless
  split <;> infer_instance

def HarmlessDelivery (s : FundState) : Call → Prop
  | .direct _ _ _ _ => True
  | .deliver index _ fresh => ∀ event ∈ s.published[index]?, Harmless s.db fresh event

instance (s : FundState) (call : Call) : Decidable (HarmlessDelivery s call) := by
  unfold HarmlessDelivery
  split <;> infer_instance

/-! ## What a call writes -/

section Apply

variable {db next : Database} {clock : Clock} {trade : Trade} {key : Option String}
  {history : List TradeEvent} {downstream : Option (List DownstreamEvent)}

theorem applyTrade_cases (stored : Stored db trade.portfolioId trade.instrumentId history)
    (applied : applyTrade db clock trade key = .ok (next, downstream)) :
    ((trade.command clock.now key).duplicate db = true ∧ next = db ∧ downstream = none) ∨
      (∃ createdAt row,
        Committed db history (trade.command clock.now key) createdAt row next) ∧
        downstream ≠ none := by
  obtain ⟨createdAt, attempted⟩ := submit_cases applied
  rcases attempt_cases stored (trade.command_for clock.now key) attempted with
    duplicate | ⟨⟨row, committed⟩, emitted⟩
  · exact .inl duplicate
  · exact .inr ⟨⟨createdAt, row, committed⟩, emitted⟩

/-- A buy whose lot is still open cannot be committed again: its lot would be
inserted twice under one primary key. -/
theorem not_committed_of_still_open {createdAt : Datetime} {row : CurrentPositionRecord}
    (settled : Settled db trade.portfolioId trade.instrumentId history)
    (stillOpen : BuyStillOpen db trade)
    (committed : Committed db history (trade.command clock.now key) createdAt row next) :
    False := by
  obtain ⟨buy, lot, held, named⟩ := stillOpen
  have nonempty : history ≠ [] := fun none => by
    simp [(settled.untouched none).2] at held
  obtain ⟨earlier, newest, rfl⟩ := (List.eq_nil_or_concat history).resolve_left nonempty
  rw [List.concat_eq_append] at settled committed
  obtain ⟨instant, -, lots⟩ := settled.projected earlier newest rfl
  simp only [PositionAggregate.after_portfolioId, PositionAggregate.after_instrumentId,
    positionOf_portfolioId, positionOf_instrumentId] at lots
  have applicable : newest.Applicable := settled.applicable newest (by simp)
  have ids := PositionAggregate.after_stamped_lots (positionOf trade.portfolioId
    trade.instrumentId earlier) applicable LotState.lotId (fun _ _ => rfl) instant
  have loaded : UUID.uuid5 trade.tradeId "lot" ∈ (positionOf trade.portfolioId trade.instrumentId
      (earlier ++ [newest])).lots.map LotState.lotId := by
    rw [positionOf_append, ← ids, ← named]
    rw [lots] at held
    obtain ⟨state, member, rfl⟩ := List.mem_map.mp held
    exact List.mem_map.mpr ⟨state, member, rfl⟩
  have projected : ((trade.command clock.now key).position (earlier ++ [newest])).lots.map
      LotState.lotId = (positionOf trade.portfolioId trade.instrumentId
        (earlier ++ [newest])).lots.map LotState.lotId ++ [UUID.uuid5 trade.tradeId "lot"] := by
    simp [Command.position, Trade.command, Trade.eventType, buy, PositionAggregate.buy, Trade.data]
  have unique := committed.unique
  rw [committed.writes] at unique
  simp only [Command.writes, Database.writes_cons, Database.writes_nil, Database.write,
    List.map_append, List.map_map] at unique
  have inserted := (List.nodup_append.mp unique).2.1
  have same : (LotRecord.id ∘ LotRecord.ofState (trade.command clock.now key).portfolioId
      (trade.command clock.now key).instrumentId) = LotState.lotId := rfl
  rw [same, projected, List.nodup_append] at inserted
  exact inserted.2.2 _ loaded _ (by simp) rfl

end Apply

/-- A harmless delivery changes nothing, whether it returns or raises. -/
theorem handleTradeEvent_harmless {db next : Database} {clock : Clock} {fresh : UUID}
    {event : BaseEvent} {messages : List Message}
    (settled : ∀ portfolioId instrumentId, ∃ history, Settled db portfolioId instrumentId history)
    (harmless : Harmless db fresh event)
    (handled : handleTradeEvent db clock fresh event = .ok (next, messages)) : next = db := by
  obtain ⟨notAction, known⟩ := harmless
  cases read : tradeOfEvent fresh event.data with
  | error e => simp [read] at known
  | ok trade =>
    simp only [read] at known
    by_cases silent : truthy event.fundSlug = none
    · simp only [handleTradeEvent, silent, if_true, Pure.pure, Except.pure, Except.ok.injEq,
        Prod.mk.injEq] at handled
      exact handled.1.symm
    · simp only [handleTradeEvent, silent, if_false, notAction, read, Bind.bind, Except.bind]
        at handled
      cases applied : applyTrade db clock trade (some trade.tradeId.str) with
      | error e => simp [applied] at handled
      | ok result =>
        obtain ⟨final, downstream⟩ := result
        have final_eq : final = next := by
          simp only [applied] at handled
          split at handled <;>
            simp only [Pure.pure, Except.pure, Except.ok.injEq, Prod.mk.injEq] at handled <;>
            exact handled.1
        subst final_eq
        obtain ⟨history, at'⟩ := settled trade.portfolioId trade.instrumentId
        rcases applyTrade_cases at'.toStored applied with
          ⟨-, same, -⟩ | ⟨⟨createdAt, row, committed⟩, -⟩
        · exact same
        · exfalso
          rcases known with key | stillOpen
          · have keyed : truthy (some trade.tradeId.str) = some trade.tradeId.str := by
              have nonempty : trade.tradeId.str ≠ "" := fun empty => by
                have length := congrArg (fun text => text.toList.length) empty
                simp [UUID.str, UUID.length_chars] at length
              simp [truthy, nonempty]
            have fresh := committed.fresh
            simp [Command.duplicate, Trade.command, keyed, key] at fresh
          · exact not_committed_of_still_open at' stillOpen committed

/-! ## Runs -/

/-- What the aggregate sees of a trade. -/
def Trade.booked (trade : Trade) : PositionEventType × EventData :=
  (trade.eventType, .trade trade.data)

/-- The history of every position is its executed trades, in order. -/
def Books (s : FundState) : Prop :=
  ∀ portfolioId instrumentId, ∃ history, Settled s.db portfolioId instrumentId history ∧
    history.map (fun event => (event.eventType, event.data)) =
      (s.executed.filter (·.At portfolioId instrumentId)).map Trade.booked

theorem Books.start : Books {} := fun portfolioId instrumentId =>
  ⟨[], Settled.nil portfolioId instrumentId, rfl⟩

theorem Books.execute {s : FundState} (books : Books s) {trade : Trade} {now createdAt : Datetime}
    {key : Option String} {history : List TradeEvent} {row : CurrentPositionRecord}
    {next : Database} (settled : Settled s.db trade.portfolioId trade.instrumentId history)
    (booked : history.map (fun event => (event.eventType, event.data)) =
      (s.executed.filter (·.At trade.portfolioId trade.instrumentId)).map Trade.booked)
    (committed : Committed s.db history (trade.command now key) createdAt row next)
    (published : List BaseEvent) :
    Books { db := next, published := published, executed := s.executed ++ [trade] } := by
  have of := committed.upserted
  intro portfolioId instrumentId
  rw [committed.writes]
  by_cases own : trade.At portfolioId instrumentId
  · obtain ⟨rfl, rfl⟩ := own
    have at' : trade.At trade.portfolioId trade.instrumentId := ⟨rfl, rfl⟩
    refine ⟨_, (settled.toStored.commit (trade.command_for now key) createdAt of rfl).1, ?_⟩
    simp only [List.map_append, booked, List.filter_append, List.map_cons, List.map_nil,
      List.filter_cons, at', decide_true, if_true, List.filter_nil]
    rfl
  · obtain ⟨others, settledOther, bookedOther⟩ := books portfolioId instrumentId
    have at' : row.At (trade.command now key).portfolioId (trade.command now key).instrumentId := by
      simpa using of.own
    have apart : ¬ ((trade.command now key).portfolioId = portfolioId ∧
        (trade.command now key).instrumentId = instrumentId) := own
    refine ⟨others, settledOther.commit_other apart createdAt at' rfl, ?_⟩
    rw [bookedOther, List.filter_append, List.filter_cons_of_neg (by simpa using own),
      List.filter_nil, List.append_nil]

theorem Books.step {fund : String} {s next : FundState} {call : Call} (books : Books s)
    (harmless : HarmlessDelivery s call) (stepped : fundStep fund s call = some next) :
    Books next := by
  cases call with
  | direct clock context trade key =>
    cases handled : handleTrade s.db clock context trade key with
    | error e =>
      simp only [fundStep, handled, Option.some.injEq] at stepped
      rwa [← stepped]
    | ok result =>
      obtain ⟨db, messages⟩ := result
      cases applied : applyTrade s.db clock trade key with
      | error e => simp [handleTrade, applied, Bind.bind, Except.bind] at handled
      | ok result =>
        obtain ⟨db', downstream⟩ := result
        obtain ⟨history, settled, booked⟩ := books trade.portfolioId trade.instrumentId
        rcases applyTrade_cases settled.toStored applied with
          ⟨-, same, none⟩ | ⟨⟨createdAt, row, committed⟩, emitted⟩
        · simp only [handleTrade, applied, none, Bind.bind, Except.bind, Pure.pure, Except.pure,
            Except.ok.injEq, Prod.mk.injEq] at handled
          obtain ⟨rfl, rfl⟩ := handled
          simp only [fundStep, handleTrade, applied, none, Bind.bind, Except.bind, Pure.pure,
            Except.pure, Option.some.injEq] at stepped
          rw [← stepped, same]
          exact books
        · obtain ⟨events, rfl⟩ := Option.ne_none_iff_exists'.mp emitted
          simp only [fundStep, handleTrade, applied, Bind.bind, Except.bind, Pure.pure,
            Except.pure, Option.some.injEq] at stepped
          rw [← stepped]
          exact books.execute settled booked committed _
  | deliver index clock fresh =>
    cases found : s.published[index]? with
    | none => simp [fundStep, found] at stepped
    | some event =>
      have quiet : Harmless s.db fresh event := harmless event found
      cases handled : handleTradeEvent s.db clock fresh event with
      | error e =>
        simp only [fundStep, found, handled, Option.some.injEq] at stepped
        rwa [← stepped]
      | ok result =>
        have same := handleTradeEvent_harmless (fun p i => (books p i).imp fun _ both => both.1)
          quiet handled
        simp only [fundStep, found, handled, Option.some.injEq] at stepped
        rw [← stepped, same]
        exact books

/-- The identifier that a call draws for its trade. -/
def Call.drawn : Call → Option UUID
  | .direct _ _ trade _ => some trade.tradeId
  | .deliver _ _ _ => none

theorem executed_sublist {fund : String} {calls : List Call} {s final : FundState}
    (ran : (fundSystem fund).run s calls = some final) :
    (final.executed.map Trade.tradeId).Sublist
      (s.executed.map Trade.tradeId ++ calls.filterMap Call.drawn) := by
  induction calls generalizing s with
  | nil =>
    cases ran
    simp
  | cons call rest ih =>
    cases stepped : fundStep fund s call with
    | none => simp [fundSystem, stepped] at ran
    | some next =>
      have onward := ih (s := next) (by simpa [fundSystem, stepped] using ran)
      refine onward.trans ?_
      cases call with
      | direct clock context trade key =>
        rw [List.filterMap_cons_some (rfl : Call.drawn (.direct clock context trade key) = _),
          List.append_cons]
        refine List.Sublist.append ?_ (List.Sublist.refl _)
        simp only [fundStep] at stepped
        split at stepped <;> cases stepped <;> simp
      | deliver index clock fresh =>
        rw [List.filterMap_cons_none rfl]
        refine List.Sublist.append ?_ (List.Sublist.refl _)
        simp only [fundStep] at stepped
        split at stepped
        · cases stepped
        · split at stepped <;> cases stepped <;> exact List.Sublist.refl _

theorem quantity_of_booked {a : PositionAggregate} {history : List TradeEvent} {trades : List Trade}
    (booked : history.map (fun event => (event.eventType, event.data)) = trades.map Trade.booked) :
    (history.foldl .after a).quantity = a.quantity + (trades.map Trade.signed).sum := by
  induction history generalizing a trades with
  | nil =>
    obtain rfl := List.map_eq_nil_iff.mp booked.symm
    simp
  | cons event history ih =>
    cases trades with
    | nil => simp at booked
    | cons trade trades =>
      simp only [List.map_cons, List.cons.injEq] at booked
      obtain ⟨head, tail⟩ := booked
      have quantity : (a.after event).quantity = a.quantity + trade.signed := by
        obtain ⟨eventType, t, data⟩ := event
        obtain ⟨rfl, rfl⟩ := Prod.mk.inj head
        cases side : trade.side with
        | buy => simp [Trade.eventType, Trade.signed, side, PositionAggregate.buy, Trade.data]
        | sell =>
          simp [Trade.eventType, Trade.signed, side, PositionAggregate.sell, Trade.data]
          ring
      rw [List.foldl_cons, ih tail, quantity, List.map_cons, List.sum_cons, add_assoc]

theorem storedTrades_of_booked {db : Database} {portfolioId : UUID} {instrumentId : String}
    {history : List TradeEvent} {trades : List Trade}
    (stored : Stored db portfolioId instrumentId history)
    (booked : history.map (fun event => (event.eventType, event.data)) = trades.map Trade.booked) :
    storedTrades db portfolioId instrumentId = trades.map Trade.data := by
  have data : history.map TradeEvent.data = trades.map fun trade => .trade trade.data := by
    have projected := congrArg (List.map Prod.snd) booked
    simpa [Function.comp_def, Trade.booked] using projected
  have read : history.filterMap (fun event => match event.data with
      | .trade d => some d
      | .corporateAction _ => none) =
        (history.map TradeEvent.data).filterMap (fun data => match data with
          | .trade d => some d
          | .corporateAction _ => none) := by
    rw [List.filterMap_map]
    rfl
  rw [storedTrades, stored.getByAggregate]
  simp only [read, data, List.filterMap_map]
  exact List.filterMap_eq_map' (f := Trade.data) ▸ rfl

theorem Books.exactlyOnce {s : FundState} (books : Books s)
    (distinct : (s.executed.map Trade.tradeId).Nodup) : ExactlyOnce s := by
  constructor
  · intro trade member
    obtain ⟨history, settled, booked⟩ := books trade.portfolioId trade.instrumentId
    have own : trade ∈ s.executed.filter (·.At trade.portfolioId trade.instrumentId) :=
      List.mem_filter.mpr ⟨member, decide_eq_true ⟨rfl, rfl⟩⟩
    have ids : ((s.executed.filter (·.At trade.portfolioId trade.instrumentId)).map
        Trade.tradeId).Nodup := distinct.sublist (List.filter_sublist.map _)
    have once := List.count_eq_one_of_mem ids (List.mem_map_of_mem own)
    rw [storedTrades_of_booked settled.toStored booked, List.countP_map]
    rw [List.count, List.countP_map] at once
    rw [← once]
    refine List.countP_congr fun t _ => ?_
    simp only [Function.comp_apply, Trade.data, beq_iff_eq]
    exact decide_eq_true_iff
  · intro trade member
    obtain ⟨history, settled, booked⟩ := books trade.portfolioId trade.instrumentId
    have own : trade ∈ s.executed.filter (·.At trade.portfolioId trade.instrumentId) :=
      List.mem_filter.mpr ⟨member, decide_eq_true ⟨rfl, rfl⟩⟩
    have nonempty : history ≠ [] := by
      rintro rfl
      rw [List.map_nil, eq_comm, List.map_eq_nil_iff] at booked
      rw [booked] at own
      exact absurd own List.not_mem_nil
    obtain ⟨earlier, newest, rfl⟩ := (List.eq_nil_or_concat history).resolve_left nonempty
    rw [List.concat_eq_append] at settled booked
    obtain ⟨instant, ⟨row, found, quantity, -⟩, -⟩ := settled.projected earlier newest rfl
    simp only [PositionAggregate.after_portfolioId, PositionAggregate.after_instrumentId,
      positionOf_portfolioId, positionOf_instrumentId] at found
    have applicable : newest.Applicable := settled.applicable newest (by simp)
    have total := quantity_of_booked (a := .empty trade.portfolioId trade.instrumentId) booked
    refine ⟨row, found, ?_⟩
    rw [quantity, (PositionAggregate.after_stamped_numbers _ applicable instant).1,
      ← positionOf_append]
    exact total.trans (zero_add _)

/-- If every delivery is of a trade whose lot is still open, or of one stored
under its own identifier, each executed trade is stored exactly once. -/
theorem exactlyOnce_of_harmless {fund : String} {calls : List Call} {final : FundState}
    (draws : (calls.filterMap Call.drawn).Nodup)
    (harmless : (fundSystem fund).Along HarmlessDelivery {} calls)
    (ran : (fundSystem fund).run {} calls = some final) : ExactlyOnce final := by
  have books : Books final := System.invariant_along
    (fun s call next books quiet stepped => books.step quiet stepped) harmless ran Books.start
  have drawn := executed_sublist ran
  exact books.exactlyOnce (draws.sublist (by simpa using drawn))

def aTrade (side : TradeSide) (quantity : Decimal) : Trade :=
  ⟨.ofNat 7, "AAPL", side, quantity, 100, "USD", .ofNat 1⟩

def aDirectCall (side : TradeSide) (quantity : Decimal) : Call :=
  .direct ⟨1, fun _ => 1⟩ ⟨some "alpha", none, none⟩ (aTrade side quantity) none

def aDelivery : Call := .deliver 0 ⟨2, fun _ => 2⟩ (.ofNat 0)

/-- A direct sell and one delivery of the event it published: the trade is
stored twice and the position is short twice its quantity. -/
theorem directSell_delivered_twice :
    ([aDirectCall .sell 10, aDelivery].filterMap Call.drawn).Nodup ∧
      ∃ final, (fundSystem "alpha").run {} [aDirectCall .sell 10, aDelivery] = some final ∧
        (final.db.position ⟨7, by decide⟩ "AAPL").map (·.quantity) = some (-20) ∧
        ¬ ExactlyOnce final := by
  refine ⟨by decide, ?_⟩
  have ran : ((fundSystem "alpha").run {} [aDirectCall .sell 10, aDelivery]).map (fun s =>
      (s.executed, (storedTrades s.db ⟨7, by decide⟩ "AAPL").countP (·.tradeId = ⟨1, by decide⟩),
        (s.db.position ⟨7, by decide⟩ "AAPL").map (·.quantity))) =
      some ([aTrade .sell 10], 2, some (-20)) := by decide +kernel
  obtain ⟨final, reached, values⟩ := Option.map_eq_some_iff.mp ran
  simp only [Prod.mk.injEq] at values
  obtain ⟨executed, twice, quantity⟩ := values
  refine ⟨final, reached, quantity, fun exactly => ?_⟩
  have once := exactly.once (aTrade .sell 10) (by simp [executed])
  exact absurd (twice.symm.trans once) (by decide)

/-- A direct buy whose event is delivered while its lot is open. -/
theorem exactlyOnce_of_harmless_buy :
    ∃ final, (fundSystem "alpha").run {} [aDirectCall .buy 10, aDelivery] = some final ∧
      ExactlyOnce final := by
  have reached : ((fundSystem "alpha").run {} [aDirectCall .buy 10, aDelivery]).isSome = true := by
    decide +kernel
  obtain ⟨final, ran⟩ := Option.isSome_iff_exists.mp reached
  exact ⟨final, ran, exactlyOnce_of_harmless (by decide) (by decide +kernel) ran⟩

end MiniHedge.Positions
