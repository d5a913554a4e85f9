import MiniHedge.Positions.ReadModel

/-! What every call of the handler keeps, over any sequence of calls. -/

set_option autoImplicit false

namespace MiniHedge.Positions

open MiniHedge.Python

inductive HandlerCall where
  | trade (clock : Clock) (context : RequestContext) (trade : Trade) (key : Option String)
  | event (clock : Clock) (fresh : UUID) (event : BaseEvent)

/-- A call that raises leaves the database as it was. -/
def handle (db : Database) : HandlerCall → Database
  | .trade clock context trade key =>
    match handleTrade db clock context trade key with
    | .error _ => db
    | .ok (next, _) => next
  | .event clock fresh event =>
    match handleTradeEvent db clock fresh event with
    | .error _ => db
    | .ok (next, _) => next

def handleAll (calls : List HandlerCall) : Database := calls.foldl handle {}

structure Consistent (db : Database) : Prop where
  settled : ∀ portfolioId instrumentId, ∃ history, Settled db portfolioId instrumentId history
  unique : (db.lots.map LotRecord.id).Nodup
  nonzero : ∀ row ∈ db.lots, row.quantity ≠ 0
  fits : ∀ row ∈ db.positions, row.instrumentId.length ≤ 32

theorem Consistent.start : Consistent {} where
  settled := fun portfolioId instrumentId => ⟨[], Settled.nil portfolioId instrumentId⟩
  unique := List.nodup_nil
  nonzero := by simp
  fits := by simp

theorem mem_putPosition {row r : CurrentPositionRecord} {rows : List CurrentPositionRecord}
    (member : r ∈ putPosition row rows) : r = row ∨ r ∈ rows := by
  induction rows with
  | nil => exact .inl (List.mem_singleton.mp member)
  | cons first rest ih =>
    rw [putPosition] at member
    split at member
    · rcases List.mem_cons.mp member with same | later
      · exact .inl same
      · exact .inr (List.mem_cons_of_mem _ later)
    · rcases List.mem_cons.mp member with same | later
      · exact .inr (List.mem_cons.mpr (.inl same))
      · exact (ih later).imp id (List.mem_cons_of_mem _)

theorem Consistent.commit {db next : Database} (consistent : Consistent db)
    {history : List TradeEvent} {c : Command} {createdAt : Datetime} {row : CurrentPositionRecord}
    (stored : Stored db c.portfolioId c.instrumentId history)
    (own : c.For c.portfolioId c.instrumentId)
    (committed : Committed db history c createdAt row next) : Consistent next := by
  have of := committed.upserted
  have at' : row.At c.portfolioId c.instrumentId := by simpa using of.own
  have writes := committed.writes
  constructor
  · intro portfolioId instrumentId
    by_cases same : c.portfolioId = portfolioId ∧ c.instrumentId = instrumentId
    · obtain ⟨rfl, rfl⟩ := same
      rw [writes]
      exact ⟨_, (stored.commit own createdAt of rfl).1⟩
    · obtain ⟨others, settled⟩ := consistent.settled portfolioId instrumentId
      rw [writes]
      exact ⟨others, settled.commit_other same createdAt at' rfl⟩
  · exact committed.unique
  · intro r member
    rw [writes] at member
    simp only [Command.writes, Database.writes_cons, Database.writes_nil, Database.write,
      List.mem_append, List.mem_map] at member
    rcases member with old | ⟨lot, held, rfl⟩
    · exact consistent.nonzero r (List.mem_of_mem_filter old)
    · exact committed.nonzero lot held
  · intro r member
    rw [writes] at member
    rcases mem_putPosition member with rfl | old
    · rw [at'.2]
      exact committed.fits.1
    · exact consistent.fits r old

theorem Consistent.submit {db next : Database} (consistent : Consistent db) {c : Command}
    (own : c.For c.portfolioId c.instrumentId) {starts : Nat → Datetime}
    {downstream : Option (List DownstreamEvent)}
    (submitted : submit db starts c = .ok (next, downstream)) : Consistent next := by
  obtain ⟨createdAt, attempted⟩ := submit_cases submitted
  obtain ⟨history, settled⟩ := consistent.settled c.portfolioId c.instrumentId
  rcases attempt_cases settled.toStored own attempted with
    ⟨-, same, -⟩ | ⟨⟨row, committed⟩, -⟩
  · rwa [same]
  · exact consistent.commit settled.toStored own committed

theorem Consistent.submitted {db next : Database} (consistent : Consistent db)
    (submitted : Submitted db next) : Consistent next := by
  rcases submitted with rfl | ⟨c, starts, downstream, own, done⟩
  · exact consistent
  · exact consistent.submit own done

theorem Consistent.handle {db : Database} (consistent : Consistent db) (call : HandlerCall) :
    Consistent (handle db call) := by
  cases call with
  | trade clock context trade key =>
    simp only [Positions.handle]
    split
    · exact consistent
    · exact consistent.submitted (handleTrade_submitted ‹_›)
  | event clock fresh event =>
    simp only [Positions.handle]
    split
    · exact consistent
    · exact consistent.submitted (handleTradeEvent_submitted ‹_›)

theorem consistent_handleAll (calls : List HandlerCall) : Consistent (handleAll calls) := by
  have kept : ∀ db, Consistent db → Consistent (calls.foldl Positions.handle db) := by
    induction calls with
    | nil => exact fun db consistent => consistent
    | cons call rest ih => exact fun db consistent => ih _ (consistent.handle call)
  exact kept {} Consistent.start

section Lots

variable {db : Database} (consistent : Consistent db) {portfolioId : UUID} {instrumentId : String}
  {history : List TradeEvent}
include consistent

theorem Consistent.lots_nonzero (settled : Settled db portfolioId instrumentId history) :
    ∀ lot ∈ (positionOf portfolioId instrumentId history).lots, lot.quantity ≠ 0 := by
  obtain ⟨held, lots, same⟩ := settled.lots
  intro lot member zero
  have quantities := same LotState.quantity fun _ _ => rfl
  have member' := List.mem_map_of_mem (f := LotState.quantity) member
  rw [← quantities, zero] at member'
  obtain ⟨state, live, none⟩ := List.mem_map.mp member'
  have row : LotRecord.ofState portfolioId instrumentId state ∈ db.lotsOf portfolioId instrumentId :=
    lots ▸ List.mem_map_of_mem live
  exact consistent.nonzero _ (List.mem_of_mem_filter row) none

/-- Lots with the identifiers of the position's own can take their place. -/
theorem Consistent.lots_replaced (portfolioId : UUID) (instrumentId : String) :
    ((db.lots.filter (· ∉ db.lotsOf portfolioId instrumentId)).map LotRecord.id ++
      (db.lotsOf portfolioId instrumentId).map LotRecord.id).Nodup := by
  have kept : db.lots.filter (· ∉ db.lotsOf portfolioId instrumentId) =
      db.lots.filter fun row => !decide (row.At portfolioId instrumentId) := by
    refine List.filter_congr fun row member => ?_
    by_cases at' : row.At portfolioId instrumentId
    · have held : row ∈ db.lotsOf portfolioId instrumentId :=
        List.mem_filter.mpr ⟨member, decide_eq_true at'⟩
      simp [at', held]
    · have absent : row ∉ db.lotsOf portfolioId instrumentId := fun held =>
        at' (of_decide_eq_true (List.mem_filter.mp held).2)
      simp [at', absent]
  have parts := List.filter_append_perm
    (fun row : LotRecord => decide (row.At portfolioId instrumentId)) db.lots
  rw [← List.map_append, kept]
  exact ((List.perm_append_comm.trans parts).map _).nodup_iff.mpr consistent.unique

end Lots

/-! ## What the row of a position shows of it, and what one call does to that -/

@[ext] structure Holding where
  quantity : Decimal
  costBasis : Decimal
  realizedPnl : Decimal
  deriving DecidableEq, Repr

def PositionAggregate.holding (a : PositionAggregate) : Holding :=
  ⟨a.quantity, a.costBasis, a.realizedPnl⟩

/-- A position without a row holds nothing. -/
def holdingOf (db : Database) (portfolioId : UUID) (instrumentId : String) : Holding :=
  match db.position portfolioId instrumentId with
  | none => ⟨0, 0, 0⟩
  | some row => ⟨row.quantity, row.costBasis, row.realizedPnl⟩

namespace PositionAggregate

@[simp] theorem after_split_holding (a : PositionAggregate) (t : Datetime)
    (d : CorporateActionEventData) : (a.after ⟨.stockSplit, t, .corporateAction d⟩).holding =
      { a.holding with quantity := a.holding.quantity * d.splitRatio } := rfl

@[simp] theorem after_dividend_holding (a : PositionAggregate) (t : Datetime)
    (d : CorporateActionEventData) : (a.after ⟨.dividendPaid, t, .corporateAction d⟩).holding =
      { a.holding with realizedPnl := a.holding.realizedPnl + d.dividendAmount } := rfl

end PositionAggregate

theorem Settled.holdingOf {db : Database} {portfolioId : UUID} {instrumentId : String}
    {history : List TradeEvent} (settled : Settled db portfolioId instrumentId history) :
    holdingOf db portfolioId instrumentId =
      (positionOf portfolioId instrumentId history).holding := by
  have row := settled.row
  rw [Positions.holdingOf]
  split at row
  · rename_i none
    rw [Option.map_eq_none_iff.mp row, none]
    rfl
  · obtain ⟨live, found, numbers⟩ := Option.map_eq_some_iff.mp row
    simp only [CurrentPositionRecord.numbers, PositionAggregate.numbers, Prod.mk.injEq] at numbers
    obtain ⟨quantity, -, costBasis, realizedPnl⟩ := numbers
    simp only [found, PositionAggregate.holding, quantity, costBasis, realizedPnl]

section Submit

variable {db next : Database} (consistent : Consistent db) {c : Command}
  (own : c.For c.portfolioId c.instrumentId)
include consistent own

/-- A command that returns is a duplicate, or its event acts on the holding. -/
theorem submit_holding {starts : Nat → Datetime} {downstream : Option (List DownstreamEvent)}
    (submitted : submit db starts c = .ok (next, downstream)) :
    (c.duplicate db = true ∧ next = db) ∨
      c.duplicate db = false ∧ c.currency.length ≤ 3 ∧ ∃ a : PositionAggregate,
        a.holding = holdingOf db c.portfolioId c.instrumentId ∧
        holdingOf next c.portfolioId c.instrumentId = (a.after c.event).holding := by
  obtain ⟨createdAt, attempted⟩ := submit_cases submitted
  obtain ⟨history, settled⟩ := consistent.settled c.portfolioId c.instrumentId
  rcases attempt_cases settled.toStored own attempted with
    ⟨duplicate, same, -⟩ | ⟨⟨row, committed⟩, -⟩
  · exact .inl ⟨duplicate, same⟩
  · refine .inr ⟨committed.fresh, committed.fits.2, _, settled.holdingOf.symm, ?_⟩
    obtain ⟨-, projects⟩ := settled.toStored.commit own createdAt committed.upserted rfl
    obtain ⟨live, found, quantity, -, costBasis, realizedPnl⟩ := projects.row
    rw [← committed.writes] at found
    simp only [Command.position_portfolioId, Command.position_instrumentId] at found
    simp only [holdingOf, found, quantity, costBasis, realizedPnl]
    rfl

omit consistent in
theorem insert_accepted {history : List TradeEvent}
    (stored : Stored db c.portfolioId c.instrumentId history) (fits : c.instrumentId.length ≤ 32)
    (createdAt : Datetime) : db.insertEvent (c.record (history.length + 1) createdAt) =
      .ok (.event (c.record (history.length + 1) createdAt)) := by
  have short : ¬ 128 < (c.record (history.length + 1) createdAt).aggregateId.length := by
    have colon : ":".length = 1 := rfl
    have length : (c.record (history.length + 1) createdAt).aggregateId.length =
        36 + ":".length + c.instrumentId.length := by
      simp [Command.record, Command.aggregateId, aggregateId, UUID.str, UUID.length_chars]
    omega
  have free : ¬ ∃ row ∈ db.events,
      row.aggregateId = (c.record (history.length + 1) createdAt).aggregateId ∧
        row.sequenceNumber = (c.record (history.length + 1) createdAt).sequenceNumber := by
    intro taken
    have bound : 1 ≤ history.length + 1 ∧ history.length + 1 ≤ history.length :=
      (stored.taken_iff (history.length + 1)).mp (taken.imp fun row found =>
        ⟨found.1, found.2.1.trans own.aggregateId, found.2.2⟩)
    omega
  rw [Database.insertEvent, if_neg short, if_neg free]

/-- A command that is new and keeps the lots of its position is accepted. -/
theorem attempt_accepted (createdAt : Datetime) (fresh : c.duplicate db = false)
    (fits : c.instrumentId.length ≤ 32 ∧ c.currency.length ≤ 3)
    (ids : ∀ a : PositionAggregate,
      (a.after c.event).lots.map LotState.lotId = a.lots.map LotState.lotId)
    (nonzero : ∀ a : PositionAggregate, (∀ lot ∈ a.lots, lot.quantity ≠ 0) →
      ∀ lot ∈ (a.after c.event).lots, lot.quantity ≠ 0) :
    ∃ next downstream, attempt db createdAt c = .ok (next, some downstream) := by
  obtain ⟨history, settled⟩ := consistent.settled c.portfolioId c.instrumentId
  obtain ⟨held, lots, same⟩ := settled.lots
  have stored := settled.toStored
  obtain ⟨downstream, loaded⟩ := own.load stored
  have inserted := insert_accepted own stored fits.1 createdAt
  have kept : (db.lotsOf c.portfolioId c.instrumentId).map LotRecord.id =
      ((c.position history).lots.map (LotRecord.ofState c.portfolioId c.instrumentId)).map
        LotRecord.id := by
    rw [lots, List.map_map, List.map_map]
    exact (same LotState.lotId fun _ _ => rfl).trans (ids _).symm
  have unique := consistent.lots_replaced c.portfolioId c.instrumentId
  rw [kept, ← List.map_append] at unique
  have reached : ∃ next row,
      (db.write (.event (c.record (history.length + 1) createdAt))).project (c.position history)
        c.currency = .ok next ∧ _ ∧ next.position _ _ = some row ∧ _ :=
    Database.project_ok (by simpa using fits) (nonzero _ (consistent.lots_nonzero settled))
      (by rw [Command.position_portfolioId, Command.position_instrumentId]; exact unique)
  obtain ⟨next, -, projected, -⟩ := reached
  refine ⟨next, downstream, ?_⟩
  simp only [attempt, fresh, Bool.false_eq_true, if_false, own.aggregateId, stored.getByAggregate,
    stored.nextSequence, loaded, inserted, projected, Bind.bind, Except.bind, Pure.pure, Except.pure]

omit consistent own in
/-- A first attempt that commits is the call. -/
theorem submit_attempt {starts : Nat → Datetime} {result : Database × Option (List DownstreamEvent)}
    (attempted : attempt db (starts 2) c = .ok result) : submit db starts c = .ok result := by
  have first : submit db starts c = submitWith db starts c (1 + 1) := rfl
  rw [first, submitWith, attempted]

end Submit

end MiniHedge.Positions
