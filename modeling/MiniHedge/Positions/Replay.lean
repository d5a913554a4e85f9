import MiniHedge.Positions.Consistent

/-! Rebuilding the read models against the live projection.

The rebuild takes the aggregate identifier apart at its colons, writes the
literal currency, and gives the newest lot the instant of its transaction where
the live projection gave it the instant of the handler's clock.
-/

set_option autoImplicit false

namespace MiniHedge.Positions

open MiniHedge.Python MiniHedge.Library

def LotRecord.key (row : LotRecord) : LotKey := toLex (row.acquiredAt, row.id)

/-- The lots in order of acquisition. -/
def byAcquisition (rows : List LotRecord) : List LotRecord := sortOn LotRecord.key rows

/-- The rebuild run in `source` leaves the position row and the lots of `db`. -/
def RebuildsTo (source db : Database) (portfolioId : UUID) (instrumentId : String) : Prop :=
  ∃ next, source.rebuild (aggregateId portfolioId instrumentId) = .ok next ∧
    (next.position portfolioId instrumentId).map CurrentPositionRecord.columns =
      (db.position portfolioId instrumentId).map CurrentPositionRecord.columns ∧
    (byAcquisition (next.lotsOf portfolioId instrumentId)).map LotRecord.columns =
      (byAcquisition (db.lotsOf portfolioId instrumentId)).map LotRecord.columns

/-- The newest record opened this lot: it is a buy, or a sell that went short. -/
def OpenedBy (record : PositionEventRecord) (row : LotRecord) : Prop :=
  record.eventType = "trade.buy" ∨ record.eventType = "trade.sell" ∧ row.quantity < 0

instance (record : PositionEventRecord) (row : LotRecord) : Decidable (OpenedBy record row) :=
  inferInstanceAs (Decidable (_ ∨ _))

/-- The lot opened by the newest event stands to every other lot of the position
as it would under the instant at which its record was stored. -/
def NewestInOrder (db : Database) (portfolioId : UUID) (instrumentId : String) : Prop :=
  ∀ record ∈ (db.recordsOf (aggregateId portfolioId instrumentId)).getLast?,
    ∀ newest ∈ (db.lotsOf portfolioId instrumentId).getLast?, OpenedBy record newest →
      ∀ row ∈ (db.lotsOf portfolioId instrumentId).dropLast,
        row.key ≤ newest.key ↔ row.key ≤ toLex (record.createdAt, newest.id)

section Rows

variable {db : Database} {portfolioId : UUID} {instrumentId : String} {earlier : List TradeEvent}
  {newest : TradeEvent}

theorem last_record (stored : Stored db portfolioId instrumentId (earlier ++ [newest])) :
    ∃ record, (db.recordsOf (aggregateId portfolioId instrumentId)).getLast? = some record ∧
      record.eventType = newest.eventType.value ∧ record.createdAt = newest.timestamp := by
  have last := congrArg List.getLast? stored.decoded
  simp only [List.getLast?_map, List.getLast?_append, List.getLast?_singleton, Option.some_or,
    Option.map_some, Option.map_eq_some_iff] at last
  obtain ⟨record, found, read⟩ := last
  exact ⟨record, found, EventStore.deserialize_ok read⟩

theorem opened_sell_short {a : PositionAggregate} {t : Datetime} {d : TradeEventData}
    {lot : LotState} (opened : a.opened ⟨.tradeSell, t, .trade d⟩ = some lot) :
    lot.quantity < 0 := by
  simp only [PositionAggregate.opened] at opened
  split at opened
  · rename_i short
    cases opened
    exact neg_lt_zero.mpr short
  · cases opened

theorem kept_sell_long {a : PositionAggregate} {t : Datetime} {d : TradeEventData}
    {lot : LotState} (kept : lot ∈ a.kept ⟨.tradeSell, t, .trade d⟩) : 0 < lot.quantity := by
  simpa using (List.mem_filter.mp kept).2

/-- The newest record opened the last lot exactly when the newest event did. -/
theorem openedBy_iff {a : PositionAggregate} (applicable : newest.Applicable) {t : Datetime}
    {record : PositionEventRecord} (typed : record.eventType = newest.eventType.value)
    {rows : List LotRecord} {row : LotRecord}
    (held : rows ++ [row] = (a.after (newest.stamped t)).lots.map
      (LotRecord.ofState portfolioId instrumentId)) :
    OpenedBy record row ↔ a.opened newest ≠ none := by
  rw [PositionAggregate.after_lots a (applicable.stamped t),
    PositionAggregate.kept_stamped a applicable, PositionAggregate.opened_stamped a applicable,
    List.map_append] at held
  rw [OpenedBy, typed]
  cases applicable with
  | buy t' d => simp [PositionEventType.value, PositionAggregate.opened]
  | sell t' d =>
    cases opened : a.opened ⟨.tradeSell, t', .trade d⟩ with
    | none =>
      rw [opened, Option.map_none, Option.toList_none, List.map_nil, List.append_nil] at held
      have member : row ∈ (a.kept ⟨.tradeSell, t', .trade d⟩).map
          (LotRecord.ofState portfolioId instrumentId) := held ▸ by simp
      obtain ⟨lot, long, rfl⟩ := List.mem_map.mp member
      have positive : 0 < (LotRecord.ofState portfolioId instrumentId lot).quantity :=
        kept_sell_long long
      simp [PositionEventType.value, positive.le]
    | some lot =>
      rw [opened, Option.map_some, Option.toList_some, List.map_singleton] at held
      obtain ⟨-, same⟩ := List.append_inj' held rfl
      have negative : row.quantity < 0 := by
        rw [List.singleton_inj.mp same]
        exact opened_sell_short opened
      simp [PositionEventType.value, negative]
  | split t' d nonzero => simp [PositionEventType.value, PositionAggregate.opened]
  | dividend t' d => simp [PositionEventType.value, PositionAggregate.opened]

/-- The rebuilt lots come in the live order of acquisition exactly when the
newest lot is in order. -/
theorem byAcquisition_iff (settled : Settled db portfolioId instrumentId (earlier ++ [newest]))
    (unique : (db.lots.map LotRecord.id).Nodup) :
    (byAcquisition ((positionOf portfolioId instrumentId (earlier ++ [newest])).lots.map
        (LotRecord.ofState portfolioId instrumentId))).map LotRecord.columns =
      (byAcquisition (db.lotsOf portfolioId instrumentId)).map LotRecord.columns ↔
    NewestInOrder db portfolioId instrumentId := by
  obtain ⟨record, last, typed, stored⟩ := last_record settled.toStored
  obtain ⟨instant, -, lots⟩ := settled.projected earlier newest rfl
  have applicable : newest.Applicable := settled.applicable newest (by simp)
  have live := PositionAggregate.after_lots (positionOf portfolioId instrumentId earlier)
    (applicable.stamped instant)
  have replayed := PositionAggregate.after_lots (positionOf portfolioId instrumentId earlier)
    applicable
  rw [PositionAggregate.kept_stamped _ applicable, PositionAggregate.opened_stamped _ applicable]
    at live
  simp only [PositionAggregate.after_portfolioId, PositionAggregate.after_instrumentId,
    positionOf_portfolioId, positionOf_instrumentId] at lots
  rw [positionOf_append, replayed]
  cases opened : (positionOf portfolioId instrumentId earlier).opened newest with
  | none =>
    -- the last trade has opened no lot: the stored lots are those of the replay
    have same : db.lotsOf portfolioId instrumentId =
        ((positionOf portfolioId instrumentId earlier).kept newest ++ []).map
          (LotRecord.ofState portfolioId instrumentId) := by
      rw [lots, live, opened]
      rfl
    rw [Option.toList_none, same]
    refine iff_of_true rfl ?_
    intro record' found row rowFound by'
    obtain rfl : record = record' := Option.some.inj (last.symm.trans found)
    have split : (db.lotsOf portfolioId instrumentId).dropLast ++ [row] =
        db.lotsOf portfolioId instrumentId := List.dropLast_append_getLast? _ rowFound
    exact absurd opened ((openedBy_iff applicable typed (split.trans lots)).mp by')
  | some lot =>
    rw [opened] at live
    simp only [Option.map_some, Option.toList_some] at live ⊢
    have ids : ((db.lotsOf portfolioId instrumentId).map LotRecord.id).Nodup :=
      unique.sublist (List.filter_sublist.map _)
    -- the replayed lot has the time of the event, the stored one the time of its transaction
    have at' : lot.acquiredAt = newest.timestamp := by
      have stamped := PositionAggregate.opened_stamped (positionOf portfolioId instrumentId earlier)
        applicable newest.timestamp
      rw [TradeEvent.stamped_self, opened, Option.map_some, Option.some.injEq] at stamped
      rw [stamped]
    have held : db.lotsOf portfolioId instrumentId =
        ((positionOf portfolioId instrumentId earlier).kept newest).map
            (LotRecord.ofState portfolioId instrumentId) ++
          [LotRecord.ofState portfolioId instrumentId { lot with acquiredAt := instant }] := by
      rw [lots, live, List.map_append, List.map_singleton]
    have absent : lot.lotId ∉ (((positionOf portfolioId instrumentId earlier).kept newest).map
        (LotRecord.ofState portfolioId instrumentId)).map LotRecord.id := by
      rw [held, List.map_append, List.nodup_append] at ids
      exact fun member => ids.2.2 _ member _ (by simp [LotRecord.ofState]) rfl
    -- the lots before it are the same, so that all depends on where the last one comes
    have order := insertAfter_map_eq_iff LotRecord.key (f := LotRecord.columns)
      (a := LotRecord.ofState portfolioId instrumentId lot)
      (b := LotRecord.ofState portfolioId instrumentId { lot with acquiredAt := instant })
      (l := byAcquisition (((positionOf portfolioId instrumentId earlier).kept newest).map
        (LotRecord.ofState portfolioId instrumentId)))
      (sortOn_sorted _ _) rfl (by
        intro member
        obtain ⟨row, found, same⟩ := List.mem_map.mp member
        refine absent (List.mem_map.mpr ⟨row, (mem_sortOn _).mp found, ?_⟩)
        exact congrArg Prod.fst same)
    rw [held, List.map_append, List.map_singleton, byAcquisition, byAcquisition,
      sortOn_append_singleton, sortOn_append_singleton]
    refine order.trans ?_
    have by' : OpenedBy record
        (LotRecord.ofState portfolioId instrumentId { lot with acquiredAt := instant }) := by
      refine (openedBy_iff applicable typed (held.symm.trans lots)).mpr ?_
      rw [opened]
      exact Option.some_ne_none _
    simp only [NewestInOrder, last, held, List.getLast?_append, List.getLast?_singleton,
      Option.some_or, Option.mem_def, Option.some.injEq, forall_eq', List.dropLast_concat,
      byAcquisition, mem_sortOn, stored, LotRecord.key]
    rw [← at']
    exact ⟨fun order _ row member => (order row member).symm,
      fun order row member => (order by' row member).symm⟩

end Rows

/-! ## The rebuild -/

section Rebuild

variable {source db : Database} {portfolioId : UUID} {instrumentId : String}
  {earlier : List TradeEvent} {newest : TradeEvent}

/-- What a rebuild leaves in `source`, a database with the events of `db` in
which the identifiers of its lots are free. -/
theorem rebuildsTo_iff (settled : Settled db portfolioId instrumentId (earlier ++ [newest]))
    (consistent : Consistent db) (events : source.events = db.events)
    (unique : ((source.lots.filter (· ∉ source.lotsOf portfolioId instrumentId)).map LotRecord.id ++
      (db.lotsOf portfolioId instrumentId).map LotRecord.id).Nodup) :
    RebuildsTo source db portfolioId instrumentId ↔
      (':' ∉ instrumentId.toList ∧ NewestInOrder db portfolioId instrumentId) ∧
        ∀ row ∈ db.position portfolioId instrumentId,
          ((source.position portfolioId instrumentId).map (·.currency)).getD "USD" =
            row.currency := by
  by_cases colon : ':' ∈ instrumentId.toList
  · refine iff_of_false ?_ fun both => both.1.1 colon
    rintro ⟨next, rebuilt, -⟩
    rw [Database.rebuild_colon portfolioId colon] at rebuilt
    cases rebuilt
  obtain ⟨live, found, numbers⟩ := Option.map_eq_some_iff.mp (settled.row.trans (if_neg (by simp)))
  obtain ⟨held, lots, same⟩ := settled.lots
  have ids : (db.lotsOf portfolioId instrumentId).map LotRecord.id =
      ((positionOf portfolioId instrumentId (earlier ++ [newest])).lots.map
        (LotRecord.ofState portfolioId instrumentId)).map LotRecord.id := by
    rw [lots, List.map_map, List.map_map]
    exact same LotState.lotId fun _ _ => rfl
  have nonzero := consistent.lots_nonzero settled
  have fits : instrumentId.length ≤ 32 ∧ ("USD" : String).length ≤ 3 := by
    have inside := consistent.fits live (List.mem_of_find?_eq_some found)
    rw [(Database.position_at found).2] at inside
    exact ⟨inside, by decide⟩
  have stored : Stored source portfolioId instrumentId (earlier ++ [newest]) :=
    settled.toStored.congr (Database.recordsOf_congr events _)
  obtain ⟨next, row, projected, of, written, projects⟩ := Database.project_ok
    (a := positionOf portfolioId instrumentId (earlier ++ [newest])) (by simpa using fits) nonzero
    (by simpa only [positionOf_portfolioId, positionOf_instrumentId, List.map_append, ← ids]
      using unique)
  have rebuilt := (Database.rebuild_plain stored colon).trans projected
  have replayedLots := projects.lots
  have currency := of.currency
  rw [positionOf_portfolioId, positionOf_instrumentId] at written replayedLots currency
  have columns : row.columns = live.columns ↔
      ((source.position portfolioId instrumentId).map (·.currency)).getD "USD" = live.currency := by
    simp only [CurrentPositionRecord.numbers, PositionAggregate.numbers, Prod.mk.injEq] at numbers
    obtain ⟨quantity, avgCost, costBasis, realizedPnl⟩ := numbers
    simp only [CurrentPositionRecord.columns, of.quantity, of.avgCost, of.costBasis, of.realizedPnl,
      quantity, avgCost, costBasis, realizedPnl, currency, Prod.mk.injEq, true_and]
  simp only [RebuildsTo, rebuilt, Except.ok.injEq, exists_eq_left', written, found, replayedLots,
    byAcquisition_iff settled consistent.unique, Option.map_some, Option.some.injEq, columns,
    Option.mem_def, forall_eq']
  exact ⟨fun both => ⟨⟨colon, both.2⟩, both.1⟩, fun both => ⟨both.2, both.1.2⟩⟩

end Rebuild

/-- The rebuild repeats the live projection exactly for identifiers without a
colon whose newest lot is in order; into emptied read models it also writes the
literal currency. -/
theorem rebuildsTo_handleAll_iff (calls : List HandlerCall) (portfolioId : UUID)
    (instrumentId : String)
    (applied : (handleAll calls).recordsOf (aggregateId portfolioId instrumentId) ≠ []) :
    (RebuildsTo (handleAll calls) (handleAll calls) portfolioId instrumentId ↔
      ':' ∉ instrumentId.toList ∧ NewestInOrder (handleAll calls) portfolioId instrumentId) ∧
    (RebuildsTo { events := (handleAll calls).events } (handleAll calls) portfolioId instrumentId ↔
      (':' ∉ instrumentId.toList ∧ NewestInOrder (handleAll calls) portfolioId instrumentId) ∧
        ∀ row ∈ (handleAll calls).position portfolioId instrumentId, "USD" = row.currency) := by
  have consistent := consistent_handleAll calls
  generalize handleAll calls = db at applied consistent
  obtain ⟨history, settled⟩ := consistent.settled portfolioId instrumentId
  have nonempty : history ≠ [] := by
    rintro rfl
    exact applied (List.length_eq_zero_iff.mp settled.length)
  obtain ⟨earlier, newest, rfl⟩ := (List.eq_nil_or_concat history).resolve_left nonempty
  rw [List.concat_eq_append] at settled
  have own : ((db.lotsOf portfolioId instrumentId).map LotRecord.id).Nodup :=
    consistent.unique.sublist (List.filter_sublist.map _)
  constructor
  · rw [rebuildsTo_iff settled consistent rfl
      (consistent.lots_replaced portfolioId instrumentId)]
    refine and_iff_left fun row found => ?_
    rw [Option.mem_def.mp found]
    rfl
  · have events : ({ events := db.events } : Database).events = db.events := rfl
    rw [rebuildsTo_iff settled consistent events own]
    rfl

def tradeCall (instrumentId : String) (currency : String) : HandlerCall :=
  .trade ⟨1, fun _ => 2⟩ ⟨some "alpha", none, none⟩
    ⟨.ofNat 7, instrumentId, .buy, 10, 100, currency, .ofNat 1⟩ none

/-- A colon in the instrument identifier: the trade is projected, and the
rebuild of the same aggregate raises. -/
theorem rebuild_fails_on_colon :
    ((handleAll [tradeCall "BTC:USD" "USD"]).position ⟨7, by decide⟩ "BTC:USD").map
        (·.quantity) = some 10 ∧
      (handleAll [tradeCall "BTC:USD" "USD"]).recordsOf (aggregateId ⟨7, by decide⟩ "BTC:USD") ≠ [] ∧
      ¬ RebuildsTo (handleAll [tradeCall "BTC:USD" "USD"]) (handleAll [tradeCall "BTC:USD" "USD"])
        ⟨7, by decide⟩ "BTC:USD" := by
  refine ⟨by decide +kernel, by decide +kernel, ?_⟩
  rintro ⟨next, rebuilt, -⟩
  rw [Database.rebuild_colon _ (by decide)] at rebuilt
  cases rebuilt

theorem rebuildsTo_one_buy :
    RebuildsTo (handleAll [tradeCall "AAPL" "EUR"]) (handleAll [tradeCall "AAPL" "EUR"])
        ⟨7, by decide⟩ "AAPL" ∧
      ¬ RebuildsTo { events := (handleAll [tradeCall "AAPL" "EUR"]).events }
        (handleAll [tradeCall "AAPL" "EUR"]) ⟨7, by decide⟩ "AAPL" := by
  have both := rebuildsTo_handleAll_iff [tradeCall "AAPL" "EUR"] ⟨7, by decide⟩ "AAPL"
    (by decide +kernel)
  have row : ((handleAll [tradeCall "AAPL" "EUR"]).position ⟨7, by decide⟩ "AAPL").map
      (·.currency) = some "EUR" := by decide +kernel
  have alone : ((handleAll [tradeCall "AAPL" "EUR"]).lotsOf ⟨7, by decide⟩ "AAPL").dropLast = [] := by
    decide +kernel
  obtain ⟨r, found, euro⟩ := Option.map_eq_some_iff.mp row
  refine ⟨both.1.mpr ⟨by decide, fun record _ newest _ _ row member => ?_⟩, fun rebuilt => ?_⟩
  · rw [alone] at member
    cases member
  · have dollar := (both.2.mp rebuilt).2 r found
    rw [euro] at dollar
    exact absurd dollar (by decide)

end MiniHedge.Positions
