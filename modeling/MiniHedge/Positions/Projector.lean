import MiniHedge.Positions.EventStore

/-! The projection of an aggregate onto the read models, and its rebuild.

`Projects` compares the rows with an aggregate; the position row's currency is
left to its own lemma, since only the first projection writes it.
-/

set_option autoImplicit false

namespace MiniHedge.Positions

open MiniHedge.Python

def LotRecord.ofState (portfolioId : UUID) (instrumentId : String) (lot : LotState) : LotRecord where
  id := lot.lotId
  portfolioId := portfolioId
  instrumentId := instrumentId
  quantity := lot.quantity
  originalQuantity := lot.originalQuantity
  price := lot.price
  acquiredAt := lot.acquiredAt
  tradeId := lot.tradeId

theorem LotRecord.ofState_at (portfolioId : UUID) (instrumentId : String) (lots : List LotState) :
    ∀ row ∈ lots.map (ofState portfolioId instrumentId), row.At portfolioId instrumentId := by
  intro row member
  obtain ⟨lot, -, rfl⟩ := List.mem_map.mp member
  exact ⟨rfl, rfl⟩

namespace Database

/-- The columns `String(32)` and `String(3)` bound the two texts. On a conflict
the trade-derived numbers are replaced and everything else stays. -/
def upsert (db : Database) (portfolioId : UUID) (instrumentId : String)
    (quantity avgCost costBasis realizedPnl : Decimal) (currency : String) : Except Exc Write :=
  if 32 < instrumentId.length ∨ 3 < currency.length then .error .dataError
  else match db.position portfolioId instrumentId with
    | none => .ok (.position {
        portfolioId, instrumentId, quantity, avgCost, costBasis, realizedPnl
        marketPrice := 0, marketValue := 0, unrealizedPnl := 0, currency })
    | some row => .ok (.position { row with quantity, avgCost, costBasis, realizedPnl })

def upsertAggregate (db : Database) (a : PositionAggregate) (currency : String) : Except Exc Write :=
  db.upsert a.portfolioId a.instrumentId a.quantity a.avgCost a.costBasis a.realizedPnl currency

def deleteLots (db : Database) (a : PositionAggregate) : Write :=
  .deleteLots (db.lotsOf a.portfolioId a.instrumentId)

/-- The rows against the primary key and `CHECK (quantity != 0)`. -/
def insertLots (db : Database) (a : PositionAggregate) : Except Exc Write :=
  let rows := a.lots.map (LotRecord.ofState a.portfolioId a.instrumentId)
  if (∃ row ∈ rows, row.quantity = 0) ∨ ¬ ((db.lots ++ rows).map LotRecord.id).Nodup then
    .error .integrityError
  else .ok (.insertLots rows)

def projectLots (db : Database) (a : PositionAggregate) : Except Exc Database := do
  let db := db.write (db.deleteLots a)
  let inserted ← db.insertLots a
  return db.write inserted

def project (db : Database) (a : PositionAggregate) (currency : String) : Except Exc Database := do
  let upserted ← db.upsertAggregate a currency
  (db.write upserted).projectLots a

def rebuild (db : Database) (aggregateId : String) : Except Exc Database :=
  match Python.split ':' aggregateId.toList with
  | [portfolioText, instrumentText] => do
    let portfolioId ← (Field.text (String.ofList portfolioText)).asUuid
    let instrumentId := String.ofList instrumentText
    let events ← db.getByAggregate aggregateId
    let aggregate ← PositionAggregate.fromEvents portfolioId instrumentId events
    db.project aggregate "USD"
  | [_] => .error (.valueError "not enough values to unpack (expected 2, got 1)")
  | _ => .error (.valueError "too many values to unpack (expected 2)")

end Database

/-- The columns of a lot other than its instant of acquisition. -/
def LotRecord.columns (row : LotRecord) : UUID × Decimal × Decimal × Decimal × UUID :=
  (row.id, row.quantity, row.originalQuantity, row.price, row.tradeId)

/-- The columns of a position that its projection writes. -/
def CurrentPositionRecord.columns (row : CurrentPositionRecord) :
    Decimal × Decimal × Decimal × Decimal × String :=
  (row.quantity, row.avgCost, row.costBasis, row.realizedPnl, row.currency)

/-- The row's numbers and the lots are the aggregate's. -/
structure Projects (db : Database) (a : PositionAggregate) : Prop where
  row : ∃ row, db.position a.portfolioId a.instrumentId = some row ∧ row.quantity = a.quantity ∧
    row.avgCost = a.avgCost ∧ row.costBasis = a.costBasis ∧ row.realizedPnl = a.realizedPnl
  lots : db.lotsOf a.portfolioId a.instrumentId =
    a.lots.map (LotRecord.ofState a.portfolioId a.instrumentId)

/-- The row an upsert leaves: its numbers, its key, and the currency of the row
that was there before, if any. -/
structure UpsertOf (db : Database) (a : PositionAggregate) (currency : String)
    (row : CurrentPositionRecord) : Prop where
  own : row.At a.portfolioId a.instrumentId
  quantity : row.quantity = a.quantity
  avgCost : row.avgCost = a.avgCost
  costBasis : row.costBasis = a.costBasis
  realizedPnl : row.realizedPnl = a.realizedPnl
  currency : row.currency =
    ((db.position a.portfolioId a.instrumentId).map (·.currency)).getD currency

namespace Database

variable {db : Database} {a : PositionAggregate} {currency : String}

theorem position_at {portfolioId : UUID} {instrumentId : String} {row : CurrentPositionRecord}
    (found : db.position portfolioId instrumentId = some row) : row.At portfolioId instrumentId := by
  simpa using List.find?_some found

theorem upsertAggregate_ok (fits : a.instrumentId.length ≤ 32 ∧ currency.length ≤ 3) :
    ∃ row, db.upsertAggregate a currency = .ok (.position row) ∧ UpsertOf db a currency row := by
  have inside : ¬ (32 < a.instrumentId.length ∨ 3 < currency.length) := by omega
  simp only [upsertAggregate, upsert, if_neg inside]
  cases found : db.position a.portfolioId a.instrumentId with
  | none => exact ⟨_, rfl, ⟨rfl, rfl⟩, rfl, rfl, rfl, rfl, by rw [found]; rfl⟩
  | some row =>
    have own := position_at found
    exact ⟨_, rfl, ⟨own.1, own.2⟩, rfl, rfl, rfl, rfl, by rw [found]; rfl⟩

theorem upsertAggregate_cases {w : Write} (upserted : db.upsertAggregate a currency = .ok w) :
    (a.instrumentId.length ≤ 32 ∧ currency.length ≤ 3) ∧
      ∃ row, w = .position row ∧ UpsertOf db a currency row := by
  by_cases outside : 32 < a.instrumentId.length ∨ 3 < currency.length
  · simp [upsertAggregate, upsert, outside] at upserted
  · have fits : a.instrumentId.length ≤ 32 ∧ currency.length ≤ 3 := by omega
    have reached : ∃ row, db.upsertAggregate a currency = .ok (.position row) ∧
        UpsertOf db a currency row := upsertAggregate_ok fits
    obtain ⟨row, same, of⟩ := reached
    rw [same] at upserted
    exact ⟨fits, row, (Except.ok.inj upserted).symm, of⟩

theorem insertLots_cases {w : Write} (inserted : db.insertLots a = .ok w) :
    w = .insertLots (a.lots.map (LotRecord.ofState a.portfolioId a.instrumentId)) ∧
      (∀ lot ∈ a.lots, lot.quantity ≠ 0) ∧
      ((db.lots ++ a.lots.map (LotRecord.ofState a.portfolioId a.instrumentId)).map
        LotRecord.id).Nodup := by
  simp only [insertLots] at inserted
  split at inserted
  · cases inserted
  · rename_i legal
    rw [not_or, not_not] at legal
    refine ⟨(Except.ok.inj inserted).symm, fun lot member zero => legal.1 ?_, legal.2⟩
    exact ⟨_, List.mem_map_of_mem member, zero⟩

theorem insertLots_ok (nonzero : ∀ lot ∈ a.lots, lot.quantity ≠ 0)
    (unique : ((db.lots ++ a.lots.map (LotRecord.ofState a.portfolioId a.instrumentId)).map
      LotRecord.id).Nodup) :
    db.insertLots a =
      .ok (.insertLots (a.lots.map (LotRecord.ofState a.portfolioId a.instrumentId))) := by
  have legal : ¬ ((∃ row ∈ a.lots.map (LotRecord.ofState a.portfolioId a.instrumentId),
      row.quantity = 0) ∨ ¬ ((db.lots ++ a.lots.map
        (LotRecord.ofState a.portfolioId a.instrumentId)).map LotRecord.id).Nodup) := by
    rintro (⟨row, member, zero⟩ | repeated)
    · obtain ⟨lot, held, rfl⟩ := List.mem_map.mp member
      exact nonzero lot held zero
    · exact repeated unique
  exact if_neg legal

/-- The row, the deletion of the position's lots and the new lots together
leave the read models of the aggregate. -/
theorem projects_writes {row : CurrentPositionRecord} (of : UpsertOf db a currency row)
    {d : List LotRecord} (all : d = db.lotsOf a.portfolioId a.instrumentId) :
    Projects (((db.write (.position row)).write (.deleteLots d)).write
      (.insertLots (a.lots.map (LotRecord.ofState a.portfolioId a.instrumentId)))) a := by
  constructor
  · exact ⟨row, position_write_own db of.own, of.quantity, of.avgCost, of.costBasis, of.realizedPnl⟩
  · have none := lotsOf_deleteLots_own (db.write (.position row)) a.portfolioId a.instrumentId
    rw [lotsOf_insertLots_own _ (LotRecord.ofState_at _ _ _), all]
    have same : db.lotsOf a.portfolioId a.instrumentId =
        (db.write (.position row)).lotsOf a.portfolioId a.instrumentId := rfl
    rw [same, none, List.nil_append]

/-- What `project` did, when it did not fail. -/
theorem project_cases {next : Database} (projected : db.project a currency = .ok next) :
    (a.instrumentId.length ≤ 32 ∧ currency.length ≤ 3) ∧ (∀ lot ∈ a.lots, lot.quantity ≠ 0) ∧
      ∃ row, UpsertOf db a currency row ∧
        next = ((db.write (.position row)).write
          (.deleteLots (db.lotsOf a.portfolioId a.instrumentId))).write
            (.insertLots (a.lots.map (LotRecord.ofState a.portfolioId a.instrumentId))) ∧
        (next.lots.map LotRecord.id).Nodup := by
  simp only [project, projectLots, Bind.bind, Except.bind] at projected
  cases upserted : db.upsertAggregate a currency with
  | error e => simp [upserted] at projected
  | ok w =>
    obtain ⟨fits, row, rfl, of⟩ := upsertAggregate_cases upserted
    simp only [upserted] at projected
    cases inserted : ((db.write (.position row)).write
        ((db.write (.position row)).deleteLots a)).insertLots a with
    | error e => simp [inserted] at projected
    | ok w =>
      obtain ⟨rfl, nonzero, unique⟩ := insertLots_cases inserted
      simp only [inserted, Pure.pure, Except.pure, Except.ok.injEq] at projected
      refine ⟨fits, nonzero, row, of, projected.symm, ?_⟩
      rw [← projected]
      exact unique

theorem project_ok (fits : a.instrumentId.length ≤ 32 ∧ currency.length ≤ 3)
    (nonzero : ∀ lot ∈ a.lots, lot.quantity ≠ 0)
    (unique : ((db.lots.filter (· ∉ db.lotsOf a.portfolioId a.instrumentId) ++
      a.lots.map (LotRecord.ofState a.portfolioId a.instrumentId)).map LotRecord.id).Nodup) :
    ∃ next row, db.project a currency = .ok next ∧ UpsertOf db a currency row ∧
      next.position a.portfolioId a.instrumentId = some row ∧ Projects next a := by
  have reached : ∃ row, db.upsertAggregate a currency = .ok (.position row) ∧
      UpsertOf db a currency row := upsertAggregate_ok fits
  obtain ⟨row, upserted, of⟩ := reached
  have inserted : ((db.write (.position row)).write
      (.deleteLots (db.lotsOf a.portfolioId a.instrumentId))).insertLots a =
        .ok (.insertLots (a.lots.map (LotRecord.ofState a.portfolioId a.instrumentId))) :=
    insertLots_ok nonzero unique
  refine ⟨((db.write (.position row)).write (.deleteLots
    (db.lotsOf a.portfolioId a.instrumentId))).write (.insertLots (a.lots.map
      (LotRecord.ofState a.portfolioId a.instrumentId))), row, ?_, of,
    position_write_own db of.own, projects_writes of rfl⟩
  have deleted : (db.write (.position row)).deleteLots a =
      .deleteLots (db.lotsOf a.portfolioId a.instrumentId) := rfl
  simp only [project, projectLots, upserted, deleted, inserted, Bind.bind, Except.bind, Pure.pure,
    Except.pure]

/-- Where the aggregate identifier has no further colon, the rebuild loads the
history of the position and projects it under the literal currency. -/
theorem rebuild_plain {portfolioId : UUID} {instrumentId : String} {history : List TradeEvent}
    (stored : Stored db portfolioId instrumentId history) (plain : ':' ∉ instrumentId.toList) :
    db.rebuild (aggregateId portfolioId instrumentId) =
      db.project (history.foldl .after (.empty portfolioId instrumentId)) "USD" := by
  have parts : Python.split ':' (aggregateId portfolioId instrumentId).toList =
      [portfolioId.str.toList, instrumentId.toList] := by
    have text : (aggregateId portfolioId instrumentId).toList =
        portfolioId.str.toList ++ ':' :: instrumentId.toList := by simp [aggregateId]
    rw [text, split_append (UUID.colon_not_mem_str portfolioId), split_absent plain]
  simp only [rebuild, parts, String.ofList_toList, Field.asUuid_str, stored.getByAggregate,
    stored.fromEvents, Bind.bind, Except.bind]

theorem rebuild_colon (portfolioId : UUID) {instrumentId : String}
    (colon : ':' ∈ instrumentId.toList) :
    db.rebuild (aggregateId portfolioId instrumentId) =
      .error (.valueError "too many values to unpack (expected 2)") := by
  have text : (aggregateId portfolioId instrumentId).toList =
      portfolioId.str.toList ++ ':' :: instrumentId.toList := by simp [aggregateId]
  have count : 0 < instrumentId.toList.count ':' := List.count_pos_iff.mpr colon
  have length := length_split ':' instrumentId.toList
  simp only [rebuild, text, split_append (UUID.colon_not_mem_str portfolioId)]
  cases parts : Python.split ':' instrumentId.toList with
  | nil => simp [parts] at length
  | cons part parts' =>
    cases parts' with
    | nil =>
      rw [parts, List.length_singleton] at length
      omega
    | cons _ _ => rfl

end Database

end MiniHedge.Positions
