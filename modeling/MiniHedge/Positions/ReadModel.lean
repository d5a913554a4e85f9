import MiniHedge.Positions.Settled

/-! The read model of a position against the replay of its stored events. -/

set_option autoImplicit false

namespace MiniHedge.Positions

open MiniHedge.Python

/-- The history of the position in the event store. -/
def historyOf (portfolioId : UUID) (instrumentId : String) (db : Database) : List TradeEvent :=
  match db.getByAggregate (aggregateId portfolioId instrumentId) with
  | .ok history => history
  | .error _ => []

theorem historyOf_eq {db : Database} {portfolioId : UUID} {instrumentId : String}
    {history : List TradeEvent} (stored : Stored db portfolioId instrumentId history) :
    historyOf portfolioId instrumentId db = history := by
  simp [historyOf, stored.getByAggregate]

def PositionAggregate.numbers (a : PositionAggregate) : Decimal × Decimal × Decimal × Decimal :=
  (a.quantity, a.avgCost, a.costBasis, a.realizedPnl)

def CurrentPositionRecord.numbers (row : CurrentPositionRecord) :
    Decimal × Decimal × Decimal × Decimal :=
  (row.quantity, row.avgCost, row.costBasis, row.realizedPnl)

def LotState.columns (lot : LotState) : UUID × Decimal × Decimal × Decimal × UUID :=
  (lot.lotId, lot.quantity, lot.originalQuantity, lot.price, lot.tradeId)

/-- The same events, the newest of them at another instant. -/
def stampNewest (instant : Datetime) : List TradeEvent → List TradeEvent
  | [] => []
  | [newest] => [newest.stamped instant]
  | event :: next :: rest => event :: stampNewest instant (next :: rest)

theorem stampNewest_append (instant : Datetime) (earlier : List TradeEvent) (newest : TradeEvent) :
    stampNewest instant (earlier ++ [newest]) = earlier ++ [newest.stamped instant] := by
  induction earlier with
  | nil => rfl
  | cons event rest ih =>
    cases rest with
    | nil => rfl
    | cons next rest => exact congrArg (event :: ·) ih

section ReadModel

variable (db : Database) (portfolioId : UUID) (instrumentId : String)

/-- All the stored events of the position and what `from_events` makes of them. -/
def replay : Except Exc (List TradeEvent × PositionAggregate) := do
  let events ← db.getByAggregate (aggregateId portfolioId instrumentId)
  let aggregate ← PositionAggregate.fromEvents portfolioId instrumentId events
  return (events, aggregate)

/-- The row and the lots are those of the replay; before the first event there
is no row. -/
def ReadModelMatches : Prop :=
  match replay db portfolioId instrumentId with
  | .error _ => False
  | .ok (events, a) =>
    (db.position portfolioId instrumentId).map CurrentPositionRecord.numbers =
        (if events = [] then none else some a.numbers) ∧
      (db.lotsOf portfolioId instrumentId).map LotRecord.columns = a.lots.map LotState.columns

instance : Decidable (ReadModelMatches db portfolioId instrumentId) := by
  unfold ReadModelMatches
  split <;> infer_instance

def CurrencyMatches : Prop :=
  match replay db portfolioId instrumentId with
  | .error _ => False
  | .ok (_, a) => ∀ row ∈ db.position portfolioId instrumentId, row.currency = a.currency

instance : Decidable (CurrencyMatches db portfolioId instrumentId) := by
  unfold CurrencyMatches
  split <;> infer_instance

/-- The lots with their instants: the newest event counts at the instant of its
handler's clock, not at the one it was stored with. -/
def LotsAtClock : Prop :=
  ∃ instant a, PositionAggregate.fromEvents portfolioId instrumentId
      (stampNewest instant (historyOf portfolioId instrumentId db)) = .ok a ∧
    db.lotsOf portfolioId instrumentId = a.lots.map (LotRecord.ofState portfolioId instrumentId)

end ReadModel

section Settled

variable {db : Database} {portfolioId : UUID} {instrumentId : String} {history : List TradeEvent}

theorem Stored.replay (stored : Stored db portfolioId instrumentId history) :
    replay db portfolioId instrumentId =
      .ok (history, positionOf portfolioId instrumentId history) := by
  simp only [Positions.replay, stored.getByAggregate, stored.fromEvents, Bind.bind, Except.bind,
    Pure.pure, Except.pure, positionOf]

theorem Settled.row (settled : Settled db portfolioId instrumentId history) :
    (db.position portfolioId instrumentId).map CurrentPositionRecord.numbers =
      if history = [] then none else some (positionOf portfolioId instrumentId history).numbers := by
  rcases List.eq_nil_or_concat history with rfl | ⟨earlier, newest, same⟩
  · simp [(settled.untouched rfl).1]
  · rw [List.concat_eq_append] at same
    subst same
    obtain ⟨instant, ⟨row, found, quantity, avgCost, costBasis, realizedPnl⟩, -⟩ :=
      settled.projected earlier newest rfl
    simp only [PositionAggregate.after_portfolioId, PositionAggregate.after_instrumentId,
      positionOf_portfolioId, positionOf_instrumentId] at found
    have applicable : newest.Applicable := settled.applicable newest (by simp)
    obtain ⟨sameQuantity, sameCost, samePnl, -⟩ := PositionAggregate.after_stamped_numbers
      (positionOf portfolioId instrumentId earlier) applicable instant
    have sameAvg := PositionAggregate.after_stamped_avgCost
      (positionOf portfolioId instrumentId earlier) applicable instant
    rw [found, positionOf_append, if_neg (by simp)]
    simp [CurrentPositionRecord.numbers, PositionAggregate.numbers, quantity, avgCost, costBasis,
      realizedPnl, sameQuantity, sameCost, samePnl, sameAvg]

/-- The lots are those of the history, except for the instant of the newest. -/
theorem Settled.lots (settled : Settled db portfolioId instrumentId history) :
    ∃ held : List LotState,
      db.lotsOf portfolioId instrumentId =
        held.map (LotRecord.ofState portfolioId instrumentId) ∧
      ∀ {β : Type} (f : LotState → β), (∀ lot t, f { lot with acquiredAt := t } = f lot) →
        held.map f = (positionOf portfolioId instrumentId history).lots.map f := by
  rcases List.eq_nil_or_concat history with rfl | ⟨earlier, newest, same⟩
  · exact ⟨[], (settled.untouched rfl).2, fun _ _ => rfl⟩
  · rw [List.concat_eq_append] at same
    subst same
    obtain ⟨instant, -, lots⟩ := settled.projected earlier newest rfl
    simp only [PositionAggregate.after_portfolioId, PositionAggregate.after_instrumentId,
      positionOf_portfolioId, positionOf_instrumentId] at lots
    refine ⟨_, lots, fun f blind => ?_⟩
    rw [positionOf_append]
    exact PositionAggregate.after_stamped_lots _ (settled.applicable newest (by simp)) f blind instant

theorem Settled.lotsAtClock (settled : Settled db portfolioId instrumentId history) :
    LotsAtClock db portfolioId instrumentId := by
  rw [LotsAtClock, historyOf_eq settled.toStored]
  rcases List.eq_nil_or_concat history with rfl | ⟨earlier, newest, same⟩
  · exact ⟨0, .empty portfolioId instrumentId, rfl, (settled.untouched rfl).2⟩
  · rw [List.concat_eq_append] at same
    subst same
    obtain ⟨instant, -, lots⟩ := settled.projected earlier newest rfl
    simp only [PositionAggregate.after_portfolioId, PositionAggregate.after_instrumentId,
      positionOf_portfolioId, positionOf_instrumentId] at lots
    refine ⟨instant, _, ?_, lots⟩
    rw [stampNewest_append, ← positionOf_append]
    refine PositionAggregate.fromEvents_ok (fun e member => ?_) (fun e member => ?_)
    · rcases List.mem_append.mp member with old | new
      · exact settled.owned e (by simp [old])
      · rw [List.mem_singleton.mp new]
        exact (settled.owned newest (by simp)).stamped instant
    · rcases List.mem_append.mp member with old | new
      · exact settled.applicable e (by simp [old])
      · rw [List.mem_singleton.mp new]
        exact (settled.applicable newest (by simp)).stamped instant

/-- What the live projection left is what the replay gives. -/
theorem Settled.readModelMatches (settled : Settled db portfolioId instrumentId history) :
    ReadModelMatches db portfolioId instrumentId := by
  simp only [ReadModelMatches, settled.toStored.replay]
  obtain ⟨held, lots, same⟩ := settled.lots
  refine ⟨settled.row, ?_⟩
  rw [lots, List.map_map]
  exact same LotState.columns fun _ _ => rfl

end Settled

end MiniHedge.Positions
