import MiniHedge.Library.Raising
import MiniHedge.Positions.Consistent

/-! The strategies by asset class, and the handler that marks positions to market.

The handler gives a strategy nothing beyond the numbers of the row, so the rest
is at its defaults. A class without a strategy is never marked. What the handler
publishes is left out.
-/

set_option autoImplicit false

namespace MiniHedge.Positions

open MiniHedge.Python
open MiniHedge.Library (bind_eq_ok)

inductive AssetClass where
  | equity
  | fixedIncome
  | option
  | future
  | etf
  | fx
  | fxForward
  | swap
  | privateAsset
  deriving DecidableEq, Repr

/-! ## Strategies -/

/-- The keyword arguments. -/
structure StrategyOptions where
  accruedInterest : Decimal := 0
  contractMultiplier : Decimal := 100
  contractSize : Decimal := 1

/-- The text of the class. -/
def AssetClass.value : AssetClass → String
  | equity => "equity"
  | fixedIncome => "fixed_income"
  | option => "option"
  | future => "future"
  | etf => "etf"
  | fx => "fx"
  | fxForward => "fx_forward"
  | swap => "swap"
  | privateAsset => "private"

structure PositionStrategy where
  marketValue : StrategyOptions → Decimal → Decimal → Decimal
  unrealizedPnl : StrategyOptions → Decimal → Decimal → Decimal → Decimal

/-- What remains of the cost, or above it: a short position gains as its value drops. -/
def directedPnl (quantity costBasis mv : Decimal) : Decimal :=
  if quantity < 0 then costBasis - mv else mv - costBasis

def equityPositionStrategy : PositionStrategy where
  marketValue _ quantity marketPrice := |quantity| * marketPrice
  unrealizedPnl _ quantity costBasis marketPrice :=
    directedPnl quantity costBasis (|quantity| * marketPrice)

def fixedIncomePositionStrategy : PositionStrategy where
  marketValue options quantity marketPrice :=
    quantity * marketPrice / 100 + options.accruedInterest
  unrealizedPnl options quantity costBasis marketPrice :=
    quantity * marketPrice / 100 + options.accruedInterest - quantity * costBasis / 100

def optionPositionStrategy : PositionStrategy where
  marketValue options quantity marketPrice := |quantity| * marketPrice * options.contractMultiplier
  unrealizedPnl options quantity costBasis marketPrice :=
    directedPnl quantity costBasis (|quantity| * marketPrice * options.contractMultiplier)

def futurePositionStrategy : PositionStrategy where
  marketValue options quantity marketPrice := |quantity| * marketPrice * options.contractSize
  unrealizedPnl options quantity costBasis marketPrice :=
    directedPnl quantity costBasis (|quantity| * marketPrice * options.contractSize)

def getPositionStrategy : AssetClass → Option PositionStrategy
  | .equity | .etf => some equityPositionStrategy
  | .fixedIncome => some fixedIncomePositionStrategy
  | .option => some optionPositionStrategy
  | .future => some futurePositionStrategy
  | .fx | .fxForward | .swap | .privateAsset => none

/-! ## The handler -/

section Handler

variable (strategy : PositionStrategy) (getAssetClass : String → Option AssetClass)

def CurrentPositionRecord.mark (price : Decimal) (row : CurrentPositionRecord) :
    CurrentPositionRecord :=
  { row with
    marketPrice := price
    marketValue := strategy.marketValue {} row.quantity price
    unrealizedPnl := strategy.unrealizedPnl {} row.quantity row.costBasis price }

/-- `_update_positions_for_instrument`: each row of the instrument is written once. -/
def Database.updatePositionsForInstrument (db : Database) (instrumentId : String)
    (newPrice : Decimal) : Database :=
  { db with
    positions := db.positions.map fun row =>
      if row.instrumentId = instrumentId then row.mark strategy newPrice else row }

def Database.handlePriceUpdate (db : Database) (instrumentId : String) (newPrice : Decimal) :
    Database :=
  match (getAssetClass instrumentId).bind getPositionStrategy with
  | none => db
  | some strategy => db.updatePositionsForInstrument strategy instrumentId newPrice

end Handler

/-! ## What a trade does to the rows -/

section Traded

variable {db next : Database}

/-- A row takes the place of the one with its key, or comes last. -/
theorem putPosition_cases (row : CurrentPositionRecord) (rows : List CurrentPositionRecord) :
    (rows.find? (·.At row.portfolioId row.instrumentId) = none ∧
        putPosition row rows = rows ++ [row]) ∨
      ∃ before old after, rows.find? (·.At row.portfolioId row.instrumentId) = some old ∧
        rows = before ++ old :: after ∧ putPosition row rows = before ++ row :: after := by
  induction rows with
  | nil => exact .inl ⟨rfl, rfl⟩
  | cons first rest ih =>
    by_cases same : first.At row.portfolioId row.instrumentId
    · refine .inr ⟨[], first, rest, ?_, rfl, ?_⟩
      · simp [same]
      · simp [putPosition, same]
    · simp only [putPosition, same, if_false, List.find?_cons, decide_false]
      rcases ih with ⟨none, last⟩ | ⟨before, old, after, found, split, put⟩
      · exact .inl ⟨none, by rw [last]; rfl⟩
      · exact .inr ⟨first :: before, old, after, found, by rw [split]; rfl, by rw [put]; rfl⟩

/-- The row that an upsert writes: an old one keeps its market value and currency. -/
structure TradedRow (db : Database) (quantity : Decimal) (currency : String)
    (row : CurrentPositionRecord) : Prop where
  quantity : row.quantity = quantity
  currency : row.currency =
    ((db.position row.portfolioId row.instrumentId).map (·.currency)).getD currency
  marketValue : row.marketValue =
    ((db.position row.portfolioId row.instrumentId).map (·.marketValue)).getD 0

theorem upsertAggregate_row {a : PositionAggregate} {currency : String} {w : Write}
    (upserted : db.upsertAggregate a currency = .ok w) : ∃ row, w = .position row ∧
      row.At a.portfolioId a.instrumentId ∧ TradedRow db a.quantity currency row := by
  simp only [Database.upsertAggregate, Database.upsert] at upserted
  split at upserted
  · cases upserted
  · cases found : db.position a.portfolioId a.instrumentId with
    | none =>
      rw [found] at upserted
      cases upserted
      exact ⟨_, rfl, ⟨rfl, rfl⟩, rfl, by simp [found], by simp [found]⟩
    | some old =>
      rw [found] at upserted
      cases upserted
      obtain ⟨portfolio, instrument⟩ := Database.position_at found
      refine ⟨_, rfl, ⟨portfolio, instrument⟩, rfl, ?_, ?_⟩
      · simp [portfolio, instrument, found]
      · simp [portfolio, instrument, found]

theorem project_row {a : PositionAggregate} {currency : String}
    (projected : db.project a currency = .ok next) : ∃ row,
      next.positions = putPosition row db.positions ∧ row.At a.portfolioId a.instrumentId ∧
        TradedRow db a.quantity currency row := by
  obtain ⟨w, upserted, projected⟩ := bind_eq_ok.mp projected
  obtain ⟨row, rfl, own, traded⟩ := upsertAggregate_row upserted
  obtain ⟨w, inserted, projected⟩ := bind_eq_ok.mp projected
  obtain ⟨rfl, -, -⟩ := Database.insertLots_cases inserted
  cases projected
  exact ⟨row, rfl, own, traded⟩

/-- A command that is accepted puts the quantity after its event into the row. -/
theorem submit_row (consistent : Consistent db) {c : Command}
    (own : c.For c.portfolioId c.instrumentId) {starts : Nat → Datetime}
    {downstream : List DownstreamEvent}
    (submitted : submit db starts c = .ok (next, some downstream)) :
    ∃ row, next.positions = putPosition row db.positions ∧
      row.At c.portfolioId c.instrumentId ∧ ∃ a : PositionAggregate,
        a.holding = holdingOf db c.portfolioId c.instrumentId ∧
        TradedRow db (a.after c.event).quantity c.currency row := by
  obtain ⟨createdAt, attempted⟩ := submit_cases submitted
  obtain ⟨history, settled⟩ := consistent.settled c.portfolioId c.instrumentId
  obtain ⟨emitted, loaded⟩ := own.load settled.toStored
  unfold attempt at attempted
  split at attempted
  · cases attempted
  · obtain ⟨stored, read, attempted⟩ := bind_eq_ok.mp attempted
    rw [own.aggregateId, settled.toStored.getByAggregate] at read
    cases read
    obtain ⟨⟨position, emitted⟩, loads, attempted⟩ := bind_eq_ok.mp attempted
    cases loaded.symm.trans loads
    obtain ⟨w, appended, attempted⟩ := bind_eq_ok.mp attempted
    obtain ⟨projected, projects, attempted⟩ := bind_eq_ok.mp attempted
    cases attempted
    have event : ∃ r, w = .event r := by
      unfold Database.insertEvent at appended
      split at appended
      · cases appended
      · split at appended
        · cases appended
        · cases appended
          exact ⟨_, rfl⟩
    obtain ⟨r, rfl⟩ := event
    obtain ⟨row, put, at', traded⟩ := project_row projects
    refine ⟨row, put, by simpa using at', _, settled.holdingOf.symm, ?_⟩
    exact ⟨traded.quantity, traded.currency, traded.marketValue⟩

end Traded

end MiniHedge.Positions
