import MiniHedge.Positions.Aggregate

/-! The tables of the positions schema and the writes made to them.

A statement answers with the write it makes, computed from the rows it sees, so
that the same statements serve a call that runs alone and transactions that
interleave. Numeric columns are exact, as the aggregate's decimals are.
-/

set_option autoImplicit false

namespace MiniHedge.Positions

open MiniHedge.Python

structure PositionEventRecord where
  aggregateId : String
  sequenceNumber : Nat
  eventType : String
  eventVersion : Nat
  eventData : Dict
  metadata : Dict
  createdAt : Datetime
  deriving DecidableEq, Repr

structure CurrentPositionRecord where
  portfolioId : UUID
  instrumentId : String
  quantity : Decimal
  avgCost : Decimal
  costBasis : Decimal
  realizedPnl : Decimal
  marketPrice : Decimal
  marketValue : Decimal
  unrealizedPnl : Decimal
  currency : String
  deriving DecidableEq, Repr

structure LotRecord where
  id : UUID
  portfolioId : UUID
  instrumentId : String
  quantity : Decimal
  originalQuantity : Decimal
  price : Decimal
  acquiredAt : Datetime
  tradeId : UUID
  deriving DecidableEq, Repr

structure Database where
  events : List PositionEventRecord := []
  positions : List CurrentPositionRecord := []
  lots : List LotRecord := []
  deriving DecidableEq, Repr

inductive Write where
  | event (record : PositionEventRecord)
  | position (record : CurrentPositionRecord)
  | deleteLots (records : List LotRecord)
  | insertLots (records : List LotRecord)
  deriving DecidableEq, Repr

def CurrentPositionRecord.At (portfolioId : UUID) (instrumentId : String)
    (record : CurrentPositionRecord) : Prop :=
  record.portfolioId = portfolioId ∧ record.instrumentId = instrumentId

instance (portfolioId : UUID) (instrumentId : String) (record : CurrentPositionRecord) :
    Decidable (record.At portfolioId instrumentId) :=
  inferInstanceAs (Decidable (_ ∧ _))

def LotRecord.At (portfolioId : UUID) (instrumentId : String) (record : LotRecord) : Prop :=
  record.portfolioId = portfolioId ∧ record.instrumentId = instrumentId

instance (portfolioId : UUID) (instrumentId : String) (record : LotRecord) :
    Decidable (record.At portfolioId instrumentId) :=
  inferInstanceAs (Decidable (_ ∧ _))

/-- The row replaces the one with its primary key, or is added. -/
def putPosition (record : CurrentPositionRecord) :
    List CurrentPositionRecord → List CurrentPositionRecord
  | [] => [record]
  | row :: rest =>
    if row.At record.portfolioId record.instrumentId then record :: rest
    else row :: putPosition record rest

namespace Database

def write (db : Database) : Write → Database
  | .event record => { db with events := db.events ++ [record] }
  | .position record => { db with positions := putPosition record db.positions }
  | .deleteLots records => { db with lots := db.lots.filter (· ∉ records) }
  | .insertLots records => { db with lots := db.lots ++ records }

def writes (db : Database) (ws : List Write) : Database := ws.foldl write db

def recordsOf (db : Database) (aggregateId : String) : List PositionEventRecord :=
  db.events.filter (·.aggregateId = aggregateId)

def position (db : Database) (portfolioId : UUID) (instrumentId : String) :
    Option CurrentPositionRecord :=
  db.positions.find? (·.At portfolioId instrumentId)

def lotsOf (db : Database) (portfolioId : UUID) (instrumentId : String) : List LotRecord :=
  db.lots.filter (·.At portfolioId instrumentId)

variable (db : Database) (portfolioId : UUID) (instrumentId : String)

@[simp] theorem writes_nil : db.writes [] = db := rfl

@[simp] theorem writes_cons (w : Write) (ws : List Write) :
    db.writes (w :: ws) = (db.write w).writes ws := rfl

@[simp] theorem write_event_positions (r : PositionEventRecord) :
    (db.write (.event r)).positions = db.positions := rfl

@[simp] theorem write_event_lots (r : PositionEventRecord) :
    (db.write (.event r)).lots = db.lots := rfl

@[simp] theorem write_position_events (r : CurrentPositionRecord) :
    (db.write (.position r)).events = db.events := rfl

@[simp] theorem write_position_lots (r : CurrentPositionRecord) :
    (db.write (.position r)).lots = db.lots := rfl

@[simp] theorem write_deleteLots_events (rs : List LotRecord) :
    (db.write (.deleteLots rs)).events = db.events := rfl

@[simp] theorem write_deleteLots_positions (rs : List LotRecord) :
    (db.write (.deleteLots rs)).positions = db.positions := rfl

@[simp] theorem write_insertLots_events (rs : List LotRecord) :
    (db.write (.insertLots rs)).events = db.events := rfl

@[simp] theorem write_insertLots_positions (rs : List LotRecord) :
    (db.write (.insertLots rs)).positions = db.positions := rfl

theorem recordsOf_event (r : PositionEventRecord) (aggregateId : String) :
    (db.write (.event r)).recordsOf aggregateId =
      db.recordsOf aggregateId ++ if r.aggregateId = aggregateId then [r] else [] := by
  by_cases own : r.aggregateId = aggregateId <;> simp [write, recordsOf, own]

theorem recordsOf_congr {first second : Database} (same : first.events = second.events)
    (aggregateId : String) : first.recordsOf aggregateId = second.recordsOf aggregateId := by
  rw [recordsOf, recordsOf, same]

theorem find?_putPosition_own (r : CurrentPositionRecord) (rows : List CurrentPositionRecord) :
    (putPosition r rows).find? (·.At r.portfolioId r.instrumentId) = some r := by
  have own : r.At r.portfolioId r.instrumentId := ⟨rfl, rfl⟩
  induction rows with
  | nil => simp [putPosition, own]
  | cons row rows ih =>
    by_cases same : row.At r.portfolioId r.instrumentId
    · simp [putPosition, same, own]
    · simp [putPosition, same, ih]

theorem find?_putPosition_other {r : CurrentPositionRecord} {portfolioId : UUID}
    {instrumentId : String} (other : ¬ r.At portfolioId instrumentId)
    (rows : List CurrentPositionRecord) :
    (putPosition r rows).find? (·.At portfolioId instrumentId) =
      rows.find? (·.At portfolioId instrumentId) := by
  induction rows with
  | nil => simp [putPosition, other]
  | cons row rows ih =>
    by_cases same : row.At r.portfolioId r.instrumentId
    · have notRow : ¬ row.At portfolioId instrumentId := fun at' =>
        other ⟨same.1.symm.trans at'.1, same.2.symm.trans at'.2⟩
      simp [putPosition, same, other, notRow]
    · by_cases found : row.At portfolioId instrumentId
      · simp [putPosition, same, found]
      · simp [putPosition, same, found, ih]

theorem position_write_own {portfolioId : UUID} {instrumentId : String} {r : CurrentPositionRecord}
    (own : r.At portfolioId instrumentId) :
    (db.write (.position r)).position portfolioId instrumentId = some r := by
  obtain ⟨rfl, rfl⟩ := own
  exact find?_putPosition_own r db.positions

theorem position_write_other {portfolioId : UUID} {instrumentId : String}
    {r : CurrentPositionRecord} (other : ¬ r.At portfolioId instrumentId) :
    (db.write (.position r)).position portfolioId instrumentId =
      db.position portfolioId instrumentId :=
  find?_putPosition_other other db.positions

theorem lotsOf_deleteLots_own :
    (db.write (.deleteLots (db.lotsOf portfolioId instrumentId))).lotsOf portfolioId instrumentId =
      [] := by
  refine List.filter_eq_nil_iff.mpr fun row kept at' => ?_
  obtain ⟨held, absent⟩ := List.mem_filter.mp kept
  have removed : row ∈ db.lotsOf portfolioId instrumentId := List.mem_filter.mpr ⟨held, at'⟩
  simp [removed] at absent

theorem lotsOf_deleteLots_other {rows : List LotRecord} {portfolioId : UUID} {instrumentId : String}
    (other : ∀ row ∈ rows, ¬ row.At portfolioId instrumentId) :
    (db.write (.deleteLots rows)).lotsOf portfolioId instrumentId =
      db.lotsOf portfolioId instrumentId := by
  simp only [write, lotsOf, List.filter_filter]
  refine List.filter_congr fun row _ => ?_
  by_cases at' : row.At portfolioId instrumentId
  · have absent : row ∉ rows := fun member => other row member at'
    simp [at', absent]
  · simp [at']

theorem lotsOf_insertLots_own {rows : List LotRecord} {portfolioId : UUID} {instrumentId : String}
    (own : ∀ row ∈ rows, row.At portfolioId instrumentId) :
    (db.write (.insertLots rows)).lotsOf portfolioId instrumentId =
      db.lotsOf portfolioId instrumentId ++ rows := by
  simp only [write, lotsOf, List.filter_append]
  rw [List.filter_eq_self.mpr fun row member => decide_eq_true (own row member)]

theorem lotsOf_insertLots_other {rows : List LotRecord} {portfolioId : UUID} {instrumentId : String}
    (other : ∀ row ∈ rows, ¬ row.At portfolioId instrumentId) :
    (db.write (.insertLots rows)).lotsOf portfolioId instrumentId =
      db.lotsOf portfolioId instrumentId := by
  have none : rows.filter (·.At portfolioId instrumentId) = [] :=
    List.filter_eq_nil_iff.mpr fun row member => by simpa using other row member
  simp only [write, lotsOf, List.filter_append, none, List.append_nil]

end Database

end MiniHedge.Positions
