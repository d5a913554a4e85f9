import MiniHedge.Library.Transition
import MiniHedge.Positions.MarkToMarket

/-! Trades and prices that meet at one position.

The upsert of a trade takes effect when its transaction commits, and it writes the
columns that come from trades. A price is handled in two steps with sessions of
their own, a read of the row and a write of what was computed from it; prices come
to the handler one at a time. Statements that fail are left out.
-/

set_option autoImplicit false

namespace MiniHedge.Positions

open MiniHedge.Python MiniHedge.Library

/-- The columns that a trade writes. -/
structure TradedColumns where
  quantity : Decimal
  avgCost : Decimal
  costBasis : Decimal
  realizedPnl : Decimal
  currency : String := "USD"
  deriving DecidableEq, Repr

/-- The stored row, what the handler under way has read for its price, and what the
last one had read that has written. -/
structure MarkedPosition where
  row : Option CurrentPositionRecord
  handler : Option (Decimal × Option CurrentPositionRecord) := none
  handled : Option (Decimal × Option CurrentPositionRecord) := none
  deriving DecidableEq, Repr

inductive MarkEvent where
  | trades (columns : TradedColumns)
  | reads (newPrice : Decimal)
  | writes
  deriving DecidableEq, Repr

section Steps

variable (strategy : PositionStrategy) (portfolioId : UUID) (instrumentId : String)

/-- `update_market_value`, with values from the row as it was read. -/
def CurrentPositionRecord.updateMarketValue (row : CurrentPositionRecord) (price : Decimal)
    (read : CurrentPositionRecord) : CurrentPositionRecord :=
  { row with
    marketPrice := price
    marketValue := strategy.marketValue {} read.quantity price
    unrealizedPnl := strategy.unrealizedPnl {} read.quantity read.costBasis price }

def marking : System MarkedPosition MarkEvent where
  step s
    | .trades c =>
      match ({ positions := s.row.toList } : Database).upsert portfolioId instrumentId c.quantity
        c.avgCost c.costBasis c.realizedPnl c.currency with
      | .ok (.position row) => some { s with row := some row }
      | _ => none
    | .reads newPrice =>
      match s.handler with
      | none => some { s with handler := some (newPrice, s.row) }
      | some _ => none
    | .writes =>
      match s.handler with
      | none => none
      | some (price, read) => some {
          row := match read with
            | none => s.row
            | some read => s.row.map (·.updateMarketValue strategy price read)
          handled := some (price, read) }

end Steps

/-! ## What is to hold -/

/-- The marks of a row are the strategy's value of a quantity and a cost basis. -/
structure MarkedWith (strategy : PositionStrategy) (price quantity costBasis : Decimal)
    (row : CurrentPositionRecord) : Prop where
  marketValue : row.marketValue = strategy.marketValue {} quantity price
  unrealizedPnl : row.unrealizedPnl = strategy.unrealizedPnl {} quantity costBasis price

structure Unmarked (row : CurrentPositionRecord) : Prop where
  marketValue : row.marketValue = 0
  unrealizedPnl : row.unrealizedPnl = 0

/-- No mark of the last handled price is stale. -/
def MarkedPosition.Fresh (strategy : PositionStrategy) (s : MarkedPosition) : Prop :=
  ∀ price read, s.handled = some (price, read) →
    ∀ row ∈ s.row, MarkedWith strategy price row.quantity row.costBasis row

/-- The marks are those of the position that the handler read, if there was one. -/
def MarkedAsRead (strategy : PositionStrategy) (price : Decimal) (row : CurrentPositionRecord) :
    Option CurrentPositionRecord → Prop
  | none => Unmarked row
  | some read => MarkedWith strategy price read.quantity read.costBasis row

/-! ## Steps -/

section Invariant

variable {strategy : PositionStrategy} {portfolioId : UUID} {instrumentId : String}
  {s next : MarkedPosition} {event : MarkEvent}

/-- A trade leaves the marks of the row that is there, and a new row has none. -/
theorem traded_row {columns : TradedColumns} (own : ∀ row ∈ s.row, row.At portfolioId instrumentId)
    (stepped : (marking strategy portfolioId instrumentId).step s (.trades columns) = some next) :
    ∃ row, next = { s with row := some row } ∧ row.At portfolioId instrumentId ∧
      (s.row = none ∧ Unmarked row ∨ ∃ old, s.row = some old ∧
        row.marketValue = old.marketValue ∧ row.unrealizedPnl = old.unrealizedPnl) := by
  simp only [marking, Database.upsert, Database.position] at stepped
  split at stepped
  · rename_i row upserted
    cases stepped
    split at upserted
    · cases upserted
    · cases held : s.row with
      | none =>
        simp only [held, Option.toList_none, List.find?_nil] at upserted
        cases upserted
        exact ⟨_, rfl, ⟨rfl, rfl⟩, .inl ⟨rfl, rfl, rfl⟩⟩
      | some old =>
        have at_ := own old held
        simp only [held, Option.toList_some, List.find?_cons, at_, decide_true] at upserted
        cases upserted
        exact ⟨_, rfl, at_, .inr ⟨old, rfl, rfl, rfl⟩⟩
  · cases stepped

/-- The row is the position's, its marks are those of what was read, and what was read was stored. -/
structure MarkedPosition.Sound (strategy : PositionStrategy) (portfolioId : UUID)
    (instrumentId : String) (s : MarkedPosition) : Prop where
  own : ∀ row ∈ s.row, row.At portfolioId instrumentId
  marked : ∀ price read, s.handled = some (price, read) →
    ∀ row ∈ s.row, MarkedAsRead strategy price row read
  missed : ∀ price, s.handler = some (price, none) → ∀ row ∈ s.row, Unmarked row
  stored : s.row = none → ∀ price read,
    s.handler = some (price, read) ∨ s.handled = some (price, read) → read = none

theorem MarkedAsRead.same {price : Decimal} {row old : CurrentPositionRecord}
    {read : Option CurrentPositionRecord} (marked : MarkedAsRead strategy price old read)
    (marketValue : row.marketValue = old.marketValue) (unrealizedPnl : row.unrealizedPnl = old.unrealizedPnl) :
    MarkedAsRead strategy price row read := by
  cases read with
  | none => exact ⟨marketValue.trans marked.marketValue, unrealizedPnl.trans marked.unrealizedPnl⟩
  | some read => exact ⟨marketValue.trans marked.marketValue, unrealizedPnl.trans marked.unrealizedPnl⟩

theorem MarkedPosition.Sound.step (sound : s.Sound strategy portfolioId instrumentId)
    (stepped : (marking strategy portfolioId instrumentId).step s event = some next) :
    next.Sound strategy portfolioId instrumentId := by
  cases event with
  | trades columns =>
    obtain ⟨row, rfl, at_, before⟩ := traded_row sound.own stepped
    constructor
    · rintro _ ⟨⟩
      exact at_
    · rintro price read handled _ ⟨⟩
      rcases before with ⟨missing, unmarked⟩ | ⟨old, held, marketValue, unrealizedPnl⟩
      · obtain rfl := sound.stored missing price read (.inr handled)
        exact unmarked
      · exact (sound.marked price read handled old held).same marketValue unrealizedPnl
    · rintro price handler _ ⟨⟩
      rcases before with ⟨-, unmarked⟩ | ⟨old, held, marketValue, unrealizedPnl⟩
      · exact unmarked
      · have unmarked := sound.missed price handler old held
        exact ⟨marketValue.trans unmarked.marketValue, unrealizedPnl.trans unmarked.unrealizedPnl⟩
    · rintro ⟨⟩
  | reads newPrice =>
    simp only [marking] at stepped
    split at stepped
    · cases stepped
      refine ⟨sound.own, sound.marked, ?_, ?_⟩
      · intro price handler row held
        obtain ⟨-, missing⟩ := Prod.mk.inj (Option.some.inj handler)
        rw [missing] at held
        cases held
      · rintro missing price read (handler | handled)
        · obtain ⟨-, rfl⟩ := Prod.mk.inj (Option.some.inj handler)
          exact missing
        · exact sound.stored missing price read (.inr handled)
    · cases stepped
  | writes =>
    simp only [marking] at stepped
    split at stepped
    · cases stepped
    · rename_i price read handler
      cases stepped
      cases read with
      | none =>
        refine ⟨sound.own, ?_, nofun, ?_⟩
        · rintro _ _ ⟨⟩ row held
          exact sound.missed price handler row held
        · rintro missing _ _ (⟨⟨⟩⟩ | ⟨⟨⟩⟩)
          rfl
      | some read =>
        refine ⟨?_, ?_, nofun, ?_⟩
        · intro row held
          obtain ⟨old, before, rfl⟩ := Option.map_eq_some_iff.mp held
          exact sound.own old before
        · rintro _ _ ⟨⟩ row held
          obtain ⟨old, before, rfl⟩ := Option.map_eq_some_iff.mp held
          exact ⟨rfl, rfl⟩
        · intro missing
          have absent := sound.stored (Option.map_eq_none_iff.mp missing) price (some read) (.inl handler)
          cases absent

end Invariant

/-! ## Runs -/

section Runs

variable {strategy : PositionStrategy} {portfolioId : UUID} {instrumentId : String}

/-- A price that is handled without a trade between its steps marks the row. -/
theorem handled_alone {s next : MarkedPosition} {price : Decimal}
    (ran : (marking strategy portfolioId instrumentId).run s [.reads price, .writes] = some next) :
    next = ⟨s.row.map (·.mark strategy price), none, some (price, s.row)⟩ := by
  cases free : s.handler with
  | some entry => simp [marking, free] at ran
  | none =>
    simp only [System.run_cons, marking, free, Option.bind_some, System.run_nil,
      Option.some.injEq] at ran
    cases held : s.row with
    | none =>
      rw [held] at ran
      exact ran.symm
    | some row =>
      rw [held] at ran
      exact ran.symm

/-- No trade commits between the read and the write of a price. -/
def Uninterrupted : List MarkEvent → Prop
  | [] => True
  | [.reads _] => True
  | .reads _ :: .writes :: later => Uninterrupted later
  | .trades _ :: later => Uninterrupted later
  | _ => False

/-- A trade leaves the handler and what it has handled as they are. -/
theorem step_trades {s next : MarkedPosition} {columns : TradedColumns}
    (stepped : (marking strategy portfolioId instrumentId).step s (.trades columns) = some next) :
    next.handler = s.handler ∧ next.handled = s.handled := by
  simp only [marking] at stepped
  split at stepped
  · cases stepped
    exact ⟨rfl, rfl⟩
  · cases stepped

/-- The price was handled in two steps on their own, and the last one of the run. -/
structure HandledLast (strategy : PositionStrategy) (portfolioId : UUID) (instrumentId : String)
    (start : MarkedPosition) (events : List MarkEvent) (price : Decimal) (at_ : MarkedPosition)
    (after : List MarkEvent) : Prop where
  split : ∃ before, events = before ++ .reads price :: .writes :: after ∧
    (marking strategy portfolioId instrumentId).run start before = some at_
  last : .writes ∉ after

theorem HandledLast.after_event {start middle at_ : MarkedPosition} {event : MarkEvent} {events after : List MarkEvent}
    {price : Decimal} (stepped : (marking strategy portfolioId instrumentId).step start event = some middle)
    (handled : HandledLast strategy portfolioId instrumentId middle events price at_ after) :
    HandledLast strategy portfolioId instrumentId start (event :: events) price at_ after := by
  obtain ⟨⟨before, split, ran⟩, last⟩ := handled
  refine ⟨⟨event :: before, congrArg (event :: ·) split, ?_⟩, last⟩
  rw [System.run_cons, stepped]
  exact ran

/-- In an uninterrupted run nothing is handled, or the last price was handled as the position stood then. -/
theorem handled_last {start s : MarkedPosition} {events : List MarkEvent} (uninterrupted : Uninterrupted events)
    (idle : start.handler = none) (ran : (marking strategy portfolioId instrumentId).run start events = some s) :
    s.handled = start.handled ∧ .writes ∉ events ∨
      ∃ price at_ after, HandledLast strategy portfolioId instrumentId start events price at_ after ∧
        s.handled = some (price, at_.row) := by
  induction events using Uninterrupted.induct generalizing start with
  | case1 =>
    cases ran
    exact .inl ⟨rfl, List.not_mem_nil⟩
  | case2 price =>
    simp only [System.run_cons, marking, idle, Option.bind_some, System.run_nil, Option.some.injEq] at ran
    exact .inl ⟨ran ▸ rfl, by simp⟩
  | case3 price later ih =>
    rw [show MarkEvent.reads price :: .writes :: later = [.reads price, .writes] ++ later from rfl,
      System.run_append] at ran
    obtain ⟨middle, alone, rest⟩ := Option.bind_eq_some_iff.mp ran
    have eq := handled_alone alone
    subst eq
    right
    rcases ih uninterrupted rfl rest with ⟨same, none_later⟩ | ⟨price', at_, after, handled, same⟩
    · exact ⟨price, start, later, ⟨⟨[], rfl, rfl⟩, none_later⟩, same⟩
    · obtain ⟨⟨before, split, ran'⟩, last⟩ := handled
      refine ⟨price', at_, after, ⟨⟨.reads price :: .writes :: before, ?_, ?_⟩, last⟩, same⟩
      · rw [split]
        rfl
      · rw [show MarkEvent.reads price :: .writes :: before = [.reads price, .writes] ++ before from rfl,
          System.run_append, alone]
        exact ran'
  | case4 columns later ih =>
    rw [System.run_cons] at ran
    obtain ⟨middle, stepped, rest⟩ := Option.bind_eq_some_iff.mp ran
    obtain ⟨handler, handled⟩ := step_trades stepped
    rcases ih uninterrupted (handler.trans idle) rest with ⟨same, none_later⟩ | ⟨price, at_, after, last, same⟩
    · exact .inl ⟨same.trans handled, by simpa using none_later⟩
    · exact .inr ⟨price, at_, after, last.after_event stepped, same⟩
  | case5 events => simp [Uninterrupted] at uninterrupted

/-- Reads and nothing else change neither the row nor what has been handled. -/
theorem run_reads {s next : MarkedPosition} {events : List MarkEvent}
    (reads : ∀ event ∈ events, ∃ price, event = .reads price)
    (ran : (marking strategy portfolioId instrumentId).run s events = some next) :
    next.row = s.row ∧ next.handled = s.handled := by
  induction events generalizing s with
  | nil =>
    cases ran
    exact ⟨rfl, rfl⟩
  | cons event later ih =>
    obtain ⟨price, rfl⟩ := reads event List.mem_cons_self
    rw [System.run_cons] at ran
    obtain ⟨middle, stepped, rest⟩ := Option.bind_eq_some_iff.mp ran
    obtain ⟨row, handled⟩ := ih (fun e member => reads e (List.mem_cons_of_mem _ member)) rest
    simp only [marking] at stepped
    split at stepped
    · cases stepped
      exact ⟨row, handled⟩
    · cases stepped

/-- The run has stored marks of the position as it stood when the last price was handled; if no trade commits
after that, these are the marks of the position as it is stored. -/
def MarkedWhenHandled (strategy : PositionStrategy) (portfolioId : UUID) (instrumentId : String)
    (start : MarkedPosition) (events : List MarkEvent) (s : MarkedPosition) : Prop :=
  ∃ price at_ after, HandledLast strategy portfolioId instrumentId start events price at_ after ∧
    (∀ r ∈ s.row, MarkedAsRead strategy price r at_.row) ∧
    ((∀ columns, .trades columns ∉ after) → s.Fresh strategy)

/-- Where no trade comes between the two steps of a price, the marks are those of the position as it stood when the
last price was handled: trades leave them as they are. -/
theorem marked_when_handled {row : Option CurrentPositionRecord}
    (own : ∀ r ∈ row, r.At portfolioId instrumentId) {events : List MarkEvent} {s : MarkedPosition}
    (uninterrupted : Uninterrupted events)
    (ran : (marking strategy portfolioId instrumentId).run { row } events = some s) (handled : .writes ∈ events) :
    MarkedWhenHandled strategy portfolioId instrumentId { row } events s := by
  have initial : MarkedPosition.Sound strategy portfolioId instrumentId { row } := by
    refine ⟨own, ?_, ?_, ?_⟩
    · intro price read handled
      cases handled
    · intro price handler
      cases handler
    · rintro - price read (handler | handled)
      · cases handler
      · cases handled
  have sound := System.invariant_run (fun _ _ _ sound stepped => sound.step stepped) ran initial
  rcases handled_last uninterrupted rfl ran with ⟨-, unhandled⟩ | ⟨price, at_, after, last, same⟩
  · exact absurd handled unhandled
  · refine ⟨price, at_, after, last, sound.marked price at_.row same, fun untraded => ?_⟩
    obtain ⟨⟨before, rfl, began⟩, unwritten⟩ := last
    have reads : ∀ event ∈ after, ∃ price, event = .reads price := by
      intro event member
      cases event with
      | trades columns => exact absurd member (untraded columns)
      | reads price => exact ⟨price, rfl⟩
      | writes => exact absurd member unwritten
    rw [System.run_append, began, Option.bind_some,
      show MarkEvent.reads price :: .writes :: after = [.reads price, .writes] ++ after from rfl,
      System.run_append] at ran
    obtain ⟨middle, alone, rest⟩ := Option.bind_eq_some_iff.mp ran
    have eq := handled_alone alone
    subst eq
    obtain ⟨row, -⟩ := run_reads reads rest
    intro price' read again r held
    rw [same] at again
    cases again
    rw [row] at held
    obtain ⟨old, -, rfl⟩ := Option.map_eq_some_iff.mp held
    exact ⟨rfl, rfl⟩

end Runs

/-! ## A trade after the last price -/

def sharesHeld (quantity costBasis : Decimal) : TradedColumns where
  quantity := quantity
  avgCost := costBasis / quantity
  costBasis := costBasis
  realizedPnl := 0

/-- 100 shares are marked at 10, and 100 more are bought. -/
def boughtAfterwards : List MarkEvent :=
  [.trades (sharesHeld 100 900), .reads 10, .writes, .trades (sharesHeld 200 1900)]

def shares : System MarkedPosition MarkEvent := marking equityPositionStrategy (.ofNat 7) "AAPL"

theorem boughtAfterwards_marked : ∃ s, shares.run ⟨none, none, none⟩ boughtAfterwards = some s ∧
    MarkedWhenHandled equityPositionStrategy ⟨7, by decide⟩ "AAPL" ⟨none, none, none⟩ boughtAfterwards s := by
  obtain ⟨s, ran⟩ := Option.isSome_iff_exists.mp
    (by decide +kernel : (shares.run ⟨none, none, none⟩ boughtAfterwards).isSome)
  have own : ∀ r ∈ (none : Option CurrentPositionRecord), r.At ⟨7, by decide⟩ "AAPL" := by simp
  exact ⟨s, ran, marked_when_handled own trivial ran (by decide)⟩

/-- The 200 shares keep the market value of 100. -/
theorem boughtAfterwards_stale : ¬ ∀ strategy portfolioId instrumentId events s,
    (marking strategy portfolioId instrumentId).run ⟨none, none, none⟩ events = some s →
      s.handler = none → s.Fresh strategy := by
  intro fresh
  obtain ⟨s, ran⟩ := Option.isSome_iff_exists.mp
    (by decide +kernel : (shares.run ⟨none, none, none⟩ boughtAfterwards).isSome)
  have facts : ∀ s ∈ shares.run ⟨none, none, none⟩ boughtAfterwards, s.handler = none ∧ s.handled.map (·.1) = some 10 ∧
        s.row.map (fun r => (r.quantity, r.marketValue)) = some (200, 1000) := by decide +kernel
  obtain ⟨idle, last, stored⟩ := facts s ran
  obtain ⟨⟨price, read⟩, handled, rfl⟩ := Option.map_eq_some_iff.mp last
  obtain ⟨row, held, same⟩ := Option.map_eq_some_iff.mp stored
  obtain ⟨quantity, value⟩ := Prod.mk.inj same
  have marked := (fresh _ _ _ _ s ran idle 10 read handled row held).marketValue
  rw [quantity, value] at marked
  exact absurd marked (by decide +kernel)

end MiniHedge.Positions
