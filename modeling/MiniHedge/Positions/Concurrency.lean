import MiniHedge.Positions.Consistent
import MiniHedge.Positions.Transactions

/-! Concurrent calls of `_apply_trade`.

The unique constraint orders the inserts of one position. It says nothing about
the reads before them: an event that is committed between the load of the
aggregate and the `SELECT` of the highest number is counted by the second and
missing from the first, and the key that was looked up earlier stays unseen.
-/

set_option autoImplicit false

namespace MiniHedge.Positions

open MiniHedge.Python MiniHedge.Library

/-- A call, with the instant of the handler's clock. -/
structure Request where
  trade : Trade
  now : Datetime
  key : Option String

def Request.transaction (r : Request) : Transaction := { command := r.trade.command r.now r.key }

/-- The calls at their start. -/
def serve (db : Database) (requests : List Request) : ServerState :=
  ⟨db, requests.map Request.transaction⟩

/-- Whoever commits has loaded every event of the position that is committed. -/
def LoadedWhole (db : Database) (t : Transaction) : Prop :=
  match t.stage with
  | .lotsInserted a => db.nextSequence t.command.aggregateId = a.stored.length + 1
  | _ => True

instance (db : Database) (t : Transaction) : Decidable (LoadedWhole db t) :=
  match t with
  | ⟨command, _, .lotsInserted a, _⟩ =>
    inferInstanceAs (Decidable (db.nextSequence command.aggregateId = a.stored.length + 1))
  | ⟨_, _, .idle, _⟩ | ⟨_, _, .checked _, _⟩ | ⟨_, _, .loaded _, _⟩ | ⟨_, _, .sequenced _ _, _⟩
  | ⟨_, _, .inserted _, _⟩ | ⟨_, _, .upserted _, _⟩ | ⟨_, _, .lotsDeleted _, _⟩ | ⟨_, _, .done _, _⟩
  | ⟨_, _, .failed _, _⟩ => isTrue trivial

/-- Whoever commits has the currency of the row that is there. -/
def SameCurrency (db : Database) (t : Transaction) : Prop :=
  match t.stage with
  | .lotsInserted _ => ∀ row ∈ db.position t.command.portfolioId t.command.instrumentId,
      row.currency = t.command.currency
  | _ => True

instance (db : Database) (t : Transaction) : Decidable (SameCurrency db t) :=
  match t with
  | ⟨command, _, .lotsInserted _, _⟩ =>
    inferInstanceAs (Decidable (∀ row ∈ db.position command.portfolioId command.instrumentId,
      row.currency = command.currency))
  | ⟨_, _, .idle, _⟩ | ⟨_, _, .checked _, _⟩ | ⟨_, _, .loaded _, _⟩ | ⟨_, _, .sequenced _ _, _⟩
  | ⟨_, _, .inserted _, _⟩ | ⟨_, _, .upserted _, _⟩ | ⟨_, _, .lotsDeleted _, _⟩ | ⟨_, _, .done _, _⟩
  | ⟨_, _, .failed _, _⟩ => isTrue trivial

def Undisturbed (db : Database) (_ : List Transaction) (t : Transaction) (_ : Datetime) : Prop :=
  LoadedWhole db t ∧ SameCurrency db t

instance (db : Database) (others : List Transaction) (t : Transaction) (instant : Datetime) :
    Decidable (Undisturbed db others t instant) :=
  inferInstanceAs (Decidable (_ ∧ _))

theorem positionOf_concat_currency (portfolioId : UUID) (instrumentId : String)
    (history : List TradeEvent) {event : TradeEvent} (applicable : event.Applicable) :
    (positionOf portfolioId instrumentId (history ++ [event])).currency = event.data.currency := by
  rw [positionOf_append]
  cases applicable <;> rfl

section OnePosition

variable (portfolioId : UUID) (instrumentId : String)

structure InStep (db : Database) : Prop where
  settled : Settled db portfolioId instrumentId (historyOf portfolioId instrumentId db)
  currency : CurrencyMatches db portfolioId instrumentId

structure TracksTrade (db : Database) (t : Transaction) : Prop where
  tracks : t.Tracks portfolioId instrumentId db
  currency : t.command.event.data.currency = t.command.currency

variable {portfolioId instrumentId} {db db' : Database} {others : List Transaction}
  {t t' : Transaction} {instant : Datetime}

theorem commit_inStep (inStep : InStep portfolioId instrumentId db)
    (tracks : TracksTrade portfolioId instrumentId db t) {a : Attempt}
    (stage : t.stage = .lotsInserted a) (undisturbed : Undisturbed db others t instant)
    (advanced : advance db others t instant = some (db', t')) :
    InStep portfolioId instrumentId db' ∧ TracksTrade portfolioId instrumentId db' t' ∧
      historyOf portfolioId instrumentId db' =
        historyOf portfolioId instrumentId db ++ [t.command.event.stamped a.createdAt] ∧
      ¬ t'.InFlight := by
  obtain ⟨loaded, currency⟩ := undisturbed
  have own := tracks.tracks.own
  have stored := inStep.settled.toStored
  simp only [LoadedWhole, stage, own.aggregateId, stored.nextSequence] at loaded
  simp only [SameCurrency, stage, own.portfolio, own.instrument] at currency
  have whole : a.stored = historyOf portfolioId instrumentId db := by
    have progress := tracks.tracks.progress
    simp only [Transaction.Progress, stage] at progress
    exact progress.1.stored.eq_of_length (by omega)
  obtain ⟨rfl, row, of, rfl⟩ := commit_cases tracks.tracks stage whole advanced
  obtain ⟨committed, -⟩ := stored.commit own a.createdAt of rfl
  have grown := historyOf_eq committed.toStored
  have at' : row.At portfolioId instrumentId := by
    simpa [own.portfolio, own.instrument] using of.own
  have position : (db.writes (t.command.writes (historyOf portfolioId instrumentId db) a.createdAt
      row (db.lotsOf portfolioId instrumentId))).position portfolioId instrumentId = some row :=
    Database.position_write_own (db.write _) at'
  refine ⟨⟨grown ▸ committed, ?_⟩, ⟨⟨own, rfl⟩, tracks.currency⟩, grown, id⟩
  simp only [CurrencyMatches, committed.toStored.replay, position, Option.mem_def,
    Option.some.injEq, forall_eq']
  rw [positionOf_concat_currency _ _ _ (own.applicable.stamped a.createdAt)]
  refine Eq.trans ?_ tracks.currency.symm
  have kept := of.currency
  simp only [Command.position_portfolioId, Command.position_instrumentId, own.portfolio,
    own.instrument] at kept
  cases found : db.position portfolioId instrumentId with
  | none => simpa [found] using kept
  | some old => simpa [found, currency old found] using kept

theorem advance_inStep (inStep : InStep portfolioId instrumentId db)
    (tracks : TracksTrade portfolioId instrumentId db t)
    (apart : ∀ q ∈ others, TracksTrade portfolioId instrumentId db q ∧ NotBoth t q)
    (undisturbed : Undisturbed db others t instant)
    (advanced : advance db others t instant = some (db', t')) :
    InStep portfolioId instrumentId db' ∧ TracksTrade portfolioId instrumentId db' t' ∧
      ∀ q ∈ others, TracksTrade portfolioId instrumentId db' q ∧ NotBoth t' q := by
  by_cases commit : ∃ a, t.stage = .lotsInserted a
  · obtain ⟨a, stage⟩ := commit
    obtain ⟨next, own, grown, landed⟩ := commit_inStep inStep tracks stage undisturbed advanced
    refine ⟨next, own, fun q member => ⟨⟨?_, (apart q member).1.currency⟩, fun both =>
      landed both.1⟩⟩
    have grounded : ¬ q.InFlight := fun flying =>
      (apart q member).2 ⟨by simp [Transaction.InFlight, stage], flying⟩
    exact (apart q member).1.tracks.grow grounded (grown ▸ List.prefix_append _ _)
  · have notCommit : ∀ a, t.stage ≠ .lotsInserted a := fun a stage => commit ⟨a, stage⟩
    have stored := inStep.settled.toStored
    obtain rfl := advance_quiet notCommit advanced
    refine ⟨inStep, ⟨advance_tracks tracks.tracks stored notCommit advanced, ?_⟩,
      fun q member => ⟨(apart q member).1, fun both => ?_⟩⟩
    · rw [advance_command advanced]
      exact tracks.currency
    · by_cases flying : t.InFlight
      · exact (apart q member).2 ⟨flying, both.2⟩
      · obtain ⟨a, n, -, -, alone⟩ := advance_enters tracks.tracks stored flying both.1 advanced
        exact alone q member (apart q member).1.tracks both.2

end OnePosition

/-- Where every commit comes from a transaction that has loaded the whole history
of the position, in the currency of its row, the read model is the replay of
the event log in every state. -/
theorem readModelMatches_of_undisturbed (calls : List HandlerCall) {portfolioId : UUID}
    {instrumentId : String} {requests : List Request}
    (same : ∀ r ∈ requests, r.trade.At portfolioId instrumentId)
    (currency : CurrencyMatches (handleAll calls) portfolioId instrumentId)
    {turns : List (Processes.Turn Datetime)} {final : ServerState}
    (along : transactions.system.Along (Processes.When Undisturbed)
      (serve (handleAll calls) requests) turns)
    (ran : transactions.system.run (serve (handleAll calls) requests) turns = some final) :
    ReadModelMatches final.shared portfolioId instrumentId ∧
      CurrencyMatches final.shared portfolioId instrumentId ∧
      LotsAtClock final.shared portfolioId instrumentId := by
  obtain ⟨history, settled⟩ := (consistent_handleAll calls).settled portfolioId instrumentId
  have start : Processes.Holds (InStep portfolioId instrumentId)
      (TracksTrade portfolioId instrumentId) NotBoth (serve (handleAll calls) requests) := by
    refine ⟨⟨historyOf_eq settled.toStored ▸ settled, currency⟩, fun t member => ?_, ?_⟩
    · obtain ⟨r, asked, rfl⟩ := List.mem_map.mp member
      obtain ⟨rfl, rfl⟩ := same r asked
      exact ⟨⟨r.trade.command_for r.now r.key, rfl⟩, rfl⟩
    · refine List.pairwise_map.mpr (List.pairwise_of_forall fun r r' both => ?_)
      exact both.1
  have holds := System.invariant_along (fun s turn next inv met stepped =>
    Processes.step_keeps NotBoth.symm (fun _ _ _ _ _ _ => advance_inStep) inv met stepped)
    along ran start
  exact ⟨holds.shared.settled.readModelMatches, holds.shared.currency,
    holds.shared.settled.lotsAtClock⟩

def aBuy (quantity : Decimal) (tradeId : UUID) (key : Option String) : Request :=
  ⟨⟨.ofNat 7, "AAPL", .buy, quantity, 100, "USD", tradeId⟩, 0, key⟩

def twoBuys (key : Option String) : List Request :=
  [aBuy 5 (.ofNat 1) key, aBuy 3 (.ofNat 2) key]

/-- Turns of the transactions with these indices. -/
def schedule (order : List Nat) : List (Processes.Turn Datetime) :=
  order.map fun index => ⟨index, 10⟩

/-- Both buys load and number their events before either inserts: the second
insert fails, and its retry loads what the first committed. -/
theorem readModelMatches_of_retried_buy :
    ∃ final, transactions.system.run (serve {} (twoBuys none))
        (schedule ([0, 1, 0, 1] ++ List.replicate 5 0 ++ List.replicate 8 1)) = some final ∧
      final.processes.all (·.stage.committed) ∧ final.shared.events.length = 2 ∧
      ReadModelMatches final.shared ⟨7, by decide⟩ "AAPL" := by
  have ran : (transactions.system.run (serve {} (twoBuys none))
      (schedule ([0, 1, 0, 1] ++ List.replicate 5 0 ++ List.replicate 8 1))).map (fun final =>
        (final.processes.all (·.stage.committed), final.shared.events.length)) =
      some (true, 2) := by
    decide +kernel
  have along : transactions.system.Along (Processes.When Undisturbed) (serve {} (twoBuys none))
      (schedule ([0, 1, 0, 1] ++ List.replicate 5 0 ++ List.replicate 8 1)) := by
    decide +kernel
  obtain ⟨final, reached, values⟩ := Option.map_eq_some_iff.mp ran
  simp only [Prod.mk.injEq] at values
  refine ⟨final, reached, values.1, values.2, ?_⟩
  exact (readModelMatches_of_undisturbed [] (by decide) (by decide) along reached).1

/-- The second buy loads before the first commits and numbers its event after:
nothing fails, and the read model forgets the first. -/
theorem readModel_forgets_unloaded_buy :
    ∃ final, transactions.system.run (serve {} (twoBuys none))
        (schedule ([1] ++ List.replicate 7 0 ++ List.replicate 6 1)) = some final ∧
      final.processes.all (·.stage.committed) ∧ final.shared.events.length = 2 ∧
      (final.shared.position ⟨7, by decide⟩ "AAPL").map (·.quantity) = some 3 ∧
      ¬ ReadModelMatches final.shared ⟨7, by decide⟩ "AAPL" := by
  have ran : (transactions.system.run (serve {} (twoBuys none))
      (schedule ([1] ++ List.replicate 7 0 ++ List.replicate 6 1))).map (fun final =>
        (final.processes.all (·.stage.committed), final.shared.events.length,
          (final.shared.position ⟨7, by decide⟩ "AAPL").map (·.quantity),
          decide (ReadModelMatches final.shared ⟨7, by decide⟩ "AAPL"))) =
      some (true, 2, some 3, false) := by
    decide +kernel
  obtain ⟨final, reached, values⟩ := Option.map_eq_some_iff.mp ran
  simp only [Prod.mk.injEq, decide_eq_false_iff_not] at values
  exact ⟨final, reached, values⟩

end MiniHedge.Positions
