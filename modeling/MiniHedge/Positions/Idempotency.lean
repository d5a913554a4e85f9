import MiniHedge.Positions.Concurrency

/-! Calls of `_apply_trade` that carry one idempotency key.

The key is looked up before the aggregate is loaded and no constraint makes it
unique. One after the other, calls store it once; calls that interleave rely on
the sequence numbers of their position, and only while nobody has committed.
-/

set_option autoImplicit false

namespace MiniHedge.Positions

open MiniHedge.Python MiniHedge.Library

/-! ## The count of a key -/

section KeyCount

variable {db : Database} {c : Command} {key : String}

variable (db c key) in
theorem keyCount_writes (history : List TradeEvent) (createdAt : Datetime)
    (row : CurrentPositionRecord) (deleted : List LotRecord) :
    (db.writes (c.writes history createdAt row deleted)).keyCount key =
      db.keyCount key + if c.idempotencyKey = some key then 1 else 0 := by
  have events : (db.writes (c.writes history createdAt row deleted)).events =
      db.events ++ [c.record (history.length + 1) createdAt] := rfl
  have own : Database.idempotencyKey (c.record (history.length + 1) createdAt) =
      c.idempotencyKey.map Field.text := by
    cases keyed : c.idempotencyKey with
    | none => simp [Database.idempotencyKey, Command.record, Command.metadata, keyed, Dict.get]
    | some k => simp [Database.idempotencyKey, Command.record, Command.metadata, keyed, Dict.get]
  rw [Database.keyCount, events, List.countP_append, List.countP_singleton, own]
  cases c.idempotencyKey <;> simp [Database.keyCount]

theorem duplicate_iff (keyed : c.idempotencyKey = some key) :
    c.duplicate db = false ↔ db.keyCount key = 0 := by
  simp [Command.duplicate, keyed, Database.hasIdempotencyKey]

theorem keyCount_submit {next : Database} (own : c.For c.portfolioId c.instrumentId)
    {starts : Nat → Datetime} {downstream : Option (List DownstreamEvent)}
    (consistent : Consistent db) (once : db.keyCount key ≤ 1)
    (submitted : submit db starts c = .ok (next, downstream)) : next.keyCount key ≤ 1 := by
  obtain ⟨createdAt, attempted⟩ := submit_cases submitted
  obtain ⟨history, settled⟩ := consistent.settled c.portfolioId c.instrumentId
  rcases attempt_cases settled.toStored own attempted with ⟨-, rfl, -⟩ | ⟨⟨row, committed⟩, -⟩
  · exact once
  · rw [committed.writes, keyCount_writes]
    split
    · rename_i keyed
      rw [(duplicate_iff keyed).mp committed.fresh]
    · exact once

/-- Calls that run one after the other store no key twice. -/
theorem keyCount_handleAll (calls : List HandlerCall) : (handleAll calls).keyCount key ≤ 1 := by
  have submitted : ∀ db next, Consistent db → db.keyCount key ≤ 1 → Submitted db next →
      next.keyCount key ≤ 1 := by
    rintro db next consistent once (rfl | ⟨c, starts, downstream, own, done⟩)
    · exact once
    · exact keyCount_submit own consistent once done
  have kept : ∀ db, Consistent db → db.keyCount key ≤ 1 →
      (calls.foldl handle db).keyCount key ≤ 1 := by
    induction calls with
    | nil => exact fun db _ once => once
    | cons call rest ih =>
      refine fun db consistent once => ih _ (consistent.handle call) ?_
      cases call with
      | trade clock context trade key' =>
        simp only [handle]
        split
        · exact once
        · exact submitted _ _ consistent once (handleTrade_submitted ‹_›)
      | event clock fresh event =>
        simp only [handle]
        split
        · exact once
        · exact submitted _ _ consistent once (handleTradeEvent_submitted ‹_›)
  exact kept {} Consistent.start (Nat.zero_le 1)

end KeyCount

/-! ## Transactions with one key -/

/-- An `INSERT` whose sequence number is free meets no committed event with the
key, nor one that an open transaction has inserted for another position. -/
def UnusedKey (db : Database) (others : List Transaction) (t : Transaction) (_ : Datetime) : Prop :=
  match t.stage with
  | .sequenced _ n => ¬ db.Taken t.command.aggregateId n →
      t.command.duplicate db = false ∧
        ∀ q ∈ others, q.InFlight → q.command.aggregateId = t.command.aggregateId
  | _ => True

instance (db : Database) (others : List Transaction) (t : Transaction) (instant : Datetime) :
    Decidable (UnusedKey db others t instant) :=
  match t with
  | ⟨command, _, .sequenced _ n, _⟩ =>
    inferInstanceAs (Decidable (¬ db.Taken command.aggregateId n → command.duplicate db = false ∧
      ∀ q ∈ others, q.InFlight → q.command.aggregateId = command.aggregateId))
  | ⟨_, _, .idle, _⟩ | ⟨_, _, .checked _, _⟩ | ⟨_, _, .loaded _, _⟩ | ⟨_, _, .inserted _, _⟩
  | ⟨_, _, .upserted _, _⟩ | ⟨_, _, .lotsDeleted _, _⟩ | ⟨_, _, .lotsInserted _, _⟩ | ⟨_, _, .done _, _⟩
  | ⟨_, _, .failed _, _⟩ => isTrue trivial

/-- Every position is settled, and the key is stored once at most. -/
structure KeyOnce (key : String) (db : Database) : Prop where
  settled : ∀ portfolioId instrumentId,
    Settled db portfolioId instrumentId (historyOf portfolioId instrumentId db)
  once : db.keyCount key ≤ 1

/-- While the key is not stored nothing has been committed, so every attempt has
the whole history of its position. -/
structure Keyed (key : String) (db : Database) (t : Transaction) : Prop where
  keyed : t.command.idempotencyKey = some key
  tracks : t.Tracks t.command.portfolioId t.command.instrumentId db
  whole : db.keyCount key = 0 → ∀ a ∈ t.stage.attempt,
    a.stored = historyOf t.command.portfolioId t.command.instrumentId db
  unused : t.InFlight → db.keyCount key = 0

section Steps

variable {key : String} {db db' : Database} {others : List Transaction} {t t' q : Transaction}
  {instant : Datetime}

theorem Keyed.same_position (other : Keyed key db q)
    (same : q.command.aggregateId = t.command.aggregateId) :
    q.Tracks t.command.portfolioId t.command.instrumentId db := by
  obtain ⟨portfolio, instrument⟩ := aggregateId_injective same
  have tracks := other.tracks
  rwa [portfolio, instrument] at tracks

theorem commit_keyOnce (shared : KeyOnce key db) (own : Keyed key db t) {a : Attempt}
    (stage : t.stage = .lotsInserted a) (advanced : advance db others t instant = some (db', t')) :
    KeyOnce key db' ∧ Keyed key db' t' ∧ db'.keyCount key = 1 ∧ ¬ t'.InFlight ∧
      ∀ portfolioId instrumentId, historyOf portfolioId instrumentId db <+:
        historyOf portfolioId instrumentId db' := by
  have flying : t.InFlight := by simp [Transaction.InFlight, stage]
  have unused := own.unused flying
  have whole := own.whole unused a (by simp [stage, Stage.attempt])
  obtain ⟨rfl, row, of, rfl⟩ := commit_cases own.tracks stage whole advanced
  have at' : row.At t.command.portfolioId t.command.instrumentId := by simpa using of.own
  have count := keyCount_writes db t.command key
    (historyOf t.command.portfolioId t.command.instrumentId db) a.createdAt row
    (db.lotsOf t.command.portfolioId t.command.instrumentId)
  rw [if_pos own.keyed, unused] at count
  have settled : ∀ portfolioId instrumentId, ∃ history,
      historyOf portfolioId instrumentId db <+: history ∧
        Settled (db.writes (t.command.writes (historyOf t.command.portfolioId
          t.command.instrumentId db) a.createdAt row (db.lotsOf t.command.portfolioId
            t.command.instrumentId))) portfolioId instrumentId history := by
    intro portfolioId instrumentId
    have before := shared.settled portfolioId instrumentId
    by_cases same : t.command.portfolioId = portfolioId ∧ t.command.instrumentId = instrumentId
    · obtain ⟨rfl, rfl⟩ := same
      exact ⟨_, List.prefix_append _ _,
        (before.toStored.commit own.tracks.own a.createdAt of rfl).1⟩
    · exact ⟨_, List.prefix_rfl, before.commit_other same a.createdAt at' rfl⟩
  refine ⟨⟨fun portfolioId instrumentId => ?_, count.le⟩,
    ⟨own.keyed, ⟨own.tracks.own, rfl⟩, fun none => absurd none (by omega), fun flying => flying.elim⟩,
    count, id, fun portfolioId instrumentId => ?_⟩
  · obtain ⟨history, -, after⟩ := settled portfolioId instrumentId
    rwa [historyOf_eq after.toStored]
  · obtain ⟨history, grown, after⟩ := settled portfolioId instrumentId
    rwa [historyOf_eq after.toStored]

theorem advance_keyOnce (shared : KeyOnce key db) (own : Keyed key db t)
    (apart : ∀ q ∈ others, Keyed key db q ∧ NotBoth t q) (unusedKey : UnusedKey db others t instant)
    (advanced : advance db others t instant = some (db', t')) :
    KeyOnce key db' ∧ Keyed key db' t' ∧ ∀ q ∈ others, Keyed key db' q ∧ NotBoth t' q := by
  by_cases commit : ∃ a, t.stage = .lotsInserted a
  · obtain ⟨a, stage⟩ := commit
    obtain ⟨shared', own', count, landed, grown⟩ := commit_keyOnce shared own stage advanced
    refine ⟨shared', own', fun q member => ⟨?_, fun both => landed both.1⟩⟩
    obtain ⟨other, notBoth⟩ := apart q member
    have grounded : ¬ q.InFlight := fun flying =>
      notBoth ⟨by simp [Transaction.InFlight, stage], flying⟩
    exact ⟨other.keyed, other.tracks.grow grounded (grown _ _), fun none => absurd none (by omega),
      fun flying => absurd flying grounded⟩
  · have notCommit : ∀ a, t.stage ≠ .lotsInserted a := fun a stage => commit ⟨a, stage⟩
    have stored := (shared.settled t.command.portfolioId t.command.instrumentId).toStored
    have command := advance_command advanced
    obtain rfl := advance_quiet notCommit advanced
    have tracks := advance_tracks own.tracks stored notCommit advanced
    -- An insert that is accepted is the first with the key.
    have enters : ¬ t.InFlight → t'.InFlight →
        db'.keyCount key = 0 ∧ ∀ q ∈ others, ¬ q.InFlight := by
      intro grounded flying
      obtain ⟨a, n, stage, free, alone⟩ := advance_enters own.tracks stored grounded flying advanced
      simp only [UnusedKey, stage] at unusedKey
      obtain ⟨fresh, same⟩ := unusedKey free
      refine ⟨(duplicate_iff own.keyed).mp fresh, fun q member flying' => ?_⟩
      exact alone q member ((apart q member).1.same_position (same q member flying')) flying'
    refine ⟨shared, ⟨command ▸ own.keyed, by rw [command]; exact tracks, fun none a held => ?_,
      fun flying => ?_⟩, fun q member => ⟨(apart q member).1, fun both => ?_⟩⟩
    · rw [command]
      rcases advance_attempt own.tracks stored advanced a held with old | new
      · exact own.whole none a old
      · exact new
    · by_cases before : t.InFlight
      · exact own.unused before
      · exact (enters before flying).1
    · by_cases before : t.InFlight
      · exact (apart q member).2 ⟨before, both.2⟩
      · exact (enters before both.1).2 q member both.2

end Steps

/-- Where no insert that finds its number free finds the key in use, calls with
one key store it once, and every read model counts its event once. -/
theorem keyOnce_of_unusedKey (calls : List HandlerCall) {key : String} {requests : List Request}
    (keyed : ∀ r ∈ requests, truthy r.key = some key)
    {turns : List (Processes.Turn Datetime)} {final : ServerState}
    (along : transactions.system.Along (Processes.When UnusedKey)
      (serve (handleAll calls) requests) turns)
    (ran : transactions.system.run (serve (handleAll calls) requests) turns = some final) :
    final.shared.keyCount key ≤ 1 ∧
      ∀ portfolioId instrumentId, ReadModelMatches final.shared portfolioId instrumentId := by
  have start : Processes.Holds (KeyOnce key) (Keyed key) NotBoth
      (serve (handleAll calls) requests) := by
    refine ⟨⟨fun portfolioId instrumentId => ?_, keyCount_handleAll calls⟩, fun t member => ?_, ?_⟩
    · obtain ⟨history, settled⟩ := (consistent_handleAll calls).settled portfolioId instrumentId
      exact historyOf_eq settled.toStored ▸ settled
    · obtain ⟨r, asked, rfl⟩ := List.mem_map.mp member
      exact ⟨keyed r asked, ⟨r.trade.command_for r.now r.key, rfl⟩,
        fun _ a held => (Option.some_ne_none a held.symm).elim, fun flying => flying.elim⟩
    · refine List.pairwise_map.mpr (List.pairwise_of_forall fun r r' both => ?_)
      exact both.1
  have holds := System.invariant_along (fun s turn next inv met stepped =>
    Processes.step_keeps NotBoth.symm (fun _ _ _ _ _ _ => advance_keyOnce) inv met stepped)
    along ran start
  exact ⟨holds.shared.once, fun portfolioId instrumentId =>
    (holds.shared.settled portfolioId instrumentId).readModelMatches⟩

/-- Both calls look the key up, load and number their events before either
inserts: the second insert fails, and its retry finds the key. -/
theorem keyOnce_of_retried_buy :
    ∃ final, transactions.system.run (serve {} (twoBuys (some "k")))
        (schedule ([0, 1, 0, 1, 0, 1] ++ List.replicate 5 0 ++ [1, 1])) = some final ∧
      final.processes.map (·.stage.committed) = [true, false] ∧
      final.shared.events.length = 1 ∧ final.shared.keyCount "k" ≤ 1 := by
  have ran : (transactions.system.run (serve {} (twoBuys (some "k")))
      (schedule ([0, 1, 0, 1, 0, 1] ++ List.replicate 5 0 ++ [1, 1]))).map (fun final =>
        (final.processes.map (·.stage.committed), final.shared.events.length)) =
      some ([true, false], 1) := by
    decide +kernel
  have along : transactions.system.Along (Processes.When UnusedKey)
      (serve {} (twoBuys (some "k")))
      (schedule ([0, 1, 0, 1, 0, 1] ++ List.replicate 5 0 ++ [1, 1])) := by
    decide +kernel
  obtain ⟨final, reached, values⟩ := Option.map_eq_some_iff.mp ran
  simp only [Prod.mk.injEq] at values
  refine ⟨final, reached, values.1, values.2, ?_⟩
  exact (keyOnce_of_unusedKey [] (by decide +kernel) along reached).1

/-- The second call looks the key up before the first commits and does the rest
after: its number is free, and the key is stored twice. -/
theorem key_stored_twice :
    ∃ final, transactions.system.run (serve {} (twoBuys (some "k")))
        (schedule ([1] ++ List.replicate 8 0 ++ List.replicate 7 1)) = some final ∧
      final.processes.all (·.stage.committed) ∧ final.shared.keyCount "k" = 2 ∧
      (final.shared.position ⟨7, by decide⟩ "AAPL").map (·.quantity) = some 8 := by
  have ran : (transactions.system.run (serve {} (twoBuys (some "k")))
      (schedule ([1] ++ List.replicate 8 0 ++ List.replicate 7 1))).map (fun final =>
        (final.processes.all (·.stage.committed), final.shared.keyCount "k",
          (final.shared.position ⟨7, by decide⟩ "AAPL").map (·.quantity))) =
      some (true, 2, some 8) := by
    decide +kernel
  obtain ⟨final, reached, values⟩ := Option.map_eq_some_iff.mp ran
  simp only [Prod.mk.injEq] at values
  exact ⟨final, reached, values⟩

end MiniHedge.Positions
