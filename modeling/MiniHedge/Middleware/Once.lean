import MiniHedge.Middleware.Callers

/-! How often the handler completes for a key.

The lookup, the lock, the stored response and the unlock are steps of their own,
the lock is over after a minute and is deleted by whoever is done. In the runs
whose steps are `Sound` the handler has completed at most once for each key.
-/

set_option autoImplicit false

namespace MiniHedge.Middleware

open MiniHedge.Library

/-! ## The condition -/

/-- No key is the name under which another is locked. -/
def Separate (requests : List Request) : Prop :=
  ∀ a ∈ requests, ∀ b ∈ requests, ∀ k ∈ a.key, ∀ k' ∈ b.key, lockKey k ≠ cacheKey k'

instance (requests : List Request) : Decidable (Separate requests) :=
  inferInstanceAs (Decidable (∀ a ∈ requests, ∀ b ∈ requests, ∀ k ∈ a.key, ∀ k' ∈ b.key, _))

/-- The key that is locked by the request, and since when. -/
def Stage.lock : Stage → Option (String × Int)
  | .running key acquiredAt | .completed key acquiredAt _ | .cached key acquiredAt _ =>
    some (key, acquiredAt)
  | .arrived | .missed _ | .releasing .. | .passed | .answered _ | .dead => none

/-- Redis answers, the handler raises nothing, and a response is not lost before it is
stored. Where the lock is free after a miss, no response was ever stored for the
key, and the lock is not over for a request that still holds it. -/
def Handling.Sound (s : Server) (others : List Handling) (h : Handling) (input : Input) : Prop :=
  s.redis = true ∧ input.event ≠ .raises ∧
    match h.stage with
    | .completed .. => input.event ≠ .crashes
    | .missed key => (s.elapse input.elapsed).get (lockKey key) = none →
        (∀ e ∈ s.store, e.key ≠ cacheKey key) ∧
          ∀ q ∈ others, ∀ held ∈ q.stage.lock, held.1 = key →
            s.clock + input.elapsed < held.2 + lockTtlSeconds
    | _ => True

instance (s : Server) (others : List Handling) (h : Handling) (input : Input) :
    Decidable (h.Sound s others input) :=
  match h with
  | ⟨_, .completed ..⟩ => inferInstanceAs (Decidable (_ ∧ _ ∧ _ ≠ _))
  | ⟨_, .missed _⟩ =>
    inferInstanceAs (Decidable (_ ∧ _ ∧ (_ = none → (∀ e ∈ s.store, _) ∧ ∀ q ∈ others, _)))
  | ⟨_, .arrived⟩ | ⟨_, .running ..⟩ | ⟨_, .cached ..⟩ | ⟨_, .releasing ..⟩ | ⟨_, .passed⟩
  | ⟨_, .answered _⟩ | ⟨_, .dead⟩ => inferInstanceAs (Decidable (_ ∧ _ ∧ True))

/-! ## What is to hold -/

/-- The keys for which the handler has completed. -/
def Server.completedKeys (s : Server) : List String :=
  s.completions.filterMap (·.1.key)

/-- One completion for each key, and who has the key got its response or a conflict. -/
structure AnsweredOnce (s : Processes.State Server Handling) : Prop where
  once : s.shared.completedKeys.Nodup
  answered : ∀ h ∈ s.processes, ∀ key, h.request.key = some key →
    ∀ answer, h.stage = .answered answer → answer = .conflict ∨
      ∃ origin r, (answer = .handled r ∨ answer = .replayed origin r) ∧
        origin.key = some key ∧ (origin, r) ∈ s.shared.completions

/-! ## Invariants -/

theorem Server.mem_completedKeys {s : Server} {key : String} :
    key ∈ s.completedKeys ↔ ∃ c ∈ s.completions, c.1.key = some key := List.mem_filterMap

theorem Server.completedKeys_complete (s : Server) (request : Request) (r : Response) :
    (s.complete request r).completedKeys = s.completedKeys ++ request.key.toList := by
  simp only [completedKeys, complete, List.filterMap_append, List.append_cancel_left_eq]
  cases keyed : request.key <;> simp [keyed]

variable (requests : List Request)

structure Server.Once (s : Server) : Prop where
  sourced : s.Sourced
  known : ∀ c ∈ s.completions, c.1 ∈ requests
  locks : ∀ e ∈ s.store, e.value = .locked → ∃ a ∈ requests, ∃ k ∈ a.key, e.key = lockKey k
  once : s.completedKeys.Nodup

/-- A lock that is held is in Redis, and its handler has not completed before. -/
structure Handling.Guarded (s : Server) (h : Handling) : Prop where
  sourced : h.stage.Sourced s.completions h.request
  known : h.request ∈ requests
  locked : ∀ held ∈ h.stage.lock,
    ⟨lockKey held.1, .locked, held.2 + lockTtlSeconds⟩ ∈ s.store
  fresh : ∀ key acquiredAt, h.stage = .running key acquiredAt → key ∉ s.completedKeys
  steady : ∀ key sent, h.stage ≠ .releasing key sent
  kept : h.request.key.isSome → h.stage ≠ .passed ∧ h.stage ≠ .answered .failed

/-- No two requests have locked the same key. -/
def Apart (p q : Handling) : Prop :=
  ∀ held ∈ p.stage.lock, ∀ other ∈ q.stage.lock, held.1 ≠ other.1

/-- Where the lock is free after a miss, the handler has not completed for the key. -/
def Handling.Clear (s : Server) (others : List Handling) (h : Handling) (input : Input) : Prop :=
  h.Sound s others input ∧
    ∀ key, h.stage = .missed key → (s.elapse input.elapsed).get (lockKey key) = none →
      key ∉ s.completedKeys

/-- The response of each handler that has completed is stored, or is about to be. -/
def Accounted (s : Processes.State Server Handling) : Prop :=
  ∀ key ∈ s.shared.completedKeys, (∃ e ∈ s.shared.store, e.key = cacheKey key) ∨
    ∃ h ∈ s.processes, ∃ acquiredAt r, h.stage = .completed key acquiredAt r

theorem Stage.Sourced.of_lock {completions : List (Request × Response)} {request : Request}
    {stage : Stage} (sourced : stage.Sourced completions request) {held : String × Int}
    (holds : held ∈ stage.lock) : request.key = some held.1 := by
  cases stage with
  | running key acquiredAt =>
    obtain rfl := Option.some.inj holds
    exact sourced
  | completed key acquiredAt r | cached key acquiredAt r =>
    obtain rfl := Option.some.inj holds
    exact sourced.1
  | arrived | missed | releasing | passed | answered | dead => cases holds

/-! ## Steps -/

section Steps

variable {requests} {s s' : Server} {request : Request} {stage stage' : Stage} {event : Event}

/-- With a key and with Redis, a request does not pass by and finds no lock in its lookup. -/
theorem Server.Once.lookup_ne (once : s.Once requests) (separate : Separate requests)
    (known : request ∈ requests) {key : String} (keyed : request.key = some key) :
    s.lookup key ≠ .answered .failed := by
  unfold lookup
  split
  · simp
  · simp
  · rename_i found
    obtain ⟨e, member, named, locked, -⟩ := TtlCache.mem_of_get found
    obtain ⟨a, inside, k, held, named'⟩ := once.locks e member locked
    exact absurd (named'.symm.trans named) (separate a inside request known k held key keyed)

/-- The lock that another request holds stays in Redis. -/
theorem Moves.lock_stays (moved : Moves s request stage event s' stage')
    (own : stage.Sourced s.completions request) (steady : ∀ key sent, stage ≠ .releasing key sent)
    {key : String} {expires : Int} (locked : ⟨lockKey key, .locked, expires⟩ ∈ s.store)
    (apart : ∀ held ∈ stage.lock, held.1 ≠ key)
    (busy : stage = .missed key → s.get (lockKey key) ≠ none)
    (separate : ∀ k ∈ request.key, lockKey key ≠ cacheKey k) :
    ⟨lockKey key, .locked, expires⟩ ∈ s'.store := by
  cases moved with
  | @acquires own free =>
    refine TtlCache.mem_set.mpr (.inr ⟨locked, fun same => ?_⟩)
    obtain rfl := lockKey_injective same
    exact busy rfl free
  | caches => exact TtlCache.mem_set.mpr (.inr ⟨locked, separate _ own.1⟩)
  | @releases held acquiredAt r =>
    exact Server.mem_delete.mpr ⟨locked, fun same =>
      apart (held, acquiredAt) rfl (lockKey_injective same).symm⟩
  | givesUp => exact absurd rfl (steady _ _)
  | _ => exact locked

/-- What is stored for a key stays, unless it is a lock. -/
theorem Moves.response_stays (moved : Moves s request stage event s' stage')
    (own : stage.Sourced s.completions request) {key : String}
    (separate : ∀ k ∈ request.key, lockKey k ≠ cacheKey key)
    (stored : ∃ e ∈ s.store, e.key = cacheKey key) : ∃ e ∈ s'.store, e.key = cacheKey key := by
  obtain ⟨e, member, named⟩ := stored
  cases moved with
  | acquires => exact ⟨e, TtlCache.mem_set.mpr (.inr ⟨member, named ▸ (separate _ own).symm⟩), named⟩
  | @caches held acquiredAt r =>
    by_cases same : e.key = cacheKey held
    · exact ⟨_, TtlCache.mem_set.mpr (.inl rfl), same.symm.trans named⟩
    · exact ⟨e, TtlCache.mem_set.mpr (.inr ⟨member, same⟩), named⟩
  | @releases held acquiredAt r =>
    exact ⟨e, Server.mem_delete.mpr ⟨member, named ▸ (separate held own.1).symm⟩, named⟩
  | @givesUp held sent =>
    have keyed : request.key = some held := by
      cases sent with
      | none => exact own
      | some r => exact own.1
    exact ⟨e, Server.mem_delete.mpr ⟨member, named ▸ (separate held keyed).symm⟩, named⟩
  | _ => exact ⟨e, member, named⟩

/-- The handler completes for the key that the request has locked. -/
theorem Moves.completed_new (moved : Moves s request stage event s' stage')
    (own : stage.Sourced s.completions request)
    (guarded : request.key.isSome → stage ≠ .passed ∧ stage ≠ .answered .failed) {key : String}
    (completed : key ∈ s'.completedKeys) :
    key ∈ s.completedKeys ∨ ∃ acquiredAt r, stage' = .completed key acquiredAt r := by
  cases moved with
  | passedResponds r =>
    rw [s.completedKeys_complete] at completed
    cases keyed : request.key with
    | none => exact .inl (by simpa [keyed] using completed)
    | some k => exact absurd rfl (guarded (by simp [keyed])).1
  | @responds mine acquiredAt r =>
    rw [s.completedKeys_complete, own] at completed
    rcases List.mem_append.mp completed with earlier | last
    · exact .inl earlier
    · have same : key = mine := by simpa using last
      exact .inr ⟨acquiredAt, r, by rw [same]⟩
  | _ => exact .inl completed

theorem Moves.once (moved : Moves s request stage event s' stage') (once : s.Once requests)
    (own : (⟨request, stage⟩ : Handling).Guarded requests s) : s'.Once requests := by
  refine ⟨(moved.sourced once.sourced own.sourced).1, ?_, ?_, ?_⟩
  · cases moved with
    | passedResponds r | responds r =>
      intro c member
      rcases List.mem_append.mp member with before | last
      · exact once.known c before
      · rw [List.mem_singleton.mp last]
        exact own.known
    | _ => exact once.known
  · cases moved with
    | @acquires key free =>
      intro e member locked
      rcases TtlCache.mem_set.mp member with rfl | ⟨before, -⟩
      · exact ⟨request, own.known, key, own.sourced, rfl⟩
      · exact once.locks e before locked
    | caches =>
      intro e member locked
      rcases TtlCache.mem_set.mp member with rfl | ⟨before, -⟩
      · cases locked
      · exact once.locks e before locked
    | releases | givesUp =>
      exact fun e member => once.locks e (s.delete_subset _ member)
    | _ => exact once.locks
  · cases moved with
    | passedResponds r =>
      rw [s.completedKeys_complete]
      cases keyed : request.key with
      | none => simpa using once.once
      | some key => exact absurd rfl (own.kept (by simp [keyed])).1
    | responds r =>
      rw [s.completedKeys_complete, own.sourced]
      exact List.nodup_append.mpr ⟨once.once, by simp, fun k before k' last same =>
        own.fresh _ _ rfl (by simpa [same, List.mem_singleton.mp last] using before)⟩
    | _ => exact once.once

theorem Moves.guarded (moved : Moves s request stage event s' stage') (once : s.Once requests)
    (separate : Separate requests) (own : (⟨request, stage⟩ : Handling).Guarded requests s)
    (enabled : s.redis = true) (returned : event ≠ .raises)
    (clear : ∀ key, stage = .missed key → s.get (lockKey key) = none → key ∉ s.completedKeys) :
    (⟨request, stage'⟩ : Handling).Guarded requests s' := by
  have sourced := (moved.sourced once.sourced own.sourced).2
  have known := own.known
  cases moved with
  | lookupFails | passedFails | acquireFails | handlerFails | cacheFails | releaseFails
  | givingUpFails => exact absurd rfl returned
  | givesUp => exact absurd rfl (own.steady _ _)
  | @looksUp key keyed =>
    have found := once.lookup_ne separate known keyed
    have waiting : (s.lookup key).lock = none ∧ (∀ k sent, s.lookup key ≠ .releasing k sent) ∧
        (∀ k acquiredAt, s.lookup key ≠ .running k acquiredAt) ∧ s.lookup key ≠ .passed := by
      unfold Server.lookup
      split <;> simp [Stage.lock]
    exact ⟨sourced, known, by simp [waiting.1],
      fun k acquiredAt runs => absurd runs (waiting.2.2.1 k acquiredAt), waiting.2.1,
      fun _ => ⟨waiting.2.2.2, found⟩⟩
  | passes unguarded =>
    have unkeyed : request.key = none := unguarded.resolve_left (by simp [enabled])
    exact ⟨sourced, known, by simp [Stage.lock], by simp, by simp, by simp [unkeyed]⟩
  | passedResponds r => exact ⟨sourced, known, by simp [Stage.lock], by simp, by simp, by simp⟩
  | conflicts locked => exact ⟨sourced, known, by simp [Stage.lock], by simp, by simp, by simp⟩
  | @acquires key free =>
    refine ⟨sourced, known, ?_, ?_, by simp, by simp⟩
    · intro held holds
      obtain rfl := Option.some.inj holds
      exact TtlCache.mem_set.mpr (.inl rfl)
    · rintro k acquiredAt runs
      cases runs
      exact clear key rfl free
  | responds r => exact ⟨sourced, known, own.locked, by simp, by simp, by simp⟩
  | @caches key acquiredAt r =>
    refine ⟨sourced, known, ?_, by simp, by simp, by simp⟩
    intro held holds
    obtain rfl := Option.some.inj holds
    have apart := separate request known request known key sourced.1 key sourced.1
    exact TtlCache.mem_set.mpr (.inr ⟨own.locked (key, acquiredAt) rfl, apart⟩)
  | releases => exact ⟨sourced, known, by simp [Stage.lock], by simp, by simp, by simp⟩

/-- What holds of another request still holds. -/
theorem Moves.others_guarded (moved : Moves s request stage event s' stage')
    (own : (⟨request, stage⟩ : Handling).Guarded requests s) (separate : Separate requests)
    {q : Handling} (guarded : q.Guarded requests s) (apart : Apart ⟨request, stage⟩ q)
    (busy : ∀ held ∈ q.stage.lock, stage = .missed held.1 → s.get (lockKey held.1) ≠ none) :
    q.Guarded requests s' := by
  refine ⟨guarded.sourced.of_subset moved.subset, guarded.known, ?_, ?_, guarded.steady,
    guarded.kept⟩
  · intro held holds
    have keyed := guarded.sourced.of_lock holds
    exact moved.lock_stays own.sourced own.steady (guarded.locked held holds)
      (fun mine locked => apart mine locked held holds) (busy held holds)
      (fun k mine => separate q.request guarded.known request own.known held.1 keyed k mine)
  · intro key acquiredAt runs completed
    refine (moved.completed_new own.sourced own.kept completed).elim
      (guarded.fresh key acquiredAt runs) ?_
    rintro ⟨since, r, completes⟩
    have locks : (key, acquiredAt) ∈ q.stage.lock := by simp [runs, Stage.lock]
    cases moved with
    | responds =>
      cases completes
      exact apart (key, since) rfl _ locks rfl
    | looksUp =>
      revert completes
      unfold Server.lookup
      split <;> simp
    | _ => cases completes

/-- A request that acquires a lock is the only one that holds it. -/
theorem Moves.apart (moved : Moves s request stage event s' stage') {q : Handling}
    (apart : Apart ⟨request, stage⟩ q)
    (busy : ∀ held ∈ q.stage.lock, stage = .missed held.1 → s.get (lockKey held.1) ≠ none) :
    Apart ⟨request, stage'⟩ q := by
  cases moved with
  | @looksUp key keyed =>
    have waiting : (s.lookup key).lock = none := by
      unfold Server.lookup
      split <;> rfl
    intro held holds
    simp [waiting] at holds
  | @acquires key free =>
    intro held locks other holds same
    obtain rfl := Option.some.inj locks
    exact busy other holds (congrArg Stage.missed same) (same ▸ free)
  | responds r => exact apart
  | caches => exact apart
  | _ =>
    intro held holds
    cases holds

end Steps

/-! ## Runs -/

section Runs

variable {requests}

/-- While its time is not over, the lock of a request that holds it is found. -/
theorem Handling.Guarded.found {s : Server} {q : Handling} (guarded : q.Guarded requests s)
    {held : String × Int} (holds : held ∈ q.stage.lock) {elapsed : Nat}
    (ahead : s.clock + elapsed < held.2 + lockTtlSeconds) :
    (s.elapse elapsed).get (lockKey held.1) ≠ none := by
  have found := TtlCache.isSome_get (guarded.locked held holds) ahead
  intro free
  rw [Server.get] at free
  exact absurd (free ▸ found) (by simp)

theorem Handling.advance_keeps (separate : Separate requests) {s s' : Server}
    {others : List Handling} {p p' : Handling} {input : Input} (once : s.Once requests)
    (own : p.Guarded requests s) (rest : ∀ q ∈ others, q.Guarded requests s ∧ Apart p q)
    (clear : p.Clear s others input) (advanced : p.advance s input = some (s', p')) :
    s'.Once requests ∧ p'.Guarded requests s' ∧
      ∀ q ∈ others, q.Guarded requests s' ∧ Apart p' q := by
  rcases advance_cases advanced with ⟨-, rfl, rfl⟩ | ⟨stage, moved, rfl⟩
  · refine ⟨⟨once.sourced, once.known, once.locks, once.once⟩,
      ⟨trivial, own.known, by simp [Stage.lock], by simp, by simp, by simp⟩, fun q inside => ?_⟩
    have guarded := (rest q inside).1
    exact ⟨⟨guarded.sourced, guarded.known, guarded.locked, guarded.fresh, guarded.steady,
      guarded.kept⟩, fun held holds => by cases holds⟩
  · have elapsed : ∀ {q : Handling}, q.Guarded requests s →
        q.Guarded requests (s.elapse input.elapsed) := fun guarded =>
      ⟨guarded.sourced, guarded.known, guarded.locked, guarded.fresh, guarded.steady, guarded.kept⟩
    have once' : (s.elapse input.elapsed).Once requests :=
      ⟨once.sourced, once.known, once.locks, once.once⟩
    obtain ⟨⟨enabled, returned, sound⟩, unanswered⟩ := clear
    have busy : ∀ q ∈ others, ∀ held ∈ q.stage.lock, p.stage = .missed held.1 →
        (s.elapse input.elapsed).get (lockKey held.1) ≠ none := by
      intro q inside held holds missed free
      rw [missed] at sound
      exact (rest q inside).1.found holds ((sound free).2 q inside held holds rfl) free
    refine ⟨moved.once once' (elapsed own),
      moved.guarded once' separate (elapsed own) enabled returned unanswered, fun q inside => ?_⟩
    obtain ⟨guarded, apart⟩ := rest q inside
    exact ⟨moved.others_guarded (elapsed own) separate (elapsed guarded) apart (busy q inside),
      moved.apart apart (busy q inside)⟩

abbrev Kept (requests : List Request) : Processes.State Server Handling → Prop :=
  Processes.Holds (Server.Once requests) (fun s h => h.Guarded requests s) Apart

variable {s next : Processes.State Server Handling} {turn : Processes.Turn Input}

theorem clear_of_sound (kept : Kept requests s) (accounted : Accounted s)
    (sound : Processes.When (fun s others h => Handling.Sound s others h) s turn) :
    Processes.When (fun s others h => Handling.Clear s others h) s turn := by
  intro p found
  refine ⟨sound p found, fun key missed free completed => ?_⟩
  obtain ⟨-, -, waits⟩ := sound p found
  rw [missed] at waits
  rcases accounted key completed with ⟨e, member, named⟩ | ⟨h, member, acquiredAt, r, stage⟩
  · exact (waits free).1 e member named
  · have other : h ∈ s.processes.eraseIdx turn.index := by
      obtain ⟨i, at_i⟩ := List.mem_iff_getElem?.mp member
      refine List.mem_eraseIdx_iff_getElem?.mpr ⟨i, fun same => ?_, at_i⟩
      rw [same, found] at at_i
      obtain rfl := Option.some.inj at_i
      rw [missed] at stage
      cases stage
    have holds : (key, acquiredAt) ∈ h.stage.lock := by simp [stage, Stage.lock]
    exact (kept.each h member).found holds ((waits free).2 h other _ holds rfl) free

theorem accounted_next (separate : Separate requests) (kept : Kept requests s)
    (accounted : Accounted s)
    (sound : Processes.When (fun s others h => Handling.Sound s others h) s turn)
    (stepped : middleware.system.step s turn = some next) : Accounted next := by
  obtain ⟨before, p, after, s', p', split, found, rest, advanced, rfl⟩ :=
    middleware.step_cases stepped
  obtain ⟨-, returned, waits⟩ := sound p found
  have own := kept.each p (by simp [split])
  have still : ∀ h ∈ s.processes, h = p ∨ h ∈ before ++ p' :: after := by
    intro h member
    rw [split] at member
    simp only [List.mem_append, List.mem_cons] at member ⊢
    tauto
  intro key completed
  rcases Handling.advance_cases advanced with ⟨crashed, rfl, rfl⟩ | ⟨stage, moved, rfl⟩
  · rcases accounted key completed with stored | ⟨h, member, acquiredAt, r, running⟩
    · exact .inl stored
    · rcases still h member with rfl | inside
      · rw [running] at waits
        exact absurd crashed waits
      · exact .inr ⟨h, inside, acquiredAt, r, running⟩
  · generalize turn.input.event = event at moved returned
    by_cases earlier : key ∈ s.shared.completedKeys
    · obtain ⟨c, given, keyed⟩ := Server.mem_completedKeys.mp earlier
      have named : ∀ k ∈ p.request.key, lockKey k ≠ cacheKey key := fun k mine =>
        separate p.request own.known c.1 (kept.shared.known c given) k mine key keyed
      rcases accounted key earlier with stored | ⟨h, member, acquiredAt, r, running⟩
      · exact .inl (moved.response_stays own.sourced named stored)
      · rcases still h member with rfl | inside
        · rw [running] at moved
          cases moved with
          | caches => exact .inl ⟨_, TtlCache.mem_set.mpr (.inl rfl), rfl⟩
          | cacheFails => exact absurd rfl returned
        · exact .inr ⟨h, inside, acquiredAt, r, running⟩
    · obtain ⟨acquiredAt, r, rfl⟩ :=
        (moved.completed_new own.sourced own.kept completed).resolve_left earlier
      exact .inr ⟨_, List.mem_append_right before List.mem_cons_self, acquiredAt, r, rfl⟩

/-- In runs whose steps are sound, the handler completes at most once for a key, and
everyone with the key is answered with its response or a conflict. -/
theorem answeredOnce_of_sound {redis : Bool} {clock : Int} {turns : List (Processes.Turn Input)}
    {final : Processes.State Server Handling} (separate : Separate requests)
    (sound : middleware.system.Along
      (Processes.When fun s others h => Handling.Sound s others h) (serving redis clock requests)
      turns)
    (ran : middleware.system.run (serving redis clock requests) turns = some final) :
    AnsweredOnce final := by
  have initial : Kept requests (serving redis clock requests) := by
    refine ⟨⟨by simp [Server.Sourced, serving], by simp [serving], by simp [serving], .nil⟩, ?_, ?_⟩
    · intro h member
      obtain ⟨request, known, rfl⟩ := List.mem_map.mp member
      exact ⟨trivial, known, by simp [Stage.lock], by simp, by simp, by simp⟩
    · refine List.pairwise_map.mpr (List.pairwise_of_forall fun p q held holds => ?_)
      cases holds
  have preserved : ∀ s turn next, Kept requests s ∧ Accounted s →
      Processes.When (fun s others h => Handling.Sound s others h) s turn →
      middleware.system.step s turn = some next → Kept requests next ∧ Accounted next := by
    rintro s turn next ⟨kept, accounted⟩ met stepped
    refine ⟨Processes.step_keeps ?_ (fun s s' others p p' input => Handling.advance_keeps separate)
      kept (clear_of_sound kept accounted met) stepped, accounted_next separate kept accounted met
      stepped⟩
    exact fun p q apart held holds other locks same => apart other locks held holds same.symm
  have unanswered : Accounted (serving redis clock requests) := by
    intro key completed
    simp [Server.completedKeys, serving] at completed
  obtain ⟨kept, -⟩ := System.invariant_along preserved sound ran ⟨initial, unanswered⟩
  refine ⟨kept.shared.once, fun h member key keyed answer answered => ?_⟩
  have guarded := kept.each h member
  have sourced := guarded.sourced
  rw [answered] at sourced
  cases answer with
  | handled r => exact .inr ⟨h.request, r, .inl rfl, keyed, sourced⟩
  | replayed origin r =>
    obtain ⟨⟨k, mine, same⟩, given⟩ := sourced
    exact .inr ⟨origin, r, .inr rfl, same.trans (mine.symm.trans keyed), given⟩
  | conflict => exact .inl rfl
  | failed => exact absurd answered (guarded.kept (by simp [keyed])).2

end Runs

/-! ## Two requests with one key -/

/-- The second is looked up before the first has run, and acquires the lock after it. -/
def missedThenLocked : List (Processes.Turn Input) :=
  [⟨0, {}⟩, ⟨1, {}⟩, ⟨0, {}⟩, ⟨0, { event := .responds orderPlaced }⟩, ⟨0, {}⟩, ⟨0, {}⟩, ⟨1, {}⟩,
    ⟨1, { event := .responds orderPlaced }⟩, ⟨1, {}⟩, ⟨1, {}⟩]

/-- The second is looked up and refused while the first runs. -/
def refusedWhileRunning : List (Processes.Turn Input) :=
  [⟨0, {}⟩, ⟨1, {}⟩, ⟨0, {}⟩, ⟨1, {}⟩, ⟨0, { event := .responds orderPlaced, elapsed := 90 }⟩,
    ⟨0, {}⟩, ⟨0, {}⟩]

theorem answeredOnce_refused :
    ∃ final, middleware.system.run (serving true 0 [placed, placed]) refusedWhileRunning =
        some final ∧
      final.processes.map (·.stage) =
        [.answered (.handled orderPlaced), .answered .conflict] ∧ AnsweredOnce final := by
  have reached : (middleware.system.run (serving true 0 [placed, placed]) refusedWhileRunning).map
      (fun s => s.processes.map (·.stage)) =
        some [.answered (.handled orderPlaced), .answered .conflict] := by decide +kernel
  have separate : Separate [placed, placed] := by decide +kernel
  have sound : middleware.system.Along
      (Processes.When fun s others h => Handling.Sound s others h)
      (serving true 0 [placed, placed]) refusedWhileRunning := by decide +kernel
  obtain ⟨final, ran, stages⟩ := Option.map_eq_some_iff.mp reached
  exact ⟨final, ran, stages, answeredOnce_of_sound separate sound ran⟩

/-- The handler completes for both of them. -/
theorem completed_twice :
    ∃ final, middleware.system.run (serving true 0 [placed, placed]) missedThenLocked = some final ∧
      final.shared.completedKeys = ["k", "k"] ∧ ¬ AnsweredOnce final := by
  have reached : (middleware.system.run (serving true 0 [placed, placed]) missedThenLocked).map
      (fun s => s.shared.completedKeys) = some ["k", "k"] := by decide +kernel
  obtain ⟨final, ran, keys⟩ := Option.map_eq_some_iff.mp reached
  refine ⟨final, ran, keys, fun answered => ?_⟩
  have once := answered.once
  rw [keys] at once
  exact absurd once (by decide)

end MiniHedge.Middleware
