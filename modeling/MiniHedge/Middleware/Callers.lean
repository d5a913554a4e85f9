import MiniHedge.Middleware.Idempotency

/-! Whose response a request is answered with.

The middleware goes by the key alone: neither the caller nor the endpoint is part
of what is stored, and it runs before the request is authenticated.
-/

set_option autoImplicit false

namespace MiniHedge.Middleware

open MiniHedge.Library

/-- The responses in Redis were given by the handler, to requests with their key. -/
def Server.Sourced (s : Server) : Prop :=
  ∀ e ∈ s.store, ∀ origin r, e.value = .response origin r →
    ∃ key, e.key = cacheKey key ∧ origin.key = some key ∧ (origin, r) ∈ s.completions

/-- The response was given by the handler to this request, or to one with its key. -/
def Answer.Sourced (completions : List (Request × Response)) (request : Request) : Answer → Prop
  | .handled r => (request, r) ∈ completions
  | .replayed origin r =>
    (∃ key, request.key = some key ∧ origin.key = some key) ∧ (origin, r) ∈ completions
  | .conflict | .failed => True

def Stage.Sourced (completions : List (Request × Response)) (request : Request) : Stage → Prop
  | .missed key | .running key _ | .releasing key none => request.key = some key
  | .completed key _ r | .cached key _ r | .releasing key (some r) =>
    request.key = some key ∧ (request, r) ∈ completions
  | .answered answer => answer.Sourced completions request
  | .arrived | .passed | .dead => True

section Moves

variable {s s' : Server} {request : Request} {stage stage' : Stage} {event : Event}

theorem Server.Sourced.of_subset (sourced : s.Sourced) (stored : s'.store ⊆ s.store)
    (grown : s.completions ⊆ s'.completions) : s'.Sourced := by
  intro e member origin r response
  obtain ⟨key, named, keyed, given⟩ := sourced e (stored member) origin r response
  exact ⟨key, named, keyed, grown given⟩

theorem Server.mem_delete {s : Server} {key : String} {e : TtlCache.Entry String Stored} :
    e ∈ (s.delete key).store ↔ e ∈ s.store ∧ e.key ≠ key := by simp [delete, TtlCache.mem_evict]

theorem Server.delete_subset (s : Server) (key : String) : (s.delete key).store ⊆ s.store :=
  fun _ member => (mem_delete.mp member).1

theorem Server.subset_complete (s : Server) (request : Request) (r : Response) :
    s.completions ⊆ (s.complete request r).completions := List.subset_append_left _ _

theorem Server.complete_mem (s : Server) (request : Request) (r : Response) :
    (request, r) ∈ (s.complete request r).completions := by simp [complete]

theorem Stage.Sourced.of_subset {before after : List (Request × Response)}
    (sourced : stage.Sourced before request) (grown : before ⊆ after) :
    stage.Sourced after request := by
  cases stage with
  | arrived | passed | dead => trivial
  | missed key | running key acquiredAt => exact sourced
  | completed key acquiredAt r | cached key acquiredAt r => exact ⟨sourced.1, grown sourced.2⟩
  | releasing key sent =>
    cases sent with
    | none => exact sourced
    | some r => exact ⟨sourced.1, grown sourced.2⟩
  | answered answer =>
    cases answer with
    | handled r => exact grown sourced
    | replayed origin r => exact ⟨sourced.1, grown sourced.2⟩
    | conflict | failed => trivial

theorem Server.lookup_sourced (sourced : s.Sourced) {key : String}
    (keyed : request.key = some key) : (s.lookup key).Sourced s.completions request := by
  unfold lookup
  split
  · exact keyed
  · rename_i origin r found
    obtain ⟨e, member, named, response, -⟩ := TtlCache.mem_of_get found
    obtain ⟨key', named', originKeyed, given⟩ := sourced e member origin r response
    obtain rfl := cacheKey_injective (named.symm.trans named')
    exact ⟨⟨key, keyed, originKeyed⟩, given⟩
  · trivial

theorem Moves.subset (moved : Moves s request stage event s' stage') :
    s.completions ⊆ s'.completions := by
  cases moved with
  | passedResponds r | responds r => exact s.subset_complete request r
  | _ => exact List.Subset.refl _

theorem Moves.sourced (moved : Moves s request stage event s' stage') (shared : s.Sourced)
    (own : stage.Sourced s.completions request) :
    s'.Sourced ∧ stage'.Sourced s'.completions request := by
  cases moved with
  | looksUp keyed => exact ⟨shared, s.lookup_sourced shared keyed⟩
  | lookupFails | passes unguarded | passedFails | conflicts locked | acquireFails =>
    exact ⟨shared, trivial⟩
  | passedResponds r =>
    exact ⟨shared.of_subset (List.Subset.refl _) (s.subset_complete request r),
      s.complete_mem request r⟩
  | acquires free =>
    refine ⟨?_, own⟩
    intro e member origin r response
    rcases TtlCache.mem_set.mp member with rfl | ⟨kept, -⟩
    · cases response
    · exact shared e kept origin r response
  | responds r =>
    exact ⟨shared.of_subset (List.Subset.refl _) (s.subset_complete request r),
      own, s.complete_mem request r⟩
  | handlerFails => exact ⟨shared, own⟩
  | @caches key acquiredAt r =>
    refine ⟨?_, own⟩
    intro e member origin r' response
    rcases TtlCache.mem_set.mp member with rfl | ⟨kept, -⟩
    · cases response
      exact ⟨key, rfl, own⟩
    · exact shared e kept origin r' response
  | cacheFails => exact ⟨shared, own⟩
  | @releases key _ _ =>
    exact ⟨shared.of_subset (s.delete_subset (lockKey key)) (List.Subset.refl _), own.2⟩
  | releaseFails => exact ⟨shared, own.2⟩
  | @givesUp key sent =>
    refine ⟨shared.of_subset (s.delete_subset (lockKey key)) (List.Subset.refl _), ?_⟩
    cases sent with
    | none => trivial
    | some r => exact own.2
  | @givingUpFails key sent =>
    refine ⟨shared, ?_⟩
    cases sent with
    | none => trivial
    | some r => exact own.2

end Moves

theorem Handling.advance_sourced {s s' : Server} {h h' : Handling} {input : Input}
    (shared : s.Sourced) (own : h.stage.Sourced s.completions h.request)
    (advanced : h.advance s input = some (s', h')) :
    s'.Sourced ∧ h'.stage.Sourced s'.completions h'.request ∧ s.completions ⊆ s'.completions := by
  rcases advance_cases advanced with ⟨-, rfl, rfl⟩ | ⟨stage, moved, rfl⟩
  · exact ⟨shared, trivial, List.Subset.refl _⟩
  · have kept : (s.elapse input.elapsed).Sourced := shared
    obtain ⟨shared', own'⟩ := moved.sourced kept own
    exact ⟨shared', own', moved.subset⟩

/-! ## Runs -/

/-- The requests, when nothing is stored. -/
def serving (redis : Bool) (clock : Int) (requests : List Request) :
    Processes.State Server Handling :=
  ⟨{ redis, clock }, requests.map ({ request := · })⟩

/-- A request is answered as its own handler has, or that of a request with its key. -/
theorem answered_by_key {redis : Bool} {clock : Int} {requests : List Request}
    {turns : List (Processes.Turn Input)} {final : Processes.State Server Handling}
    (ran : middleware.system.run (serving redis clock requests) turns = some final) :
    ∀ h ∈ final.processes, ∀ answer, h.stage = .answered answer →
      answer.Sourced final.shared.completions h.request := by
  have kept : ∀ s turn next,
      Processes.Holds Server.Sourced (fun s h => h.stage.Sourced s.completions h.request)
        (fun _ _ => True) s →
      middleware.system.step s turn = some next →
      Processes.Holds Server.Sourced (fun s h => h.stage.Sourced s.completions h.request)
        (fun _ _ => True) next := by
    intro s turn next holds stepped
    have met : Processes.When (fun _ _ _ _ => True) s turn := fun _ _ => trivial
    refine Processes.step_keeps (fun _ _ _ => trivial) ?_ holds met stepped
    intro s s' others h h' input shared own rest _ advanced
    obtain ⟨shared', own', grown⟩ := Handling.advance_sourced shared own advanced
    exact ⟨shared', own', fun q inside => ⟨(rest q inside).1.of_subset grown, trivial⟩⟩
  have holds := System.invariant_run kept ran ⟨by simp [Server.Sourced, serving], ?_, ?_⟩
  · intro h member answer answered
    have sourced := holds.each h member
    rwa [answered] at sourced
  · intro h member
    obtain ⟨request, -, rfl⟩ := List.mem_map.mp member
    trivial
  · exact List.pairwise_of_forall fun _ _ => trivial

/-! ## Two callers -/

def orderPlaced : Response := { status := 200, body := "[1]" }

def placed : Request := ⟨"POST", "/api/orders", some "alice", some "k"⟩

def probe : Request := ⟨"DELETE", "/api/funds/alpha", none, some "k"⟩

/-- The first is handled to its end, and then the second is looked up. -/
def handledThenLookedUp : List (Processes.Turn Input) :=
  [⟨0, {}⟩, ⟨0, {}⟩, ⟨0, { event := .responds orderPlaced }⟩, ⟨0, {}⟩, ⟨0, {}⟩, ⟨1, {}⟩]

theorem answered_by_key_placed :
    ∃ final, middleware.system.run (serving true 0 [placed, placed]) handledThenLookedUp =
        some final ∧
      final.processes.map (·.stage) =
        [.answered (.handled orderPlaced), .answered (.replayed placed orderPlaced)] ∧
      ∀ h ∈ final.processes, ∀ answer, h.stage = .answered answer →
        answer.Sourced final.shared.completions h.request := by
  have reached : (middleware.system.run (serving true 0 [placed, placed]) handledThenLookedUp).map
      (fun s => s.processes.map (·.stage)) =
        some [.answered (.handled orderPlaced), .answered (.replayed placed orderPlaced)] := by
    decide +kernel
  obtain ⟨final, ran, stages⟩ := Option.map_eq_some_iff.mp reached
  exact ⟨final, ran, stages, answered_by_key ran⟩

/-- Who has no account and asks for another endpoint gets what was given to Alice. -/
theorem replayed_to_other_caller :
    ∃ final, middleware.system.run (serving true 0 [placed, probe]) handledThenLookedUp =
        some final ∧
      final.processes[1]? = some ⟨probe, .answered (.replayed placed orderPlaced)⟩ ∧
      probe.actor = none ∧ probe.actor ≠ placed.actor ∧ probe.method ≠ placed.method ∧
      probe.path ≠ placed.path := by
  have reached : (middleware.system.run (serving true 0 [placed, probe]) handledThenLookedUp).map
      (fun s => s.processes[1]?) =
        some (some ⟨probe, .answered (.replayed placed orderPlaced)⟩) := by decide +kernel
  obtain ⟨final, ran, last⟩ := Option.map_eq_some_iff.mp reached
  exact ⟨final, ran, last, by decide⟩

end MiniHedge.Middleware
