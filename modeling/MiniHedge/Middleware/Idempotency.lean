import MiniHedge.Library.Interleaving
import MiniHedge.Library.Caches

/-! `IdempotencyMiddleware`: requests that look up, lock, run and cache in turns.

Each call to Redis is a step, the time that passes before it is an input, and a
key is gone when its time is over. The rest of the application, authentication
included, is the handler: it answers in any way, after any time. It has run to
its end for the requests in `completions`, which is not in Redis.
-/

set_option autoImplicit false

namespace MiniHedge.Middleware

open MiniHedge.Library

/-! ## Requests -/

structure Request where
  method : String
  path : String
  /-- Who the request is authenticated as, if it is. -/
  actor : Option String
  idempotencyKey : Option String
  deriving DecidableEq, Repr

def mutationMethods : List String := ["POST", "PUT", "DELETE", "PATCH"]

/-- The key that the middleware goes by: it lets other requests pass. -/
def Request.key (r : Request) : Option String :=
  if r.method ∈ mutationMethods then r.idempotencyKey else none

structure Response where
  status : Int
  body : String
  contentType : String := "application/json"
  deriving DecidableEq, Repr

/-! ## Redis -/

def cacheKey (idemKey : String) : String := "idempotency:" ++ idemKey

def lockKey (idemKey : String) : String := cacheKey idemKey ++ ":lock"

def ttlSeconds : Int := 60 * 60 * 24

def lockTtlSeconds : Int := 60

/-- The value of a key. The request that a response was given to is not stored. -/
inductive Stored where
  | locked
  | response (request : Request) (r : Response)
  deriving DecidableEq, Repr

structure Server where
  /-- Redis may be disabled in the settings. -/
  redis : Bool := true
  store : TtlCache String Stored := []
  clock : Int := 0
  completions : List (Request × Response) := []
  deriving DecidableEq, Repr

namespace Server

variable (s : Server)

def get (key : String) : Option Stored := s.store.get s.clock key

def set (key : String) (value : Stored) (seconds : Int) : Server :=
  { s with store := s.store.set (s.clock + seconds) key value }

def delete (key : String) : Server := { s with store := s.store.evict (· = key) }

def elapse (seconds : Nat) : Server := { s with clock := s.clock + seconds }

def complete (request : Request) (r : Response) : Server :=
  { s with completions := s.completions ++ [(request, r)] }

end Server

/-! ## Steps -/

inductive Answer where
  | handled (r : Response)
  | replayed (request : Request) (r : Response)
  | conflict
  | failed
  deriving DecidableEq, Repr

inductive Stage where
  | arrived
  | missed (key : String)
  | running (key : String) (acquiredAt : Int)
  | completed (key : String) (acquiredAt : Int) (r : Response)
  | cached (key : String) (acquiredAt : Int) (r : Response)
  | releasing (key : String) (sent : Option Response)
  -- past the middleware
  | passed
  | answered (answer : Answer)
  | dead
  deriving DecidableEq, Repr

structure Handling where
  request : Request
  stage : Stage := .arrived
  deriving DecidableEq, Repr

/-- What a step depends on: a call to Redis returns or raises, a handler answers
or raises, and the process may be gone at any time. -/
inductive Event where
  | returns
  | responds (r : Response)
  | raises
  | crashes
  deriving DecidableEq, Repr

structure Input where
  event : Event := .returns
  elapsed : Nat := 0
  deriving DecidableEq, Repr

/-- What the client gets when an exception leaves the middleware. -/
def Answer.ofSent : Option Response → Answer
  | some r => handled r
  | none => failed

/-- `_send_raw` of a cached value, or the conflict; a lock has no status. -/
def Server.lookup (s : Server) (key : String) : Stage :=
  match s.get (cacheKey key) with
  | none => .missed key
  | some (.response request r) => .answered (.replayed request r)
  | some .locked => .answered .failed

/-- The next step in the stage, at the time of the server. -/
def Handling.proceed (s : Server) (h : Handling) (event : Event) : Option (Server × Stage) :=
  match h.stage, event with
  | .arrived, event =>
    match if s.redis then h.request.key else none, event with
    | some key, .returns => some (s, s.lookup key)
    | some _, .raises => some (s, .answered .failed)
    | none, .returns => some (s, .passed)
    | _, _ => none
  | .passed, .responds r => some (s.complete h.request r, .answered (.handled r))
  | .passed, .raises => some (s, .answered .failed)
  | .missed key, .returns =>
    match s.get (lockKey key) with
    | some _ => some (s, .answered .conflict)
    | none => some (s.set (lockKey key) .locked lockTtlSeconds, .running key s.clock)
  | .missed _, .raises => some (s, .answered .failed)
  | .running key acquiredAt, .responds r =>
    some (s.complete h.request r, .completed key acquiredAt r)
  | .running key _, .raises => some (s, .releasing key none)
  | .completed key acquiredAt r, .returns =>
    some (s.set (cacheKey key) (.response h.request r) ttlSeconds, .cached key acquiredAt r)
  | .completed key _ r, .raises => some (s, .releasing key (some r))
  | .cached key _ r, .returns => some (s.delete (lockKey key), .answered (.handled r))
  | .cached _ _ r, .raises => some (s, .answered (.handled r))
  | .releasing key sent, .returns => some (s.delete (lockKey key), .answered (.ofSent sent))
  | .releasing _ sent, .raises => some (s, .answered (.ofSent sent))
  | _, _ => none

def Handling.advance (s : Server) (h : Handling) (input : Input) : Option (Server × Handling) :=
  match h.stage, input.event with
  | .answered _, _ | .dead, _ => none
  | _, .crashes => some (s.elapse input.elapsed, { h with stage := .dead })
  | _, event => (h.proceed (s.elapse input.elapsed) event).map fun (s, stage) =>
      (s, { h with stage })

def middleware : Processes Server Handling Input where
  advance s _ h input := h.advance s input

/-! ## Keys -/

theorem cacheKey_injective {a b : String} (same : cacheKey a = cacheKey b) : a = b := by
  simpa [cacheKey] using same

theorem lockKey_injective {a b : String} (same : lockKey a = lockKey b) : a = b := by
  simpa [lockKey, cacheKey] using same

/-! ## What a step can do -/

/-- The steps, by name. -/
inductive Moves (s : Server) (request : Request) : Stage → Event → Server → Stage → Prop where
  | looksUp {key : String} (keyed : request.key = some key) :
      Moves s request .arrived .returns s (s.lookup key)
  | lookupFails : Moves s request .arrived .raises s (.answered .failed)
  | passes (unguarded : s.redis = false ∨ request.key = none) :
      Moves s request .arrived .returns s .passed
  | passedResponds (r : Response) :
      Moves s request .passed (.responds r) (s.complete request r) (.answered (.handled r))
  | passedFails : Moves s request .passed .raises s (.answered .failed)
  | conflicts {key : String} {held : Stored} (locked : s.get (lockKey key) = some held) :
      Moves s request (.missed key) .returns s (.answered .conflict)
  | acquires {key : String} (free : s.get (lockKey key) = none) :
      Moves s request (.missed key) .returns (s.set (lockKey key) .locked lockTtlSeconds)
        (.running key s.clock)
  | acquireFails {key : String} : Moves s request (.missed key) .raises s (.answered .failed)
  | responds {key : String} {acquiredAt : Int} (r : Response) :
      Moves s request (.running key acquiredAt) (.responds r) (s.complete request r)
        (.completed key acquiredAt r)
  | handlerFails {key : String} {acquiredAt : Int} :
      Moves s request (.running key acquiredAt) .raises s (.releasing key none)
  | caches {key : String} {acquiredAt : Int} {r : Response} :
      Moves s request (.completed key acquiredAt r) .returns
        (s.set (cacheKey key) (.response request r) ttlSeconds) (.cached key acquiredAt r)
  | cacheFails {key : String} {acquiredAt : Int} {r : Response} :
      Moves s request (.completed key acquiredAt r) .raises s (.releasing key (some r))
  | releases {key : String} {acquiredAt : Int} {r : Response} :
      Moves s request (.cached key acquiredAt r) .returns (s.delete (lockKey key))
        (.answered (.handled r))
  | releaseFails {key : String} {acquiredAt : Int} {r : Response} :
      Moves s request (.cached key acquiredAt r) .raises s (.answered (.handled r))
  | givesUp {key : String} {sent : Option Response} :
      Moves s request (.releasing key sent) .returns (s.delete (lockKey key))
        (.answered (.ofSent sent))
  | givingUpFails {key : String} {sent : Option Response} :
      Moves s request (.releasing key sent) .raises s (.answered (.ofSent sent))

theorem Handling.proceed_moves {s s' : Server} {h : Handling} {event : Event} {stage : Stage}
    (proceeded : h.proceed s event = some (s', stage)) :
    Moves s h.request h.stage event s' stage := by
  obtain ⟨request, current⟩ := h
  unfold proceed at proceeded
  cases current with
  | arrived =>
    dsimp only at proceeded
    split at proceeded
    · -- the request is guarded: its key is looked up
      rename_i key guarded
      split at guarded
      · cases proceeded
        exact .looksUp guarded
      · cases guarded
    · cases proceeded
      exact .lookupFails
    · -- any other request passes
      rename_i unguarded
      cases proceeded
      refine .passes ?_
      split at unguarded
      · exact .inr unguarded
      · rename_i disabled
        exact .inl (by simpa using disabled)
    · cases proceeded
  | missed key =>
    cases event with
    | returns =>
      dsimp only at proceeded
      split at proceeded <;> cases proceeded
      · rename_i held locked
        exact .conflicts locked
      · rename_i free
        exact .acquires free
    | raises =>
      cases proceeded
      exact .acquireFails
    | responds r | crashes => cases proceeded
  | running key acquiredAt =>
    cases event with
    | responds r =>
      cases proceeded
      exact .responds r
    | raises =>
      cases proceeded
      exact .handlerFails
    | returns | crashes => cases proceeded
  | completed key acquiredAt r =>
    cases event with
    | returns =>
      cases proceeded
      exact .caches
    | raises =>
      cases proceeded
      exact .cacheFails
    | responds r | crashes => cases proceeded
  | cached key acquiredAt r =>
    cases event with
    | returns =>
      cases proceeded
      exact .releases
    | raises =>
      cases proceeded
      exact .releaseFails
    | responds r | crashes => cases proceeded
  | releasing key sent =>
    cases event with
    | returns =>
      cases proceeded
      exact .givesUp
    | raises =>
      cases proceeded
      exact .givingUpFails
    | responds r | crashes => cases proceeded
  | passed =>
    cases event with
    | responds r =>
      cases proceeded
      exact .passedResponds r
    | raises =>
      cases proceeded
      exact .passedFails
    | returns | crashes => cases proceeded
  | answered answer | dead => cases event <;> cases proceeded

/-- A process is gone, or has moved after some time. -/
theorem Handling.advance_cases {s s' : Server} {h h' : Handling} {input : Input}
    (advanced : h.advance s input = some (s', h')) :
    (input.event = .crashes ∧ s' = s.elapse input.elapsed ∧ h' = { h with stage := .dead }) ∨
      ∃ stage, Moves (s.elapse input.elapsed) h.request h.stage input.event s' stage ∧
        h' = { h with stage } := by
  have moved : ∀ {proceeded : Option (Server × Stage)},
      proceeded = h.proceed (s.elapse input.elapsed) input.event →
      (proceeded.map fun (s, stage) => (s, ({ h with stage } : Handling))) = some (s', h') →
      ∃ stage, Moves (s.elapse input.elapsed) h.request h.stage input.event s' stage ∧
        h' = { h with stage } := by
    rintro proceeded rfl mapped
    obtain ⟨⟨reached, stage⟩, proceeded, same⟩ := Option.map_eq_some_iff.mp mapped
    cases same
    exact ⟨stage, proceed_moves proceeded, rfl⟩
  unfold advance at advanced
  split at advanced
  · cases advanced
  · cases advanced
  · cases advanced
    exact .inl ⟨by assumption, rfl, rfl⟩
  · exact .inr (moved rfl advanced)

end MiniHedge.Middleware
