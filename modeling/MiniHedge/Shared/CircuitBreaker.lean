import MiniHedge.Library.Transition
import MiniHedge.Python.Decimal

/-! The circuit breaker for calls to other services, and calls that run at once.

The lock is never held across an await, so the admission of a call and what is made
of its outcome are one step each; between them the protected function runs. The
clock is exact. The logs and metrics are left out.
-/

set_option autoImplicit false

namespace MiniHedge.Shared

open MiniHedge.Python MiniHedge.Library

abbrev Seconds := ℚ

structure CircuitOpenError where
  name : String
  retryAfter : Seconds
  deriving DecidableEq, Repr

inductive CircuitState where
  | closed
  | opened
  | halfOpen
  deriving DecidableEq, Repr

structure CircuitConfig where
  name : String
  failureThreshold : Int := 5
  recoveryTimeout : Seconds := 30
  windowSeconds : Seconds := 60
  -- `isinstance(exc, tracked_exceptions)`
  tracks : Exc → Bool := fun _ => true

structure CircuitBreaker where
  state : CircuitState := .closed
  failures : List Seconds := []
  openedAt : Seconds := 0
  deriving DecidableEq, Repr

namespace CircuitBreaker

variable (config : CircuitConfig) (b : CircuitBreaker)

def beforeCall (now : Seconds) : Except CircuitOpenError CircuitBreaker :=
  match b.state with
  | .opened =>
    let elapsed := now - b.openedAt
    if config.recoveryTimeout ≤ elapsed then .ok { b with state := .halfOpen }
    else .error ⟨config.name, config.recoveryTimeout - elapsed⟩
  -- no gate: everyone who comes while the probe is out is let through
  | .halfOpen | .closed => .ok b

def onSuccess : CircuitBreaker :=
  match b.state with
  | .halfOpen => { b with state := .closed, failures := [] }
  | .closed | .opened => b

def onFailure (e : Exc) (now : Seconds) : CircuitBreaker :=
  if config.tracks e then
    match b.state with
    | .halfOpen => { b with state := .opened, openedAt := now }
    | .closed =>
      let cutoff := now - config.windowSeconds
      let failures := b.failures.filter (cutoff < ·) ++ [now]
      if config.failureThreshold ≤ failures.length then
        { state := .opened, failures, openedAt := now }
      else { b with failures }
    | .opened => b
  else b

end CircuitBreaker

/-! ## Calls -/

/-- A call that is let through runs, and has found the breaker in some state. -/
inductive CircuitCall where
  | rejected (error : CircuitOpenError)
  | running (found : CircuitState)
  | done
  deriving DecidableEq, Repr

/-- The breaker, all calls so far, and the clock. -/
structure Circuit where
  breaker : CircuitBreaker := {}
  calls : List CircuitCall := []
  clock : Seconds
  deriving DecidableEq, Repr

inductive CircuitEvent where
  | call
  | returns (k : Nat)
  | raises (k : Nat) (e : Exc)
  deriving DecidableEq, Repr

/-- A call comes, or one of those that run comes to its end. -/
def circuit (config : CircuitConfig) : System Circuit (CircuitEvent × Seconds) where
  step s := fun (event, now) =>
    if now < s.clock then none
    else match event with
      | .call =>
        match s.breaker.beforeCall config now with
        | .ok breaker => some ⟨breaker, s.calls ++ [.running s.breaker.state], now⟩
        | .error e => some ⟨s.breaker, s.calls ++ [.rejected e], now⟩
      | .returns k =>
        match s.calls[k]? with
        | some (.running _) => some ⟨s.breaker.onSuccess, s.calls.set k .done, now⟩
        | _ => none
      | .raises k e =>
        match s.calls[k]? with
        | some (.running _) => some ⟨s.breaker.onFailure config e now, s.calls.set k .done, now⟩
        | _ => none

/-- A step of the circuit, by its event. -/
inductive Circuit.Stepped (config : CircuitConfig) (s : Circuit) (now : Seconds) :
    CircuitEvent → Circuit → Prop where
  | started {breaker : CircuitBreaker} (admitted : s.breaker.beforeCall config now = .ok breaker) :
      Stepped config s now .call ⟨breaker, s.calls ++ [.running s.breaker.state], now⟩
  | refused {e : CircuitOpenError} (rejected : s.breaker.beforeCall config now = .error e) :
      Stepped config s now .call ⟨s.breaker, s.calls ++ [.rejected e], now⟩
  | returned {k : Nat} {found : CircuitState} (running : s.calls[k]? = some (.running found)) :
      Stepped config s now (.returns k) ⟨s.breaker.onSuccess, s.calls.set k .done, now⟩
  | raised {k : Nat} {e : Exc} {found : CircuitState}
      (running : s.calls[k]? = some (.running found)) :
      Stepped config s now (.raises k e)
        ⟨s.breaker.onFailure config e now, s.calls.set k .done, now⟩

theorem circuit_stepped {config : CircuitConfig} {s next : Circuit} {event : CircuitEvent}
    {now : Seconds} (stepped : (circuit config).step s (event, now) = some next) :
    s.clock ≤ now ∧ s.Stepped config now event next := by
  simp only [circuit] at stepped
  split at stepped
  · cases stepped
  · rename_i ahead
    refine ⟨not_lt.mp ahead, ?_⟩
    cases event with
    | call =>
      cases admission : s.breaker.beforeCall config now with
      | ok breaker =>
        rw [admission] at stepped
        cases stepped
        exact .started admission
      | error e =>
        rw [admission] at stepped
        cases stepped
        exact .refused admission
    | returns k =>
      dsimp only at stepped
      split at stepped
      · rename_i found running
        cases stepped
        exact .returned running
      · cases stepped
    | raises k e =>
      dsimp only at stepped
      split at stepped
      · rename_i found running
        cases stepped
        exact .raised running
      · cases stepped

/-! ## What the breaker does -/

namespace CircuitBreaker

variable {config : CircuitConfig} {b next : CircuitBreaker} {now : Seconds} {e : Exc}

/-- A call is let through unless the breaker is open and the timeout has not passed. -/
theorem beforeCall_eq_ok (admitted : b.beforeCall config now = .ok next) :
    b.state = .opened ∧ config.recoveryTimeout ≤ now - b.openedAt ∧
        next = { b with state := .halfOpen } ∨ b.state ≠ .opened ∧ next = b := by
  unfold beforeCall at admitted
  cases state : b.state with
  | opened =>
    simp only [state] at admitted
    split at admitted
    · rename_i passed
      cases admitted
      exact .inl ⟨rfl, passed, rfl⟩
    · cases admitted
  | halfOpen | closed =>
    simp only [state] at admitted
    cases admitted
    exact .inr ⟨nofun, rfl⟩

theorem beforeCall_eq_error {error : CircuitOpenError}
    (rejected : b.beforeCall config now = .error error) :
    b.state = .opened ∧ ¬ config.recoveryTimeout ≤ now - b.openedAt := by
  unfold beforeCall at rejected
  cases state : b.state with
  | opened =>
    simp only [state] at rejected
    split at rejected
    · cases rejected
    · rename_i early
      exact ⟨rfl, early⟩
  | halfOpen | closed =>
    simp only [state] at rejected
    cases rejected

theorem onSuccess_cases : b.state = .halfOpen ∧ b.onSuccess = { b with state := .closed, failures := [] } ∨
    b.state ≠ .halfOpen ∧ b.onSuccess = b := by
  unfold onSuccess
  cases state : b.state with
  | halfOpen => exact .inl ⟨rfl, rfl⟩
  | closed | opened => exact .inr ⟨nofun, rfl⟩

/-- The failures of the window, and the one of now. -/
def recent (config : CircuitConfig) (b : CircuitBreaker) (now : Seconds) : List Seconds :=
  b.failures.filter (now - config.windowSeconds < ·) ++ [now]

theorem onFailure_untracked (untracked : config.tracks e = false) :
    b.onFailure config e now = b := by
  simp [onFailure, untracked]

theorem onFailure_halfOpen (tracked : config.tracks e = true) (state : b.state = .halfOpen) :
    b.onFailure config e now = { b with state := .opened, openedAt := now } := by
  simp [onFailure, tracked, state]

theorem onFailure_opened (state : b.state = .opened) : b.onFailure config e now = b := by
  simp [onFailure, state]

theorem onFailure_closed (tracked : config.tracks e = true) (state : b.state = .closed) :
    b.onFailure config e now =
      if config.failureThreshold ≤ (b.recent config now).length then
        { state := .opened, failures := b.recent config now, openedAt := now }
      else { b with failures := b.recent config now } := by
  simp [onFailure, tracked, state, recent]

end CircuitBreaker

end MiniHedge.Shared
