import MiniHedge.Shared.CircuitBreaker

/-! When the circuit breaker opens, how long it keeps calls out, and who probes it.

The list of failures is pruned when a failure comes, so it is not the failures of
the window but has the same ones in every window that ends later.
-/

set_option autoImplicit false

namespace MiniHedge.Shared

open MiniHedge.Python MiniHedge.Library

/-! ## What a history of the circuit says -/

abbrev CircuitMoment := Circuit × (CircuitEvent × Seconds) × Circuit

namespace CircuitMoment

variable (config : CircuitConfig) (m : CircuitMoment)

def Opens : Prop := m.1.breaker.state ≠ .opened ∧ m.2.2.breaker.state = .opened

def Resets : Prop := m.1.breaker.state = .halfOpen ∧ m.2.2.breaker.state = .closed

/-- A protected function is started. -/
def Starts : Prop := ∃ found, m.2.2.calls = m.1.calls ++ [.running found]

instance : Decidable m.Opens := inferInstanceAs (Decidable (_ ∧ _))

instance : Decidable m.Resets := inferInstanceAs (Decidable (_ ∧ _))

/-- When a tracked failure is completed in CLOSED. -/
def failedInClosed : Option Seconds :=
  match m.2.1 with
  | (.raises _ e, now) => if config.tracks e ∧ m.1.breaker.state = .closed then some now else none
  | _ => none

end CircuitMoment

def failuresSinceReset (config : CircuitConfig) (past : List CircuitMoment) : List Seconds :=
  past.foldl (fun times m => if m.Resets then [] else times ++ (m.failedInClosed config).toList) []

def lastOpened (past : List CircuitMoment) : Option Seconds :=
  (past.filter (·.Opens)).getLast?.map (·.2.1.2)

theorem failuresSinceReset_append (config : CircuitConfig) (past : List CircuitMoment)
    (m : CircuitMoment) : failuresSinceReset config (past ++ [m]) =
      if m.Resets then [] else failuresSinceReset config past ++ (m.failedInClosed config).toList := by
  simp [failuresSinceReset]

theorem lastOpened_append (past : List CircuitMoment) (m : CircuitMoment) :
    lastOpened (past ++ [m]) = if m.Opens then some m.2.1.2 else lastOpened past := by
  by_cases opens : m.Opens <;> simp [lastOpened, opens]

/-- What is to hold of a step, given the steps before it. -/
structure TripLaw (config : CircuitConfig) (past : List CircuitMoment) (m : CircuitMoment) :
    Prop where
  trips : m.1.breaker.state = .closed ∧ m.2.2.breaker.state = .opened ↔
    ∃ now, m.failedInClosed config = some now ∧ config.failureThreshold ≤
      (((failuresSinceReset config past).filter (now - config.windowSeconds < ·)).length : Int) + 1
  waits : m.1.breaker.state = .opened → ∃ opened, lastOpened past = some opened ∧
    (m.2.1.2 - opened < config.recoveryTimeout → ¬ m.Starts)
  untracked : ∀ k e now, m.2.1 = (.raises k e, now) → config.tracks e = false →
    m.2.2.breaker.state = m.1.breaker.state
  success : ∀ k now, m.2.1 = (.returns k, now) → m.1.breaker.state = .closed →
    m.2.2.breaker.state = m.1.breaker.state

/-! ## The breaker and its history -/

/-- The breaker has the failures of every window that ends from now on. -/
structure Recorded (config : CircuitConfig) (past : List CircuitMoment) (s : Circuit) : Prop where
  failures : ∀ cutoff, s.clock - config.windowSeconds ≤ cutoff →
    s.breaker.failures.filter (cutoff < ·) = (failuresSinceReset config past).filter (cutoff < ·)
  opened : s.breaker.state = .opened → lastOpened past = some s.breaker.openedAt

section Recorded

variable {config : CircuitConfig} {past : List CircuitMoment} {s next : Circuit}
  {event : CircuitEvent} {now : Seconds}

/-- A step that leaves the failures and does not open the breaker. -/
theorem Recorded.same (recorded : Recorded config past s) (ahead : s.clock ≤ now)
    (clock : next.clock = now) (failures : next.breaker.failures = s.breaker.failures)
    (resets : ¬ CircuitMoment.Resets (s, (event, now), next))
    (none : CircuitMoment.failedInClosed config (s, (event, now), next) = none)
    (opened : next.breaker.state = .opened → next.breaker = s.breaker) :
    Recorded config (past ++ [(s, (event, now), next)]) next where
  failures cutoff later := by
    rw [failures, failuresSinceReset_append, if_neg resets, none, Option.toList_none,
      List.append_nil]
    refine recorded.failures cutoff (le_trans ?_ later)
    rw [clock]
    exact sub_le_sub_right ahead _
  opened here := by
    have still := opened here
    rw [still] at here ⊢
    rw [lastOpened_append, if_neg fun opens => opens.1 here]
    exact recorded.opened here

theorem Recorded.step (recorded : Recorded config past s)
    (stepped : (circuit config).step s (event, now) = some next) :
    Recorded config (past ++ [(s, (event, now), next)]) next := by
  obtain ⟨ahead, stepped⟩ := circuit_stepped stepped
  cases stepped with
  | started admitted =>
    rcases CircuitBreaker.beforeCall_eq_ok admitted with ⟨state, -, rfl⟩ | ⟨state, rfl⟩
    · exact recorded.same ahead rfl rfl (fun resets => by cases resets.2) rfl (by rintro ⟨⟩)
    · exact recorded.same ahead rfl rfl (fun resets => by cases resets.1.symm.trans resets.2) rfl
        fun _ => rfl
  | refused rejected =>
    exact recorded.same ahead rfl rfl (fun resets => by cases resets.1.symm.trans resets.2) rfl
      fun _ => rfl
  | @returned k found running =>
    rcases s.breaker.onSuccess_cases with ⟨state, reset⟩ | ⟨state, kept⟩
    · rw [reset]
      constructor
      · intro cutoff _
        rw [failuresSinceReset_append, if_pos ⟨state, rfl⟩]
      · rintro ⟨⟩
    · rw [kept]
      exact recorded.same ahead rfl rfl (fun resets => state resets.1) rfl fun _ => rfl
  | @raised k e found running =>
    cases tracked : config.tracks e with
    | false =>
      rw [CircuitBreaker.onFailure_untracked tracked]
      refine recorded.same ahead rfl rfl (fun resets => by cases resets.1.symm.trans resets.2) ?_
        fun _ => rfl
      simp [CircuitMoment.failedInClosed, tracked]
    | true =>
      cases state : s.breaker.state with
      | opened =>
        rw [CircuitBreaker.onFailure_opened state]
        refine recorded.same ahead rfl rfl (fun resets => by cases resets.1.symm.trans resets.2) ?_
          fun _ => rfl
        simp [CircuitMoment.failedInClosed, state]
      | halfOpen =>
        rw [CircuitBreaker.onFailure_halfOpen tracked state]
        constructor
        · intro cutoff later
          rw [failuresSinceReset_append, if_neg fun resets => by cases resets.2]
          simpa [CircuitMoment.failedInClosed, state] using
            recorded.failures cutoff (le_trans (sub_le_sub_right ahead _) later)
        · intro _
          rw [lastOpened_append, if_pos ⟨by rw [state]; rintro ⟨⟩, rfl⟩]
      | closed =>
        have kept : ∀ breaker : CircuitBreaker, breaker.failures = s.breaker.recent config now →
            ∀ cutoff, now - config.windowSeconds ≤ cutoff →
              breaker.failures.filter (cutoff < ·) = (failuresSinceReset config (past ++
                [(s, (.raises k e, now), ⟨breaker, s.calls.set k .done, now⟩)])).filter
                  (cutoff < ·) := by
          intro breaker failures cutoff later
          have some : CircuitMoment.failedInClosed config (s, (.raises k e, now),
              ⟨breaker, s.calls.set k .done, now⟩) = some now := by
            simp [CircuitMoment.failedInClosed, tracked, state]
          have closed : ¬ CircuitMoment.Resets (s, (.raises k e, now),
              ⟨breaker, s.calls.set k .done, now⟩) := by
            rintro ⟨halfOpen, -⟩
            rw [state] at halfOpen
            cases halfOpen
          rw [failuresSinceReset_append, if_neg closed, some, failures, CircuitBreaker.recent,
            Option.toList_some, List.filter_append, List.filter_append]
          congr 1
          -- what was pruned is older than the cutoff
          rw [List.filter_filter, ← recorded.failures cutoff
            (le_trans (sub_le_sub_right ahead _) later)]
          refine List.filter_congr fun t _ => ?_
          by_cases young : cutoff < t
          · simp [young, lt_of_le_of_lt later young]
          · simp [young]
        rw [CircuitBreaker.onFailure_closed tracked state]
        split
        · refine ⟨kept _ rfl, fun _ => ?_⟩
          rw [lastOpened_append, if_pos ⟨by rw [state]; rintro ⟨⟩, rfl⟩]
        · refine ⟨kept _ rfl, fun opened => ?_⟩
          rw [state] at opened
          cases opened

/-- A call that is done is no new one. -/
theorem not_starts_done {label : CircuitEvent × Seconds} {breaker : CircuitBreaker} {k : Nat} :
    ¬ CircuitMoment.Starts (s, label, ⟨breaker, s.calls.set k .done, now⟩) := by
  rintro ⟨found, started⟩
  have length := congrArg List.length started
  simp at length

/-- The law holds of a step if the breaker has what the steps before it say. -/
theorem Recorded.tripLaw (recorded : Recorded config past s)
    (stepped : (circuit config).step s (event, now) = some next) :
    TripLaw config past (s, (event, now), next) := by
  obtain ⟨ahead, stepped⟩ := circuit_stepped stepped
  have older : s.clock - config.windowSeconds ≤ now - config.windowSeconds :=
    sub_le_sub_right ahead _
  have recent : ((s.breaker.recent config now).length : Int) = (((failuresSinceReset config
      past).filter (now - config.windowSeconds < ·)).length : Int) + 1 := by
    rw [CircuitBreaker.recent, recorded.failures _ older, List.length_append, List.length_singleton]
    rfl
  -- only a tracked failure in CLOSED opens a closed breaker
  have untripped : CircuitMoment.failedInClosed config (s, (event, now), next) = none →
      ¬ (s.breaker.state = .closed ∧ next.breaker.state = .opened) →
      (s.breaker.state = .closed ∧ next.breaker.state = .opened ↔
        ∃ t, CircuitMoment.failedInClosed config (s, (event, now), next) = some t ∧
          config.failureThreshold ≤ (((failuresSinceReset config past).filter
            (t - config.windowSeconds < ·)).length : Int) + 1) := by
    intro none stays
    refine iff_of_false stays ?_
    rintro ⟨t, failed, -⟩
    rw [none] at failed
    cases failed
  cases stepped with
  | started admitted =>
    rcases CircuitBreaker.beforeCall_eq_ok admitted with ⟨state, passed, rfl⟩ | ⟨state, rfl⟩
    · refine ⟨untripped rfl (fun trips => by cases trips.2), fun _ => ?_, by rintro _ _ _ ⟨⟩,
        by rintro _ _ ⟨⟩⟩
      exact ⟨_, recorded.opened state, fun early => absurd passed (not_le.mpr early)⟩
    · exact ⟨untripped rfl (fun trips => by cases trips.1.symm.trans trips.2),
        fun opened => absurd opened state, by rintro _ _ _ ⟨⟩, by rintro _ _ ⟨⟩⟩
  | refused rejected =>
    refine ⟨untripped rfl (fun trips => by cases trips.1.symm.trans trips.2), fun opened => ?_,
      by rintro _ _ _ ⟨⟩, by rintro _ _ ⟨⟩⟩
    refine ⟨_, recorded.opened opened, fun _ starts => ?_⟩
    obtain ⟨found, started⟩ := starts
    cases List.append_cancel_left started
  | @returned k found running =>
    refine ⟨untripped rfl ?_, fun opened => ⟨_, recorded.opened opened, fun _ => not_starts_done⟩,
      by rintro _ _ _ ⟨⟩, fun _ _ _ state => ?_⟩
    · rintro ⟨closed, opened⟩
      rcases s.breaker.onSuccess_cases with ⟨halfOpen, -⟩ | ⟨-, kept⟩
      · cases closed.symm.trans halfOpen
      · rw [kept] at opened
        cases closed.symm.trans opened
    · rcases s.breaker.onSuccess_cases with ⟨halfOpen, -⟩ | ⟨-, kept⟩
      · cases state.symm.trans halfOpen
      · exact congrArg CircuitBreaker.state kept
  | @raised k e found running =>
    refine ⟨?_, fun opened => ⟨_, recorded.opened opened, fun _ => not_starts_done⟩, ?_,
      by rintro _ _ ⟨⟩⟩
    · by_cases fails : config.tracks e ∧ s.breaker.state = .closed
      · obtain ⟨tracked, state⟩ := fails
        have failed : CircuitMoment.failedInClosed config (s, (.raises k e, now),
            ⟨s.breaker.onFailure config e now, s.calls.set k .done, now⟩) = some now := by
          simp [CircuitMoment.failedInClosed, tracked, state]
        rw [failed]
        simp only [Option.some.injEq, exists_eq_left', ← recent, state, true_and]
        rw [CircuitBreaker.onFailure_closed tracked state]
        split
        · rename_i enough
          exact iff_of_true rfl enough
        · rename_i few
          exact iff_of_false (fun opened => by cases state.symm.trans opened) few
      · refine untripped (by simp [CircuitMoment.failedInClosed, fails]) ?_
        rintro ⟨closed, opened⟩
        have untracked : config.tracks e = false := by
          simpa [closed] using fails
        rw [CircuitBreaker.onFailure_untracked untracked] at opened
        cases closed.symm.trans opened
    · rintro _ _ _ same untracked
      cases same
      exact congrArg CircuitBreaker.state (CircuitBreaker.onFailure_untracked untracked)

end Recorded

/-- Every step of a run of calls, at any times that do not go back, obeys the law. -/
theorem tripLaw_throughout (config : CircuitConfig) {clock : Seconds}
    {events : List (CircuitEvent × Seconds)} {before after : List CircuitMoment} {m : CircuitMoment}
    (split : (circuit config).moments { clock } events = before ++ m :: after) :
    TripLaw config before m := by
  have initial : Recorded config [] { clock } := ⟨fun _ _ => rfl, nofun⟩
  have kept : ∀ past s label next, Recorded config past s →
      (circuit config).step s label = some next →
      Recorded config (past ++ [(s, label, next)]) next :=
    fun _ _ _ _ recorded stepped => recorded.step stepped
  obtain ⟨recorded, stepped⟩ := System.invariant_moments kept initial split
  rw [List.nil_append] at recorded
  exact recorded.tripLaw stepped

/-! ## A second failure opens the breaker -/

def twoFailures : CircuitConfig := { name := "keycloak", failureThreshold := 2 }

def unreachable : Exc := .exception "ConnectionError" "unreachable"

/-- Two calls fail, and a third one comes at once. -/
def failingCalls : List (CircuitEvent × Seconds) :=
  [(.call, 0), (.call, 1), (.raises 0 unreachable, 2), (.raises 1 unreachable, 3), (.call, 4)]

theorem failingCalls_tripLaw : ∃ before m, (circuit twoFailures).moments { clock := 0 } failingCalls =
    before ++ [m] ∧ m.1.breaker.state = .opened ∧ TripLaw twoFailures before m := by
  have last := List.dropLast_concat_getLast (l := (circuit twoFailures).moments { clock := 0 }
    failingCalls) (by decide +kernel)
  exact ⟨_, _, last.symm, by decide +kernel, tripLaw_throughout twoFailures last.symm⟩

/-! ## Whether the circuit breaker is probed by one call at a time

A call that has found the breaker open was let through to HALF_OPEN: it is the
probe. Nothing keeps out those that come after it, and those that came before
the breaker opened may still run.
-/

/-! ## What is to hold -/

def CircuitCall.found : CircuitCall → Option CircuitState
  | .running found => some found
  | .rejected _ | .done => none

/-- The calls in flight, by the states that they found. -/
def Circuit.inFlight (s : Circuit) : List CircuitState := s.calls.filterMap CircuitCall.found

/-- While the probe is in flight, it is the only call. -/
def Circuit.OneProbe (s : Circuit) : Prop := .opened ∈ s.inFlight → s.inFlight.length ≤ 1

/-- The call was admitted in HALF_OPEN, be it the first one or a later one, and ends in this step. -/
def CircuitMoment.EndsProbe (m : CircuitMoment) : Prop :=
  ∃ k found, m.1.calls[k]? = some (.running found) ∧ found ≠ .closed ∧
    (m.2.1.1 = .returns k ∨ ∃ e, m.2.1.1 = .raises k e)

def CircuitMoment.LeavesHalfOpen (m : CircuitMoment) : Prop :=
  m.1.breaker.state = .halfOpen ∧ m.2.2.breaker.state ≠ .halfOpen

structure CircuitMoment.Probes (m : CircuitMoment) : Prop where
  one : m.2.2.OneProbe
  exits : m.LeavesHalfOpen → m.EndsProbe

/-! ## The condition -/

/-- A call that the breaker lets through when it is open finds no other in flight, and none comes
while a probe is. -/
def AdmitsAlone (config : CircuitConfig) (s : Circuit) (label : CircuitEvent × Seconds) : Prop :=
  label.1 = .call →
    (s.breaker.state = .opened → config.recoveryTimeout ≤ label.2 - s.breaker.openedAt →
      s.inFlight = []) ∧ (s.breaker.state = .halfOpen → .opened ∉ s.inFlight)

instance (config : CircuitConfig) (s : Circuit) (label : CircuitEvent × Seconds) :
    Decidable (AdmitsAlone config s label) := inferInstanceAs (Decidable (_ → _ ∧ _))

/-! ## Calls in flight -/

section InFlight

variable {s : Circuit} {breaker : CircuitBreaker} {now : Seconds}

theorem inFlight_start (found : CircuitState) :
    Circuit.inFlight ⟨breaker, s.calls ++ [.running found], now⟩ = s.inFlight ++ [found] := by
  simp [Circuit.inFlight, CircuitCall.found]

theorem inFlight_reject (e : CircuitOpenError) :
    Circuit.inFlight ⟨breaker, s.calls ++ [.rejected e], now⟩ = s.inFlight := by
  simp [Circuit.inFlight, CircuitCall.found]

variable (breaker now) in
/-- A call that ends was in flight and is no longer. -/
theorem inFlight_done {k : Nat} {found : CircuitState} (running : s.calls[k]? = some (.running found)) :
    ∃ before after, s.inFlight = before ++ found :: after ∧
      Circuit.inFlight ⟨breaker, s.calls.set k .done, now⟩ = before ++ after := by
  obtain ⟨inside, here⟩ := List.getElem?_eq_some_iff.mp running
  have whole : s.calls = s.calls.take k ++ .running found :: s.calls.drop (k + 1) := by
    rw [← here, List.getElem_cons_drop, List.take_append_drop]
  refine ⟨(s.calls.take k).filterMap CircuitCall.found,
    (s.calls.drop (k + 1)).filterMap CircuitCall.found, ?_, ?_⟩
  · conv_lhs => rw [Circuit.inFlight, whole]
    simp [CircuitCall.found]
  · simp [Circuit.inFlight, List.set_eq_take_append_cons_drop, inside, List.filterMap_cons,
      CircuitCall.found]

end InFlight

/-! ## Runs that admit alone -/

/-- A probe is alone in HALF_OPEN, and no call from before is in flight there. -/
structure Probing (s : Circuit) : Prop where
  alone : .opened ∈ s.inFlight → s.inFlight = [.opened] ∧ s.breaker.state = .halfOpen
  admitted : s.breaker.state = .halfOpen → .closed ∉ s.inFlight

section Steps

variable {config : CircuitConfig} {s next : Circuit} {label : CircuitEvent × Seconds}

theorem Probing.oneProbe (probing : Probing s) : s.OneProbe := by
  intro out
  rw [(probing.alone out).1]
  exact le_refl _

/-- After a call has ended no probe is in flight. -/
theorem Probing.done (probing : Probing s) {breaker : CircuitBreaker} {now : Seconds} {k : Nat}
    {found : CircuitState} (running : s.calls[k]? = some (.running found))
    (state : breaker.state = .halfOpen → s.breaker.state = .halfOpen) :
    Probing ⟨breaker, s.calls.set k .done, now⟩ := by
  obtain ⟨before, after, whole, left⟩ := inFlight_done breaker now running
  have inside : ∀ other, other ∈ before ++ after → other ∈ s.inFlight := by
    intro other member
    rw [whole]
    simp only [List.mem_append, List.mem_cons] at member ⊢
    tauto
  constructor
  · intro out
    rw [left] at out
    have alone := (probing.alone (inside _ out)).1
    have length := congrArg List.length (whole.symm.trans alone)
    simp only [List.length_append, List.length_cons, List.length_nil] at length
    have some : 0 < (before ++ after).length := List.length_pos_of_mem out
    rw [List.length_append] at some
    omega
  · intro halfOpen closed
    rw [left] at closed
    exact probing.admitted (state halfOpen) (inside _ closed)

theorem onSuccess_halfOpen {b : CircuitBreaker} (state : b.onSuccess.state = .halfOpen) :
    b.state = .halfOpen := by
  rcases b.onSuccess_cases with ⟨-, reset⟩ | ⟨-, kept⟩
  · rw [reset] at state
    cases state
  · rwa [kept] at state

theorem onFailure_halfOpen_state {b : CircuitBreaker} {e : Exc} {now : Seconds}
    (state : (b.onFailure config e now).state = .halfOpen) : b.state = .halfOpen := by
  cases tracked : config.tracks e with
  | false => rwa [CircuitBreaker.onFailure_untracked tracked] at state
  | true =>
    cases before : b.state with
    | halfOpen => rfl
    | opened => rwa [CircuitBreaker.onFailure_opened before, before] at state
    | closed =>
      rw [CircuitBreaker.onFailure_closed tracked before] at state
      split at state
      · cases state
      · rwa [before] at state

theorem Probing.step (probing : Probing s) (admits : AdmitsAlone config s label)
    (stepped : (circuit config).step s label = some next) : Probing next := by
  obtain ⟨event, now⟩ := label
  obtain ⟨-, stepped⟩ := circuit_stepped stepped
  cases stepped with
  | started admitted =>
    rcases CircuitBreaker.beforeCall_eq_ok admitted with ⟨state, passed, rfl⟩ | ⟨state, rfl⟩
    · have none := (admits rfl).1 state passed
      constructor
      · intro _
        rw [inFlight_start, none, state]
        exact ⟨rfl, rfl⟩
      · intro _ closed
        rw [inFlight_start, none, state] at closed
        simp at closed
    · have free : .opened ∉ s.inFlight := by
        intro out
        exact (admits rfl).2 (probing.alone out).2 out
      constructor
      · intro out
        rw [inFlight_start] at out
        rcases List.mem_append.mp out with before | own
        · exact absurd before free
        · exact absurd (List.mem_singleton.mp own).symm state
      · intro halfOpen closed
        rw [inFlight_start] at closed
        rcases List.mem_append.mp closed with before | own
        · exact probing.admitted halfOpen before
        · cases halfOpen.symm.trans (List.mem_singleton.mp own).symm
  | refused rejected =>
    constructor
    · rw [inFlight_reject]
      exact probing.alone
    · rw [inFlight_reject]
      exact probing.admitted
  | returned running => exact probing.done running onSuccess_halfOpen
  | raised running => exact probing.done running onFailure_halfOpen_state

/-- What a probe decides is decided by a call that was admitted in HALF_OPEN. -/
theorem Probing.exits (probing : Probing s) (stepped : (circuit config).step s label = some next)
    (leaves : CircuitMoment.LeavesHalfOpen (s, label, next)) :
    CircuitMoment.EndsProbe (s, label, next) := by
  obtain ⟨event, now⟩ := label
  obtain ⟨-, stepped⟩ := circuit_stepped stepped
  obtain ⟨before, after⟩ := leaves
  have admitted : ∀ {k : Nat} {found : CircuitState}, s.calls[k]? = some (.running found) → found ≠ .closed := by
    rintro k found running rfl
    refine probing.admitted before (List.mem_filterMap.mpr ⟨_, List.mem_of_getElem? running, rfl⟩)
  cases stepped with
  | started admission =>
    rcases CircuitBreaker.beforeCall_eq_ok admission with ⟨-, -, rfl⟩ | ⟨-, rfl⟩
    · exact absurd rfl after
    · exact absurd before after
  | refused => exact absurd before after
  | returned running => exact ⟨_, _, running, admitted running, .inl rfl⟩
  | raised running => exact ⟨_, _, running, admitted running, .inr ⟨_, rfl⟩⟩

/-- If a step leaves the probe alone, it was admitted alone. -/
theorem admitsAlone_of_oneProbe (stepped : (circuit config).step s label = some next)
    (one : next.OneProbe) : AdmitsAlone config s label := by
  obtain ⟨event, now⟩ := label
  rintro ⟨⟩
  obtain ⟨-, stepped⟩ := circuit_stepped stepped
  cases stepped with
  | started admission =>
    unfold Circuit.OneProbe at one
    rw [inFlight_start, List.length_append, List.length_singleton] at one
    constructor
    · intro state _
      rw [state] at one
      exact List.length_eq_zero_iff.mp (by have := one (by simp); omega)
    · intro _ out
      have := one (List.mem_append_left _ out)
      have := List.length_pos_of_mem out
      omega
  | refused rejected =>
    have state := CircuitBreaker.beforeCall_eq_error rejected
    exact ⟨fun _ passed => absurd passed state.2, fun halfOpen => nomatch state.1.symm.trans halfOpen⟩

end Steps

/-- The breaker is probed by one call at a time exactly if it is in each admission. -/
theorem probes_iff_admitsAlone {config : CircuitConfig} {clock : Seconds}
    {events : List (CircuitEvent × Seconds)} {final : Circuit}
    (ran : (circuit config).run { clock } events = some final) :
    (∀ m ∈ (circuit config).moments { clock } events, CircuitMoment.Probes m) ↔
      (circuit config).Along (AdmitsAlone config) { clock } events := by
  constructor
  · intro probes
    exact System.along_of_moments ran fun m member =>
      admitsAlone_of_oneProbe (System.step_of_mem_moments member) (probes m member).one
  · intro along m member
    have initial : Probing { clock } := ⟨by simp [Circuit.inFlight], nofun⟩
    have kept : ∀ s label next, Probing s → AdmitsAlone config s label →
        (circuit config).step s label = some next → Probing next :=
      fun _ _ _ probing admits stepped => probing.step admits stepped
    obtain ⟨probing, admits⟩ := along.moments kept initial member
    have stepped := System.step_of_mem_moments member
    exact ⟨(probing.step admits stepped).oneProbe, fun leaves => probing.exits stepped leaves⟩

/-! ## A probe on its own, and two at once -/

def oneFailure : CircuitConfig := { name := "mock-exchange-broker", failureThreshold := 1 }

def probedOnce : List (CircuitEvent × Seconds) :=
  [(.call, 0), (.raises 0 unreachable, 1), (.call, 31), (.returns 1, 32), (.call, 33)]

theorem probedOnce_probes : ((circuit oneFailure).moments { clock := 0 } probedOnce).length = 5 ∧
    ∀ m ∈ (circuit oneFailure).moments { clock := 0 } probedOnce, CircuitMoment.Probes m := by
  refine ⟨by decide +kernel, ?_⟩
  obtain ⟨final, ran⟩ := Option.isSome_iff_exists.mp
    (by decide +kernel : ((circuit oneFailure).run { clock := 0 } probedOnce).isSome)
  exact (probes_iff_admitsAlone ran).mpr (by decide +kernel)

def probedTwice : List (CircuitEvent × Seconds) :=
  [(.call, 0), (.raises 0 unreachable, 1), (.call, 31), (.call, 31)]

/-- The second call is let through while the probe is out. -/
theorem probedTwice_not_probes : ¬ ∀ config clock events final,
    (circuit config).run { clock } events = some final →
      ∀ m ∈ (circuit config).moments { clock } events, CircuitMoment.Probes m := by
  intro probes
  obtain ⟨final, ran⟩ := Option.isSome_iff_exists.mp
    (by decide +kernel : ((circuit oneFailure).run { clock := 0 } probedTwice).isSome)
  have one : ∀ m ∈ (circuit oneFailure).moments { clock := 0 } probedTwice,
      CircuitState.opened ∈ m.2.2.inFlight → m.2.2.inFlight.length ≤ 1 :=
    fun m member => (probes _ _ _ _ ran m member).one
  revert one
  decide +kernel

end MiniHedge.Shared
