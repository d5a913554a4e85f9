import MiniHedge.Library.Transition
import MiniHedge.Python.Values

/-! The scenario engine: presets whose phases change the market for a while.

A start makes a task that applies one phase after the other and sleeps in between. A stop
cancels the task that was made last; others go on where several were started, and look at
the state of the engine when they wake.
-/

set_option autoImplicit false

namespace MiniHedge.MockExchange

open MiniHedge.Python MiniHedge.Library

inductive ScenarioState where
  | idle
  | loaded
  | running
  deriving DecidableEq, Repr

structure RegimeParams where
  driftMultiplier : Decimal := 1
  volatilityMultiplier : Decimal := 1
  correlationBoost : Decimal := 0
  deriving DecidableEq, Repr

structure ExecutionParams where
  fillDelayMs : ℕ := 50
  rejectRate : Decimal := 0
  partialFillRate : Decimal := 0
  slippageBps : Decimal := 2
  deriving DecidableEq, Repr

/-- The shares of orders that are rejected and filled in part. -/
def ExecutionParams.Shares (execution : ExecutionParams) : Prop :=
  0 ≤ execution.rejectRate ∧ 0 ≤ execution.partialFillRate ∧ execution.rejectRate + execution.partialFillRate ≤ 1

instance (execution : ExecutionParams) : Decidable execution.Shares := inferInstanceAs (Decidable (_ ∧ _ ∧ _))

structure ScenarioPhase where
  name : String
  durationSeconds : ℕ
  regime : RegimeParams
  execution : Option ExecutionParams := none
  deriving DecidableEq, Repr

structure ScenarioDefinition where
  name : String
  phases : List ScenarioPhase
  deriving DecidableEq, Repr

def presets : List ScenarioDefinition := [
  ⟨"calm", [⟨"calm", 600, {}, none⟩]⟩,
  ⟨"bull", [⟨"rally", 600, { driftMultiplier := 5 / 2, volatilityMultiplier := 7 / 10 }, none⟩]⟩,
  ⟨"bear", [⟨"selloff", 600, ⟨-3 / 2, 3 / 2, 3 / 20⟩, some { fillDelayMs := 200, partialFillRate := 1 / 10 }⟩]⟩,
  ⟨"crash", [
    ⟨"shock", 120, ⟨-3, 3, 3 / 10⟩, some ⟨5000, 3 / 20, 3 / 10, 20⟩⟩,
    ⟨"recovery", 300, ⟨1 / 2, 3 / 2, 1 / 10⟩, some { fillDelayMs := 500, partialFillRate := 1 / 10 }⟩]⟩,
  ⟨"flash_crash", [
    ⟨"crash", 20, ⟨-10, 5, 2 / 5⟩, some { fillDelayMs := 10000, rejectRate := 3 / 10, slippageBps := 50 }⟩,
    ⟨"recovery", 60, { driftMultiplier := 5, volatilityMultiplier := 2 }, some { fillDelayMs := 200 }⟩]⟩,
  ⟨"demo", [⟨"steady_climb", 600, { driftMultiplier := 9 / 5, volatilityMultiplier := 1 / 2 }, none⟩]⟩]

/-! ## The engine and its tasks -/

/-- A task of `_run_phases`. -/
inductive PhaseTask where
  | created
  | sleeping (rest : List ScenarioPhase)
  | done
  deriving DecidableEq, Repr

/-- The engine, with what it has set in the simulator and in the execution engine where it has them. -/
structure ScenarioEngine where
  simulator : Option RegimeParams
  executionEngine : Option ExecutionParams
  state : ScenarioState := .idle
  activeScenario : Option ScenarioDefinition := none
  currentPhase : Option ScenarioPhase := none
  /-- The task that was made last. -/
  task : Option ℕ := none
  tasks : List PhaseTask := []
  deriving DecidableEq, Repr

namespace ScenarioEngine

variable (s : ScenarioEngine)

def applyPhase (phase : ScenarioPhase) : ScenarioEngine :=
  { s with
    simulator := s.simulator.map fun _ => phase.regime
    executionEngine := s.executionEngine.map fun config => phase.execution.getD config }

def resetParams : ScenarioEngine :=
  { s with
    simulator := s.simulator.map fun _ => {}
    executionEngine := s.executionEngine.map fun _ => {} }

/-- An unknown name is refused. -/
def loadPreset (name : String) : ScenarioEngine :=
  match presets.find? (·.name = name) with
  | none => s
  | some scenario => { s with activeScenario := some scenario, state := .loaded }

/-- Without a scenario, a start is refused. -/
def start : ScenarioEngine :=
  match s.activeScenario with
  | none => s
  | some _ => { s with state := .running, task := some s.tasks.length, tasks := s.tasks ++ [.created] }

def cancelled : List PhaseTask :=
  match s.task with
  | none => s.tasks
  | some k => s.tasks.set k .done

def stop : ScenarioEngine :=
  { s.resetParams with state := .idle, tasks := s.cancelled, currentPhase := none }

def reset : ScenarioEngine := { s.stop with activeScenario := none }

/-- All phases are through, or the loop was left. -/
def finish (k : ℕ) : ScenarioEngine :=
  { s.resetParams with state := .idle, currentPhase := none, tasks := s.tasks.set k .done }

/-- The loop of a task up to its next sleep. -/
def runPhases (k : ℕ) : List ScenarioPhase → ScenarioEngine
  | [] => s.finish k
  | phase :: rest =>
    if s.state ≠ .running then s.finish k
    else
      match s.activeScenario with
      -- the name of the scenario, which is logged, is not there
      | none => { s with currentPhase := some phase, tasks := s.tasks.set k .done }
      | some _ => { s.applyPhase phase with currentPhase := some phase, tasks := s.tasks.set k (.sleeping rest) }

/-- A task that has not run yet takes the phases of the scenario that is active now. -/
def wake (k : ℕ) : Option ScenarioEngine :=
  match s.tasks[k]? with
  | none | some .done => none
  | some (.sleeping rest) => some (s.runPhases k rest)
  | some .created =>
    match s.activeScenario with
    | none => some { s with tasks := s.tasks.set k .done }
    | some scenario => some (s.runPhases k scenario.phases)

end ScenarioEngine

inductive ScenarioAction where
  | loadPreset (name : String)
  | start
  | stop
  | reset
  | wake (task : ℕ)
  deriving DecidableEq, Repr

def scenarioEngine : System ScenarioEngine ScenarioAction where
  step s
    | .loadPreset name => some (s.loadPreset name)
    | .start => some s.start
    | .stop => some s.stop
    | .reset => some s.reset
    | .wake task => s.wake task

namespace ScenarioEngine

/-! ## What is in force -/

/-- The market is as without a scenario. -/
structure Calm (s : ScenarioEngine) : Prop where
  simulator : ∀ regime ∈ s.simulator, regime = {}
  executionEngine : ∀ execution ∈ s.executionEngine, execution = {}
  currentPhase : s.currentPhase = none

/-- One of the phases that the presets have. -/
def Known (phase : ScenarioPhase) : Prop := ∃ scenario ∈ presets, phase ∈ scenario.phases

/-- The tasks and the scenario come from the presets, and so does what they have set. -/
structure Preset (s : ScenarioEngine) : Prop where
  active : ∀ scenario ∈ s.activeScenario, scenario ∈ presets
  rest : ∀ rest, .sleeping rest ∈ s.tasks → ∀ phase ∈ rest, Known phase
  simulator : ∀ regime ∈ s.simulator, regime = {} ∨ ∃ phase, Known phase ∧ phase.regime = regime
  executionEngine : ∀ execution ∈ s.executionEngine,
    execution = {} ∨ ∃ phase, Known phase ∧ phase.execution = some execution

/-- Without a scenario that runs, the market is calm, and what runs is active. -/
structure Sound (s : ScenarioEngine) : Prop extends Preset s where
  idle : s.state = .idle → s.Calm
  running : s.state = .running → s.activeScenario.isSome

variable {s s' : ScenarioEngine} {k : ℕ}

theorem Calm.of_same (calm : s.Calm) (simulator : s'.simulator = s.simulator)
    (executionEngine : s'.executionEngine = s.executionEngine) (phase : s'.currentPhase = s.currentPhase) : s'.Calm :=
  ⟨simulator ▸ calm.simulator, executionEngine ▸ calm.executionEngine, phase.trans calm.currentPhase⟩

theorem calm_resetParams (s : ScenarioEngine) (tasks : List PhaseTask) :
    { s.resetParams with state := .idle, currentPhase := none, tasks }.Calm := by
  refine ⟨?_, ?_, rfl⟩
  · rintro regime among
    obtain ⟨-, -, rfl⟩ := Option.map_eq_some_iff.mp among
    rfl
  · rintro execution among
    obtain ⟨-, -, rfl⟩ := Option.map_eq_some_iff.mp among
    rfl

/-- What ends with a reset. -/
theorem Preset.ended (preset : s.Preset) {tasks : List PhaseTask}
    (former : ∀ rest, .sleeping rest ∈ tasks → .sleeping rest ∈ s.tasks) :
    Sound { s.resetParams with state := .idle, currentPhase := none, tasks } := by
  have calm := calm_resetParams s tasks
  refine ⟨⟨preset.active, ?_, ?_, ?_⟩, fun _ => calm, fun isRunning => nomatch isRunning⟩
  · exact fun rest sleeps => preset.rest rest (former rest sleeps)
  · exact fun regime among => .inl (calm.simulator regime among)
  · exact fun execution among => .inl (calm.executionEngine execution among)

theorem not_sleeping_done {tasks : List PhaseTask} {rest : List ScenarioPhase}
    (sleeps : .sleeping rest ∈ tasks.set k .done) : .sleeping rest ∈ tasks := by
  rcases List.mem_or_eq_of_mem_set sleeps with former | new
  · exact former
  · cases new

theorem Preset.finish (preset : s.Preset) (k : ℕ) : (s.finish k).Sound :=
  preset.ended fun _ => not_sleeping_done

theorem Preset.stop (preset : s.Preset) : s.stop.Sound := by
  apply preset.ended
  intro rest sleeps
  rw [cancelled] at sleeps
  split at sleeps
  · exact sleeps
  · exact not_sleeping_done sleeps

theorem Sound.runPhases (sound : s.Sound) (k : ℕ) {phases : List ScenarioPhase}
    (known : ∀ phase ∈ phases, Known phase) : (s.runPhases k phases).Sound := by
  cases phases with
  | nil => exact sound.toPreset.finish k
  | cons phase rest =>
    rw [ScenarioEngine.runPhases]
    split
    · exact sound.toPreset.finish k
    · rename_i isRunning
      rw [not_ne_iff] at isRunning
      obtain ⟨scenario, active⟩ := Option.isSome_iff_exists.mp (sound.running isRunning)
      have own := known phase List.mem_cons_self
      simp only [active]
      refine ⟨⟨?_, ?_, ?_, ?_⟩, ?_, ?_⟩
      · exact sound.active
      · intro rest' sleeps
        rcases List.mem_or_eq_of_mem_set sleeps with former | new
        · exact sound.rest rest' former
        · cases new
          exact fun phase later => known phase (List.mem_cons_of_mem _ later)
      · intro regime among
        obtain ⟨-, -, rfl⟩ := Option.map_eq_some_iff.mp among
        exact .inr ⟨phase, own, rfl⟩
      · intro execution among
        obtain ⟨former, there, rfl⟩ := Option.map_eq_some_iff.mp among
        cases set : phase.execution with
        | none => exact sound.executionEngine former there
        | some execution => exact .inr ⟨phase, own, set⟩
      · exact fun isIdle => nomatch isRunning.symm.trans isIdle
      · exact sound.running

theorem Sound.wake (sound : s.Sound) (woken : s.wake k = some s') : s'.Sound := by
  rw [ScenarioEngine.wake] at woken
  split at woken
  · cases woken
  · cases woken
  · rename_i rest asleep
    cases woken
    exact sound.runPhases k (sound.rest rest (List.mem_of_getElem? asleep))
  · split at woken
    · cases woken
      refine ⟨{ sound.toPreset with rest := ?_ }, ?_, sound.running⟩
      · exact fun rest sleeps => sound.rest rest (not_sleeping_done sleeps)
      · exact fun isIdle => (sound.idle isIdle).of_same rfl rfl rfl
    · rename_i scenario active
      cases woken
      exact sound.runPhases k fun phase own => ⟨scenario, sound.active scenario active, own⟩

theorem Sound.step (sound : s.Sound) {action : ScenarioAction} (stepped : scenarioEngine.step s action = some s') :
    s'.Sound := by
  cases action with
  | loadPreset name =>
    cases stepped
    rw [ScenarioEngine.loadPreset]
    split
    · exact sound
    · rename_i scenario found
      refine ⟨{ sound.toPreset with active := ?_ }, (fun isIdle => nomatch isIdle), (fun isRunning => nomatch isRunning)⟩
      intro scenario' among
      cases among
      exact List.mem_of_find?_eq_some found
  | start =>
    cases stepped
    rw [ScenarioEngine.start]
    split
    · exact sound
    · rename_i scenario active
      refine ⟨{ sound.toPreset with rest := ?_ }, (fun isIdle => nomatch isIdle), fun _ => ?_⟩
      · intro rest sleeps
        rcases List.mem_append.mp sleeps with former | new
        · exact sound.rest rest former
        · cases List.mem_singleton.mp new
      · exact Option.isSome_of_eq_some active
  | stop =>
    cases stepped
    exact sound.toPreset.stop
  | reset =>
    cases stepped
    have stopped := sound.toPreset.stop
    refine ⟨{ stopped.toPreset with active := ?_ }, fun _ => ?_, (fun isRunning => nomatch isRunning)⟩
    · exact fun _ among => nomatch among
    · exact (stopped.idle rfl).of_same rfl rfl rfl
  | wake task => exact sound.wake stepped

/-- An engine as it is made, beside a calm market. -/
def initial (simulator executionEngine : Bool) : ScenarioEngine where
  simulator := if simulator then some {} else none
  executionEngine := if executionEngine then some {} else none

theorem sound_initial (simulator executionEngine : Bool) : (initial simulator executionEngine).Sound := by
  have calm : (initial simulator executionEngine).Calm := by
    refine ⟨?_, ?_, rfl⟩
    · cases simulator <;> simp [initial]
    · cases executionEngine <;> simp [initial]
  refine ⟨⟨?_, ?_, ?_, ?_⟩, fun _ => calm, (fun isRunning => nomatch isRunning)⟩
  · exact fun _ among => nomatch among
  · exact fun _ sleeps => nomatch sleeps
  · exact fun regime among => .inl (calm.simulator regime among)
  · exact fun execution among => .inl (calm.executionEngine execution among)

theorem shares_of_known {phase : ScenarioPhase} (known : Known phase) :
    ∀ execution ∈ phase.execution, execution.Shares := by
  obtain ⟨scenario, among, own⟩ := known
  have each : ∀ scenario ∈ presets, ∀ phase ∈ scenario.phases, ∀ execution ∈ phase.execution, execution.Shares := by
    decide +kernel
  exact each scenario among phase own

/-- However starts, stops and the wakes of the tasks follow on each other: an idle engine has left the market calm, a
running one has its scenario, and what is in force is calm or from a phase of a preset, with shares of rejected and
partly filled orders that are no more than all of them. -/
theorem idle_is_calm (simulator executionEngine : Bool) (actions : List ScenarioAction) :
    ∀ s ∈ scenarioEngine.run (initial simulator executionEngine) actions,
      s.Sound ∧ ∀ execution ∈ s.executionEngine, execution.Shares := by
  intro s ran
  have sound : s.Sound := System.invariant_run (fun _ _ _ sound stepped => Sound.step sound stepped) ran
    (sound_initial simulator executionEngine)
  refine ⟨sound, ?_⟩
  intro execution there
  rcases sound.executionEngine execution there with rfl | ⟨phase, known, set⟩
  · decide +kernel
  · exact shares_of_known known execution set

/-- The crash has been started. -/
theorem crash_is_calm : ∃ s, scenarioEngine.run (initial true true) [.loadPreset "crash", .start] = some s ∧
    s.Sound ∧ ∀ execution ∈ s.executionEngine, execution.Shares :=
  ⟨_, rfl, idle_is_calm true true [.loadPreset "crash", .start] _ rfl⟩

/-! ## After a stop -/

/-- Nothing runs and the market is calm. -/
structure Stopped (s : ScenarioEngine) : Prop extends Calm s where
  not_running : s.state ≠ .running

theorem stopped_finish (s : ScenarioEngine) (k : ℕ) : (s.finish k).Stopped :=
  ⟨calm_resetParams s _, (fun isRunning => nomatch isRunning)⟩

theorem stopped_stop (s : ScenarioEngine) : s.stop.Stopped :=
  ⟨calm_resetParams s _, (fun isRunning => nomatch isRunning)⟩

theorem Stopped.of_same (stopped : s.Stopped) (simulator : s'.simulator = s.simulator)
    (executionEngine : s'.executionEngine = s.executionEngine) (phase : s'.currentPhase = s.currentPhase)
    (not_running : s'.state ≠ .running) : s'.Stopped :=
  ⟨stopped.toCalm.of_same simulator executionEngine phase, not_running⟩

theorem Stopped.runPhases (stopped : s.Stopped) (k : ℕ) (phases : List ScenarioPhase) :
    (s.runPhases k phases).Stopped := by
  cases phases with
  | nil => exact stopped_finish s k
  | cons phase rest =>
    rw [ScenarioEngine.runPhases, if_pos stopped.not_running]
    exact stopped_finish s k

theorem Stopped.step (stopped : s.Stopped) {action : ScenarioAction} (other : action ≠ .start)
    (stepped : scenarioEngine.step s action = some s') : s'.Stopped := by
  cases action with
  | loadPreset name =>
    cases stepped
    rw [ScenarioEngine.loadPreset]
    split
    · exact stopped
    · exact stopped.of_same rfl rfl rfl (fun isRunning => nomatch isRunning)
  | start => exact absurd rfl other
  | stop =>
    cases stepped
    exact stopped_stop s
  | reset =>
    cases stepped
    exact (stopped_stop s).of_same rfl rfl rfl (fun isRunning => nomatch isRunning)
  | wake task =>
    change s.wake task = some s' at stepped
    rw [ScenarioEngine.wake] at stepped
    split at stepped
    · cases stepped
    · cases stepped
    · cases stepped
      exact stopped.runPhases task _
    · split at stepped
      · cases stepped
        exact stopped.of_same rfl rfl rfl stopped.not_running
      · cases stepped
        exact stopped.runPhases task _

/-- From a stop on, whatever scenario ran and whichever tasks are left, the market stays calm until the next start. -/
theorem stopped_stays_calm {actions : List ScenarioAction} (unstarted : .start ∉ actions) {final : ScenarioEngine}
    (ran : scenarioEngine.run s (.stop :: actions) = some final) : final.Stopped := by
  have each : ∀ action ∈ actions, action ≠ .start := by
    rintro action among rfl
    exact unstarted among
  have along : scenarioEngine.Along (fun _ action => action ≠ .start) s.stop actions := System.along_of_forall each s.stop
  exact System.invariant_along (fun _ _ _ stopped other stepped => Stopped.step stopped other stepped) along ran
    (stopped_stop s)

/-- The first phase of a crash, while a task of an earlier scenario sleeps. -/
def shocked : ScenarioEngine where
  simulator := some ⟨-3, 3, 3 / 10⟩
  executionEngine := some ⟨5000, 3 / 20, 3 / 10, 20⟩
  state := .running
  activeScenario := presets[3]?
  currentPhase := presets[3]?.bind (·.phases[0]?)
  task := some 1
  tasks := [.sleeping [], .sleeping ((presets[3]?.map (·.phases.tail)).getD [])]

/-- The earlier task wakes after the stop, when another scenario is loaded. -/
theorem shocked_stays_stopped :
    scenarioEngine.run (initial true true)
      [.loadPreset "calm", .start, .wake 0, .loadPreset "crash", .start, .wake 1] = some shocked ∧
    ∃ final, scenarioEngine.run shocked [.stop, .loadPreset "bear", .wake 0] = some final ∧ final.Stopped := by
  have unstarted : ScenarioAction.start ∉ [.loadPreset "bear", .wake 0] := by decide
  have ran : scenarioEngine.run shocked [.stop, .loadPreset "bear", .wake 0] =
      some ((shocked.stop.loadPreset "bear").finish 0) := rfl
  exact ⟨rfl, _, ran, stopped_stays_calm unstarted ran⟩

end ScenarioEngine

end MiniHedge.MockExchange
