import MiniHedge.Orders.Conservation

/-! The runner of an algo order, and the engine that starts it again.

A runner goes over the slices of its order one after the other; a slice that
fails is logged and passed over. The tables outlive a stop of the process and
the runners do not. Beside them stands what the broker has accepted: the indices
of the slices, in the order in which it has.
-/

set_option autoImplicit false

namespace MiniHedge.Orders

open MiniHedge.Python MiniHedge.Library

structure ChildSlice where
  quantity : Decimal
  limitPrice : Option Decimal := none
  deriving DecidableEq, Repr

/-- What `start_algo` makes of a parent order, the same each time. -/
structure Algo where
  parentOrderId : UUID
  fundSlug : String
  slices : List ChildSlice
  isFillDriven : Bool
  deriving DecidableEq, Repr

def Algo.slice (algo : Algo) (i : Nat) : Slice where
  fundSlug := algo.fundSlug
  parentOrderId := algo.parentOrderId
  quantity := (algo.slices[i]?.map (·.quantity)).getD 0

/-- Where `_run` awaits; `done` is also a runner without a task. -/
inductive TaskStage where
  | created
  | waiting (i : Nat)
  | submitting (i : Nat) (stage : SliceStage)
  | done
  deriving DecidableEq

structure Runner where
  cancelled : Bool := false
  currentSliceIndex : Nat := 0
  pendingFillEvent : Bool := false
  task : TaskStage := .done
  deriving DecidableEq

/-- The broker takes the order in this turn. -/
def SliceStage.accepts (ack : Ack) : SliceStage → Bool
  | .submit _ => ack ≠ .rejected
  | _ => false

namespace Runner

def start (r : Runner) (resumeFrom : Nat) : Runner :=
  { r with currentSliceIndex := resumeFrom, task := .created }

/-- The task is cancelled and awaited; the flag is never taken back. -/
def cancel (r : Runner) : Runner :=
  { r with cancelled := true, pendingFillEvent := true, task := .done }

def onChildFilled (algo : Algo) (r : Runner) : Runner :=
  if algo.isFillDriven then { r with pendingFillEvent := true } else r

/-- The head of the loop, and what follows up to the next await. -/
def enter (algo : Algo) (r : Runner) (i : Nat) : Runner :=
  if i < algo.slices.length ∧ r.cancelled = false then
    if algo.isFillDriven ∧ 0 < i then { r with pendingFillEvent := false, task := .waiting i }
    else { r with task := .waiting i }
  else { r with task := .done }

/-- The slice is through or has failed; either way the next one is tried. -/
def next (algo : Algo) (r : Runner) (i : Nat) : Runner :=
  { r with currentSliceIndex := i + 1 }.enter algo (i + 1)

/-- A turn of the task, with the slice that the broker accepts in it. -/
def advance (algo : Algo) (w : World) (input : Input) (r : Runner) :
    Option (World × Runner × Option Nat) :=
  match r.task with
  | .created => some (w, r.enter algo r.currentSliceIndex, none)
  | .waiting i =>
    if algo.isFillDriven ∧ 0 < i ∧ r.pendingFillEvent = false then none
    else if r.cancelled then some (w, { r with task := .done }, none)
    else some (w, { r with task := .submitting i .readParent }, none)
  | .submitting i stage =>
    match (algo.slice i).advance w input stage with
    | some (w', stage') =>
      some (w', { r with task := .submitting i stage' },
        if stage.accepts input.ack then some i else none)
    | none => some (w, r.next algo i, none)
  | .done => none

/-- An exception out of `create_child_order`. -/
def submitFails (algo : Algo) (r : Runner) : Option Runner :=
  match r.task with
  | .submitting i _ => some (r.next algo i)
  | _ => none

/-- The wait for the fill of the slice before takes too long. -/
def timeout (algo : Algo) (r : Runner) : Option Runner :=
  match r.task with
  | .waiting i => if algo.isFillDriven ∧ 0 < i then some { r with task := .done } else none
  | _ => none

end Runner

def Schema.getWorkingParents (s : Schema) : List OrderRecord :=
  s.orders.filter fun o => o.isParent ∧ o.state = .working

/-- The tables, the runners in memory, and the slices that the broker has accepted. -/
structure Engine where
  world : World
  runners : List Runner := []
  submitted : List Nat := []

inductive EngineStep where
  | advance (k : Nat) (input : Input)
  | submitFails (k : Nat)
  | timeout (k : Nat)
  | childFilled (k : Nat)
  /-- Other calls have written the tables. -/
  | elsewhere (w : World)
  | recover (fundSlugs : List String)
  | crash

namespace Engine

variable (algo : Algo)

/-- `recover_active_algos`, as far as it concerns the order. -/
def recoverActiveAlgos (e : Engine) (fundSlugs : List String) : Engine :=
  let schema := e.world.schemas algo.fundSlug
  if algo.fundSlug ∈ fundSlugs ∧ ∃ o ∈ schema.getWorkingParents, o.id = algo.parentOrderId then
    let resumeFrom := (schema.getChildren algo.parentOrderId).length
    { e with runners := e.runners ++ [(({} : Runner).start 0).cancel.start resumeFrom] }
  else e

def step (e : Engine) : EngineStep → Option Engine
  | .advance k input => do
    let r ← e.runners[k]?
    let (world, r', accepted) ← r.advance algo e.world input
    return { world, runners := e.runners.set k r', submitted := e.submitted ++ accepted.toList }
  | .submitFails k => do
    let r' ← (← e.runners[k]?).submitFails algo
    return { e with runners := e.runners.set k r' }
  | .timeout k => do
    let r' ← (← e.runners[k]?).timeout algo
    return { e with runners := e.runners.set k r' }
  | .childFilled k => do
    let r ← e.runners[k]?
    return { e with runners := e.runners.set k (r.onChildFilled algo) }
  | .elsewhere w => some { e with world := w }
  | .recover fundSlugs => some (e.recoverActiveAlgos algo fundSlugs)
  | .crash => some { e with runners := [] }

def system : System Engine EngineStep where
  step := step algo

/-- The order is WORKING and its runner has been started. -/
def started (w : World) : Engine where
  world := w
  runners := [({} : Runner).start 0]

/-- Each slice is with the broker, once. -/
def Complete (e : Engine) : Prop := e.submitted = List.range algo.slices.length

instance (e : Engine) : Decidable (e.Complete algo) := inferInstanceAs (Decidable (_ = _))

def submittedQuantity (e : Engine) : Decimal :=
  (e.submitted.map fun i => (algo.slice i).quantity).sum

end Engine

theorem Algo.slices_quantity (algo : Algo) :
    ((List.range algo.slices.length).map fun i => (algo.slice i).quantity) =
      algo.slices.map (·.quantity) := by
  refine List.ext_getElem (by simp) fun i inside _ => ?_
  have bound : i < algo.slices.length := by simpa using inside
  simp [Algo.slice, List.getElem?_eq_getElem bound]

theorem Engine.Complete.quantity {algo : Algo} {e : Engine} (complete : e.Complete algo) :
    e.submittedQuantity algo = (algo.slices.map (·.quantity)).sum := by
  rw [Engine.submittedQuantity, complete, algo.slices_quantity]

/-! ## Runners that were cancelled -/

/-- A runner that submits nothing any more. -/
def Runner.Quiet (r : Runner) : Prop := r.cancelled = true ∧ (r.task = .created ∨ r.task = .done)

variable {algo : Algo} {w w' : World} {input : Input} {r r' : Runner} {accepted : Option Nat}

theorem Runner.Quiet.enter (quiet : r.cancelled = true) (i : Nat) : (r.enter algo i).Quiet := by
  have stopped : ¬ (i < algo.slices.length ∧ r.cancelled = false) := by simp [quiet]
  unfold Runner.enter
  rw [if_neg stopped]
  exact ⟨quiet, .inr rfl⟩

theorem Runner.Quiet.advance (quiet : r.Quiet)
    (advanced : r.advance algo w input = some (w', r', accepted)) : r'.Quiet ∧ accepted = none := by
  obtain ⟨cancelled, created | done⟩ := quiet
  · simp only [Runner.advance, created, Option.some.injEq, Prod.mk.injEq] at advanced
    obtain ⟨-, rfl, rfl⟩ := advanced
    exact ⟨Runner.Quiet.enter cancelled _, rfl⟩
  · simp [Runner.advance, done] at advanced

theorem Runner.Quiet.not_failing (quiet : r.Quiet) :
    r.submitFails algo = none ∧ r.timeout algo = none := by
  obtain ⟨-, created | done⟩ := quiet
  · simp [Runner.submitFails, Runner.timeout, created]
  · simp [Runner.submitFails, Runner.timeout, done]

theorem Runner.Quiet.onChildFilled (quiet : r.Quiet) : (r.onChildFilled algo).Quiet := by
  unfold Runner.onChildFilled
  split <;> exact quiet

/-- A recovery starts the runner that it has cancelled before. -/
theorem Runner.quiet_recovered (resumeFrom : Nat) :
    ((({} : Runner).start 0).cancel.start resumeFrom).Quiet :=
  ⟨rfl, .inl rfl⟩

/-! ## The first runner -/

/-- The broker has not answered yet. -/
def SliceStage.Ahead : SliceStage → Prop
  | .acknowledge _ _ | .filling _ _ | .returned _ | .raised _ => False
  | _ => True

theorem Slice.advance_ahead {s : Slice} {stage stage' : SliceStage}
    (advanced : s.advance w input stage = some (w', stage')) (ahead : stage'.Ahead) :
    stage.Ahead ∧ stage.accepts input.ack = false := by
  cases stage with
  | submit child =>
    cases advanced
    exact ahead.elim
  | acknowledge child ack =>
    cases ack <;> cases advanced <;> exact ahead.elim
  | filling f stage =>
    simp only [Slice.advance, Option.map_eq_some_iff, Prod.mk.injEq] at advanced
    obtain ⟨moved, -, -, rfl⟩ := advanced
    exact ahead.elim
  | returned child | raised exc => cases advanced
  | readParent | insert parent | refresh childId | approve child | rereadApproved childId
  | send child | rereadSent childId => exact ⟨trivial, rfl⟩

theorem SliceStage.ahead_of_accepts {stage : SliceStage} {ack : Ack}
    (accepts : stage.accepts ack = true) : stage.Ahead := by
  cases stage with
  | submit child => trivial
  | _ => simp [SliceStage.accepts] at accepts

/-- How far the slices go that the broker has accepted. -/
def Runner.Within (algo : Algo) (submitted : List Nat) (r : Runner) : Prop :=
  match r.task with
  | .created => submitted.Sublist (List.range r.currentSliceIndex) ∧
      r.currentSliceIndex ≤ algo.slices.length
  | .waiting i => submitted.Sublist (List.range i) ∧ i < algo.slices.length
  | .submitting i stage =>
    (stage.Ahead → submitted.Sublist (List.range i)) ∧
      submitted.Sublist (List.range (i + 1)) ∧ i < algo.slices.length
  | .done => submitted.Sublist (List.range algo.slices.length)

theorem sublist_range {submitted : List Nat} {i j : Nat} (within : submitted.Sublist (List.range i))
    (le : i ≤ j) : submitted.Sublist (List.range j) :=
  within.trans (List.range_sublist.mpr le)

theorem Runner.Within.submitted {submitted : List Nat} (within : r.Within algo submitted) :
    submitted.Sublist (List.range algo.slices.length) := by
  unfold Runner.Within at within
  split at within
  · exact sublist_range within.1 within.2
  · exact sublist_range within.1 (by omega)
  · exact sublist_range within.2.1 (by omega)
  · exact within

theorem Runner.within_enter {submitted : List Nat} {i : Nat}
    (within : submitted.Sublist (List.range i)) (le : i ≤ algo.slices.length) :
    (r.enter algo i).Within algo submitted := by
  unfold Runner.enter
  split
  · rename_i inside
    split <;> exact ⟨within, inside.1⟩
  · exact sublist_range within le

theorem Runner.Within.advance {submitted : List Nat} (within : r.Within algo submitted)
    (advanced : r.advance algo w input = some (w', r', accepted)) :
    r'.Within algo (submitted ++ accepted.toList) := by
  cases task : r.task with
  | created =>
    simp only [Runner.Within, task] at within
    simp only [Runner.advance, task, Option.some.injEq, Prod.mk.injEq] at advanced
    obtain ⟨-, rfl, rfl⟩ := advanced
    simpa using Runner.within_enter within.1 within.2
  | waiting i =>
    simp only [Runner.Within, task] at within
    simp only [Runner.advance, task] at advanced
    split at advanced
    · cases advanced
    · split at advanced <;> simp only [Option.some.injEq, Prod.mk.injEq] at advanced <;>
        obtain ⟨-, rfl, rfl⟩ := advanced <;> rw [Option.toList_none, List.append_nil]
      · exact sublist_range within.1 (by omega)
      · exact ⟨fun _ => within.1, sublist_range within.1 (by omega), within.2⟩
  | submitting i stage =>
    simp only [Runner.Within, task] at within
    obtain ⟨before, after, inside⟩ := within
    simp only [Runner.advance, task] at advanced
    split at advanced
    · rename_i next stage' moved
      simp only [Option.some.injEq, Prod.mk.injEq] at advanced
      obtain ⟨-, rfl, rfl⟩ := advanced
      refine ⟨fun ahead => ?_, ?_, inside⟩
      · obtain ⟨was, unaccepted⟩ := Slice.advance_ahead moved ahead
        simpa [unaccepted] using before was
      · split
        · rename_i accepts
          rw [List.range_succ]
          exact (before (SliceStage.ahead_of_accepts accepts)).append (List.Sublist.refl _)
        · simpa using after
    · simp only [Option.some.injEq, Prod.mk.injEq] at advanced
      obtain ⟨-, rfl, rfl⟩ := advanced
      rw [Option.toList_none, List.append_nil]
      exact Runner.within_enter after (by omega)
  | done => simp [Runner.advance, task] at advanced

theorem Runner.Within.submitFails {submitted : List Nat} (within : r.Within algo submitted)
    (failed : r.submitFails algo = some r') : r'.Within algo submitted := by
  cases task : r.task with
  | submitting i stage =>
    simp only [Runner.Within, task] at within
    simp only [Runner.submitFails, task, Option.some.injEq] at failed
    subst failed
    exact Runner.within_enter within.2.1 (by omega)
  | created | waiting i | done => simp [Runner.submitFails, task] at failed

theorem Runner.Within.timeout {submitted : List Nat} (within : r.Within algo submitted)
    (late : r.timeout algo = some r') : r'.Within algo submitted := by
  have all := within.submitted
  unfold Runner.timeout at late
  split at late
  · split at late
    · cases late
      exact all
    · cases late
  · cases late

theorem Runner.Within.onChildFilled {submitted : List Nat} (within : r.Within algo submitted) :
    (r.onChildFilled algo).Within algo submitted := by
  unfold Runner.onChildFilled
  split <;> exact within

/-! ## Runs of the engine -/

/-- Only the runner that was started with the order submits; those of a recovery
are quiet. -/
structure Engine.Ordered (algo : Algo) (e : Engine) : Prop where
  submitted : e.submitted.Sublist (List.range algo.slices.length)
  runners : ∀ k r, e.runners[k]? = some r → r.Quiet ∨ k = 0 ∧ r.Within algo e.submitted

theorem Engine.Ordered.set {e : Engine} (ordered : e.Ordered algo) {k : Nat}
    (found : e.runners[k]? = some r) {world : World}
    (kept : r.Quiet → r'.Quiet) (within : r.Within algo e.submitted → r'.Within algo e.submitted) :
    Engine.Ordered algo { e with world := world, runners := e.runners.set k r' } := by
  refine ⟨ordered.submitted, fun j q held => ?_⟩
  rw [List.getElem?_set] at held
  split at held
  · rename_i same
    subst same
    split at held
    · cases held
      exact (ordered.runners k r found).imp kept fun first => ⟨first.1, within first.2⟩
    · cases held
  · exact ordered.runners j q held

variable {e e' : Engine} {taken : EngineStep}

theorem Engine.Ordered.step (ordered : e.Ordered algo)
    (stepped : (Engine.system algo).step e taken = some e') : e'.Ordered algo := by
  cases taken with
  | advance k input =>
    simp only [Engine.system, Engine.step, Option.bind_eq_bind, Option.bind_eq_some_iff,
      Option.pure_def, Option.some.injEq] at stepped
    obtain ⟨r, found, ⟨world, r', accepted⟩, advanced, rfl⟩ := stepped
    -- only the first runner submits, and a runner that is recovered stays quiet
    by_cases quiet : r.Quiet
    · obtain ⟨kept, rfl⟩ := quiet.advance advanced
      have unchanged : e.submitted ++ (none : Option Nat).toList = e.submitted := by simp
      rw [unchanged]
      exact ordered.set found (fun _ => kept) fun within => by simpa using within.advance advanced
    · -- what it submits comes after all that it has submitted
      obtain ⟨rfl, within⟩ := (ordered.runners k r found).resolve_left quiet
      have grown := within.advance advanced
      refine ⟨grown.submitted, fun j q held => ?_⟩
      change (e.runners.set 0 r')[j]? = some q at held
      rw [List.getElem?_set] at held
      split at held
      · rename_i same
        subst same
        split at held
        · cases held
          exact .inr ⟨rfl, grown⟩
        · cases held
      · rename_i other
        exact .inl ((ordered.runners j q held).resolve_right fun first => other first.1.symm)
  | submitFails k =>
    simp only [Engine.system, Engine.step, Option.bind_eq_bind, Option.bind_eq_some_iff,
      Option.pure_def, Option.some.injEq] at stepped
    obtain ⟨r, found, r', failed, rfl⟩ := stepped
    refine ordered.set found (fun quiet => ?_) fun within => within.submitFails failed
    simp [quiet.not_failing.1] at failed
  | timeout k =>
    simp only [Engine.system, Engine.step, Option.bind_eq_bind, Option.bind_eq_some_iff,
      Option.pure_def, Option.some.injEq] at stepped
    obtain ⟨r, found, r', late, rfl⟩ := stepped
    refine ordered.set found (fun quiet => ?_) fun within => within.timeout late
    simp [quiet.not_failing.2] at late
  | childFilled k =>
    simp only [Engine.system, Engine.step, Option.bind_eq_bind, Option.bind_eq_some_iff,
      Option.pure_def, Option.some.injEq] at stepped
    obtain ⟨r, found, rfl⟩ := stepped
    exact ordered.set found Runner.Quiet.onChildFilled Runner.Within.onChildFilled
  | elsewhere w =>
    cases stepped
    exact ⟨ordered.submitted, ordered.runners⟩
  | recover fundSlugs =>
    cases stepped
    unfold Engine.recoverActiveAlgos
    dsimp only
    split
    · -- the runner that is recovered is put behind the others
      refine ⟨ordered.submitted, fun j q held => ?_⟩
      change (e.runners ++ [_])[j]? = some q at held
      rw [List.getElem?_append] at held
      split at held
      · exact ordered.runners j q held
      · rw [List.getElem?_singleton] at held
        split at held
        · cases held
          exact .inl (Runner.quiet_recovered _)
        · cases held
    · exact ordered
  | crash =>
    cases stepped
    exact ⟨ordered.submitted, fun j q held => by simp at held⟩

theorem Engine.ordered_started (algo : Algo) (w : World) : (Engine.started w).Ordered algo := by
  refine ⟨List.nil_sublist _, fun k r held => .inr ?_⟩
  simp only [Engine.started, List.getElem?_singleton] at held
  split at held
  · rename_i first
    cases held
    exact ⟨first, List.nil_sublist _, Nat.zero_le _⟩
  · cases held

/-- With quiet runners alone the broker gets nothing. -/
def Engine.Silent (submitted : List Nat) (e : Engine) : Prop :=
  (∀ r ∈ e.runners, r.Quiet) ∧ e.submitted = submitted

theorem Engine.Silent.set {submitted : List Nat} (silent : e.Silent submitted) {k : Nat}
    {world : World} (quiet : r'.Quiet) :
    Engine.Silent submitted { e with world := world, runners := e.runners.set k r' } := by
  refine ⟨fun q member => ?_, silent.2⟩
  rcases List.mem_or_eq_of_mem_set member with old | rfl
  · exact silent.1 q old
  · exact quiet

theorem Engine.Silent.step {submitted : List Nat} (silent : e.Silent submitted)
    (stepped : (Engine.system algo).step e taken = some e') : e'.Silent submitted := by
  have quiet : ∀ {k : Nat} {r : Runner}, e.runners[k]? = some r → r.Quiet :=
    fun found => silent.1 _ (List.mem_of_getElem? found)
  cases taken with
  | advance k input =>
    simp only [Engine.system, Engine.step, Option.bind_eq_bind, Option.bind_eq_some_iff,
      Option.pure_def, Option.some.injEq] at stepped
    obtain ⟨r, found, ⟨world, r', accepted⟩, advanced, rfl⟩ := stepped
    obtain ⟨kept, rfl⟩ := (quiet found).advance advanced
    have unchanged : e.submitted ++ (none : Option Nat).toList = e.submitted := by simp
    rw [unchanged]
    exact silent.set kept
  | submitFails k =>
    simp only [Engine.system, Engine.step, Option.bind_eq_bind, Option.bind_eq_some_iff,
      Option.pure_def, Option.some.injEq] at stepped
    obtain ⟨r, found, r', failed, rfl⟩ := stepped
    simp [(quiet found).not_failing.1] at failed
  | timeout k =>
    simp only [Engine.system, Engine.step, Option.bind_eq_bind, Option.bind_eq_some_iff,
      Option.pure_def, Option.some.injEq] at stepped
    obtain ⟨r, found, r', late, rfl⟩ := stepped
    simp [(quiet found).not_failing.2] at late
  | childFilled k =>
    simp only [Engine.system, Engine.step, Option.bind_eq_bind, Option.bind_eq_some_iff,
      Option.pure_def, Option.some.injEq] at stepped
    obtain ⟨r, found, rfl⟩ := stepped
    exact silent.set (quiet found).onChildFilled
  | elsewhere w =>
    cases stepped
    exact silent
  | recover fundSlugs =>
    cases stepped
    unfold Engine.recoverActiveAlgos
    dsimp only
    split
    · refine ⟨fun q member => ?_, silent.2⟩
      rcases List.mem_append.mp member with old | new
      · exact silent.1 q old
      · rw [List.mem_singleton.mp new]
        exact Runner.quiet_recovered _
    · exact silent
  | crash =>
    cases stepped
    refine ⟨fun q member => ?_, silent.2⟩
    cases member

theorem submitted_after_crash {stopped final : Engine} {after : List EngineStep}
    (ran : (Engine.system algo).run stopped (.crash :: after) = some final) :
    final.submitted = stopped.submitted := by
  have kept : ∀ e taken e', Engine.Silent stopped.submitted e →
      (Engine.system algo).step e taken = some e' → Engine.Silent stopped.submitted e' :=
    fun _ _ _ silent stepped => Engine.Silent.step silent stepped
  have silent : Engine.Silent stopped.submitted { stopped with runners := [] } := by
    refine ⟨fun q member => ?_, rfl⟩
    cases member
  have onward : (Engine.system algo).run { stopped with runners := [] } after = some final := ran
  exact (System.invariant_run kept onward silent).2

/-- No slice reaches the broker twice; and once the process has stopped, no further
slice reaches it, so that recovery is complete when nothing was left to recover. -/
theorem complete_iff_complete_when_stopped (algo : Algo) (w : World)
    {before after : List EngineStep} {stopped final : Engine}
    (first : (Engine.system algo).run (.started w) before = some stopped)
    (rest : (Engine.system algo).run stopped (.crash :: after) = some final) :
    final.submitted.Sublist (List.range algo.slices.length) ∧
      (final.Complete algo ↔ stopped.Complete algo) := by
  have kept : ∀ e taken e', Engine.Ordered algo e →
      (Engine.system algo).step e taken = some e' → Engine.Ordered algo e' :=
    fun _ _ _ ordered stepped => ordered.step stepped
  have ordered := System.invariant_run kept first (Engine.ordered_started algo w)
  refine ⟨(System.invariant_run kept rest ordered).submitted, ?_⟩
  rw [Engine.Complete, Engine.Complete, submitted_after_crash rest]

/-- An order over ten in two slices. -/
def twiceFive : Algo where
  parentOrderId := .ofNat 1
  fundSlug := "alpha"
  slices := [{ quantity := 5 }, { quantity := 5 }]
  isFillDriven := false

/-- Turns of the first runner, with new identifiers from `draw` on. -/
def turnsFrom (draw count : Nat) : List EngineStep :=
  (List.range count).map fun i =>
    .advance 0 { draw := .ofNat ((draw + i) % 2 ^ 64), now := 0 }

/-- The tables with the order as it starts to work. -/
def working : World := holding { anOrder .working with isParent := true }

/-- The process stops when both slices are with the broker. -/
theorem complete_of_stopped_at_the_end :
    ∃ final, (Engine.system twiceFive).run (.started working)
        (turnsFrom 100 23 ++ .crash :: .recover ["alpha"] :: turnsFrom 200 1) = some final ∧
      final.Complete twiceFive := by
  have ended : ((Engine.system twiceFive).run (.started working) (turnsFrom 100 23)).map
      (fun stopped => (decide (stopped.Complete twiceFive),
        ((Engine.system twiceFive).run stopped
          (.crash :: .recover ["alpha"] :: turnsFrom 200 1)).isSome)) = some (true, true) := by
    decide +kernel
  obtain ⟨stopped, first, values⟩ := Option.map_eq_some_iff.mp ended
  simp only [Prod.mk.injEq, decide_eq_true_eq] at values
  obtain ⟨final, rest⟩ := Option.isSome_iff_exists.mp values.2
  refine ⟨final, ?_, (complete_iff_complete_when_stopped twiceFive working first rest).2.mpr values.1⟩
  rw [System.run_append, first]
  exact rest

/-- The process stops between the slices: the order is recovered, and its runner
ends without the second slice. -/
theorem second_slice_lost :
    ∃ final, (Engine.system twiceFive).run (.started working)
        (turnsFrom 100 12 ++ .crash :: .recover ["alpha"] :: turnsFrom 200 1) = some final ∧
      final.runners.map (fun r => (r.currentSliceIndex, r.task)) = [(1, .done)] ∧
      final.submittedQuantity twiceFive = 5 ∧ ¬ final.Complete twiceFive := by
  have ran : ((Engine.system twiceFive).run (.started working)
      (turnsFrom 100 12 ++ .crash :: .recover ["alpha"] :: turnsFrom 200 1)).map (fun final =>
        (final.runners.map (fun r => (r.currentSliceIndex, r.task)),
          final.submittedQuantity twiceFive, decide (final.Complete twiceFive))) =
      some ([(1, .done)], 5, false) := by
    decide +kernel
  obtain ⟨final, reached, values⟩ := Option.map_eq_some_iff.mp ran
  simp only [Prod.mk.injEq, decide_eq_false_iff_not] at values
  exact ⟨final, reached, values⟩

end MiniHedge.Orders
