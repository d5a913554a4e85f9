import MiniHedge.Orders.AlgoRunner
import MiniHedge.Python.Decimal

/-! The runner of an iceberg among the fills of its children.

The runner clears an event and waits for it before each slice but the first, and
any fill of any child sets it. Each fill is recorded before it is announced to
the runner; both come at any time from the broker's taking of the child on, also
while its submission is still under way.
-/

set_option autoImplicit false

namespace MiniHedge.Orders

open MiniHedge.Python MiniHedge.Library

/-! ## The slices -/

namespace IcebergStrategy

def visible (totalQty : Decimal) (visibleQuantity : Option Decimal) : Decimal :=
  match visibleQuantity with
  | none => quantize 8 .halfEven (totalQty / 10)
  | some quantity => if quantity ≤ 0 then quantize 8 .halfEven (totalQty / 10) else quantity

/-- The loop of `compute_slices`, which does not end where nothing is visible. -/
def slices (visible : Decimal) : Nat → Decimal → Option (List ChildSlice)
  | 0, remaining => if 0 < remaining then none else some []
  | fuel + 1, remaining =>
    if 0 < remaining then
      let qty := min visible remaining
      (slices visible fuel (remaining - qty)).map fun rest => { quantity := qty } :: rest
    else some []

def computeSlices (fuel : Nat) (totalQty : Decimal) (visibleQuantity : Option Decimal) :
    Option (List ChildSlice) :=
  slices (visible totalQty visibleQuantity) fuel totalQty

theorem slices_none {visible remaining : Decimal} (hidden : visible ≤ 0) (left : 0 < remaining)
    (fuel : Nat) : slices visible fuel remaining = none := by
  induction fuel generalizing remaining with
  | zero => simp [slices, left]
  | succ fuel ih =>
    have grown : 0 < remaining - min visible remaining := by
      have small : min visible remaining ≤ 0 := (min_le_left _ _).trans hidden
      linarith
    simp [slices, left, ih grown]

/-- Every slice shows something. -/
theorem slices_positive {visible remaining : Decimal} {fuel : Nat} {result : List ChildSlice}
    (sliced : slices visible fuel remaining = some result) :
    ∀ slice ∈ result, 0 < slice.quantity := by
  induction fuel generalizing remaining result with
  | zero =>
    unfold slices at sliced
    split at sliced <;> cases sliced
    simp
  | succ fuel ih =>
    by_cases left : 0 < remaining
    · have shown : 0 < visible := by
        by_contra hidden
        rw [slices_none (not_lt.mp hidden) left] at sliced
        cases sliced
      simp only [slices, left, if_true, Option.map_eq_some_iff] at sliced
      obtain ⟨rest, later, rfl⟩ := sliced
      rw [List.forall_mem_cons]
      exact ⟨lt_min shown left, ih later⟩
    · simp only [slices, left, if_false, Option.some.injEq] at sliced
      subst sliced
      simp

end IcebergStrategy

/-! ## Children -/

/-- A child that the broker has been asked for: what it is over and how much of it
has been filled, and the fills that the runner has not been told of. -/
structure Child where
  slice : Nat
  quantity : Decimal
  filledQuantity : Decimal := 0
  unannounced : Nat := 0
  deriving DecidableEq, Repr

namespace Child

def Filled (c : Child) : Prop := c.quantity ≤ c.filledQuantity

/-- The runner has been told of every fill, too. -/
def Finished (c : Child) : Prop := c.Filled ∧ c.unannounced = 0

instance (c : Child) : Decidable c.Filled := inferInstanceAs (Decidable (_ ≤ _))

instance (c : Child) : Decidable c.Finished := inferInstanceAs (Decidable (_ ∧ _))

def fill (quantity : Decimal) (c : Child) : Child :=
  { c with filledQuantity := c.filledQuantity + quantity, unannounced := c.unannounced + 1 }

def announce (c : Child) : Child := { c with unannounced := c.unannounced - 1 }

end Child

/-- The slice that the broker is asked for in the next turn. -/
def Runner.asks (r : Runner) : Option Nat :=
  match r.task with
  | .submitting i (.submit _) => some i
  | _ => none

/-- Only the turn before the broker is asked has something to ask. -/
theorem Runner.asks_none {r : Runner} (silent : ∀ i c, r.task ≠ .submitting i (.submit c)) :
    r.asks = none := by
  unfold Runner.asks
  split
  · rename_i i c task
    exact absurd task (silent i c)
  · rfl

structure Iceberg where
  world : World
  runner : Runner
  children : List Child := []

inductive IcebergStep where
  | advance (input : Input)
  /-- `create_child_order` raises. -/
  | submitFails
  | timeout
  | cancel
  /-- `_process_fill` stores a fill of a child. -/
  | filled (k : Nat) (quantity : Decimal)
  /-- `on_child_filled`, at the end of `_process_fill`. -/
  | announced (k : Nat)
  /-- Other calls have written the tables. -/
  | elsewhere (w : World)

namespace Iceberg

variable (algo : Algo) (s : Iceberg)

def child (i : Nat) : Child := { slice := i, quantity := (algo.slice i).quantity }

def step : IcebergStep → Option Iceberg
  | .advance input => do
    let (world, runner, _) ← s.runner.advance algo s.world input
    return { world, runner, children := s.children ++ (s.runner.asks.map (child algo)).toList }
  | .submitFails => do
    let runner ← s.runner.submitFails algo
    return { s with runner }
  | .timeout => do
    let runner ← s.runner.timeout algo
    return { s with runner }
  | .cancel => some { s with runner := s.runner.cancel }
  | .filled k quantity => do
    let c ← s.children[k]?
    if 0 < quantity ∧ quantity ≤ c.quantity - c.filledQuantity then
      return { s with children := s.children.modify k (Child.fill quantity) }
    else none
  | .announced k => do
    let c ← s.children[k]?
    if 0 < c.unannounced then
      return { s with
        runner := s.runner.onChildFilled algo
        children := s.children.modify k Child.announce }
    else none
  | .elsewhere w => some { s with world := w }

def system : System Iceberg IcebergStep where
  step := step algo

/-- The runner of the order has been started. -/
def started (w : World) : Iceberg where
  world := w
  runner := ({} : Runner).start 0

end Iceberg

/-! ## What is shown -/

/-- A child is to be submitted, up to the turn that asks the broker. -/
def Runner.Submitting (r : Runner) : Prop := ∃ i stage, r.task = .submitting i stage ∧ stage.Ahead

/-- The runner waits for a fill, and nothing has woken it. -/
def Runner.Blocked (r : Runner) : Prop :=
  ∃ i, r.task = .waiting i ∧ 0 < i ∧ r.pendingFillEvent = false

namespace Iceberg

variable (algo : Algo) (s : Iceberg)

def AllFilled : Prop := ∀ c ∈ s.children, c.Filled

def AllFinished : Prop := ∀ c ∈ s.children, c.Finished

/-- Each child was submitted, and one that is to be submitted is, with all before
it filled. -/
def OneSlice : Prop :=
  (∀ c ∈ s.children.dropLast, c.Filled) ∧ (s.runner.Submitting → s.AllFilled)

/-- With every child filled, and the runner told so, it does not wait. -/
def NotStuck : Prop := s.AllFinished → ¬ s.runner.Blocked

/-- The broker has been asked for the slice. -/
def Asked (i : Nat) : Prop := i ∈ s.children.map (·.slice)

instance : Decidable s.AllFilled := inferInstanceAs (Decidable (∀ c ∈ _, _))

instance : Decidable s.AllFinished := inferInstanceAs (Decidable (∀ c ∈ _, _))

instance (i : Nat) : Decidable (s.Asked i) := inferInstanceAs (Decidable (_ ∈ _))

/-- The children once a fill of one of them is announced. -/
def announce (k : Nat) : Iceberg :=
  { s with children := s.children.modify k Child.announce }

/-- The runner goes on to another slice only after the broker has been asked for
this one. While it waits, only a fill that leaves nothing open is announced, and
while a slice with another behind it is submitted, the last one is not. -/
def Timely : IcebergStep → Prop
  | .advance input =>
    match s.runner.task with
    | .submitting i stage => ((algo.slice i).advance s.world input stage).isNone →
        i + 1 < algo.slices.length → s.Asked i
    | _ => True
  | .submitFails =>
    match s.runner.task with
    | .submitting i _ => i + 1 < algo.slices.length → s.Asked i
    | _ => True
  | .announced k =>
    match s.runner.task with
    | .waiting i => 0 < i → s.AllFilled
    | .submitting i _ => i + 1 < algo.slices.length → s.Asked i → ¬ (s.announce k).AllFinished
    | _ => True
  | _ => True

/-! ## The invariant -/

/-- What the children are like, by where the runner is. -/
structure Kept : Prop where
  shown : ∀ j c, s.children[j]? = some c → j + 1 < s.children.length → c.Filled
  created : s.runner.task = .created → s.children = [] ∧ s.runner.currentSliceIndex = 0
  waiting : ∀ i, s.runner.task = .waiting i → (∀ j, s.Asked j → j < i) ∧
    (0 < i → if s.runner.pendingFillEvent then s.AllFilled else ¬ s.AllFinished)
  submitting : ∀ i stage, s.runner.task = .submitting i stage →
    (stage.Ahead → s.AllFilled ∧ ∀ j, s.Asked j → j < i) ∧ (∀ j, s.Asked j → j < i + 1) ∧
      (i + 1 < algo.slices.length → s.Asked i → ¬ s.AllFinished)

variable {algo s}

/-! ## A change of one child -/

section Change

variable {s' : Iceberg} {k : Nat} {f : Child → Child}

theorem asked_modify (changed : s'.children = s.children.modify k f)
    (same : ∀ c, (f c).slice = c.slice) (i : Nat) : s'.Asked i ↔ s.Asked i := by
  have slices : s'.children.map (·.slice) = s.children.map (·.slice) := by
    rw [changed]
    apply List.ext_getElem?
    intro j
    rw [List.getElem?_map, List.getElem?_map, List.getElem?_modify]
    cases s.children[j]? with
    | none => rfl
    | some c =>
      refine congrArg some ?_
      split
      · exact same c
      · rfl
  rw [Asked, Asked, slices]

theorem mem_modify (changed : s'.children = s.children.modify k f) {j : Nat} {c : Child}
    (found : s'.children[j]? = some c) :
    ∃ old, s.children[j]? = some old ∧ (c = old ∨ c = f old) := by
  rw [changed, List.getElem?_modify, Option.map_eq_map, Option.map_eq_some_iff] at found
  obtain ⟨old, here, rfl⟩ := found
  refine ⟨old, here, ?_⟩
  split
  · exact .inr rfl
  · exact .inl rfl

theorem allFilled_modify (changed : s'.children = s.children.modify k f)
    (kept : ∀ c, c.Filled → (f c).Filled) (filled : s.AllFilled) : s'.AllFilled := by
  intro c member
  obtain ⟨j, here⟩ := List.getElem?_of_mem member
  obtain ⟨old, found, rfl | rfl⟩ := mem_modify changed here
  · exact filled c (List.mem_of_getElem? found)
  · exact kept old (filled old (List.mem_of_getElem? found))

theorem shown_modify (changed : s'.children = s.children.modify k f)
    (kept : ∀ c, c.Filled → (f c).Filled)
    (shown : ∀ j c, s.children[j]? = some c → j + 1 < s.children.length → c.Filled) :
    ∀ j c, s'.children[j]? = some c → j + 1 < s'.children.length → c.Filled := by
  intro j c here inside
  have length : s'.children.length = s.children.length := by rw [changed, List.length_modify]
  obtain ⟨old, found, rfl | rfl⟩ := mem_modify changed here
  · exact shown j c found (length ▸ inside)
  · exact kept old (shown j old found (length ▸ inside))

end Change

/-! ## One step -/

variable {s' : Iceberg}

/-- A fill fills its child further, and leaves it to be announced. -/
theorem Kept.filled {k : Nat} {quantity : Decimal} (kept : s.Kept algo)
    (stepped : s.step algo (.filled k quantity) = some s') : s'.Kept algo := by
  simp only [step, Option.bind_eq_bind, Option.bind_eq_some_iff, Option.pure_def] at stepped
  obtain ⟨c, found, stepped⟩ := stepped
  split at stepped
  · rename_i fits
    cases stepped
    have grows : ∀ c : Child, c.Filled → (c.fill quantity).Filled := by
      intro c filled
      have filled : c.quantity ≤ c.filledQuantity := filled
      change c.quantity ≤ c.filledQuantity + quantity
      linarith [fits.1]
    let s' : Iceberg := { s with children := s.children.modify k (Child.fill quantity) }
    have asked : ∀ i, s'.Asked i ↔ s.Asked i := asked_modify rfl fun _ => rfl
    have filled : s.AllFilled → s'.AllFilled := allFilled_modify rfl grows
    -- the new fill is still to be announced
    have left : ¬ s'.AllFinished := by
      intro finished
      have here : s'.children[k]? = some (c.fill quantity) := by simp [s', found]
      have told := (finished _ (List.mem_of_getElem? here)).2
      simp [Child.fill] at told
    refine ⟨shown_modify rfl grows kept.shown, fun task => ?_, fun i task => ?_, fun i stage task => ?_⟩
    · have none_yet := (kept.created task).1
      simp [none_yet] at found
    · obtain ⟨below, woken⟩ := kept.waiting i task
      refine ⟨fun j inside => below j ((asked j).mp inside), fun positive => ?_⟩
      have woken := woken positive
      split at woken
      · rename_i event
        exact (if_pos event).mpr (filled woken)
      · rename_i event
        exact (if_neg event).mpr left
    · obtain ⟨ahead, below, -⟩ := kept.submitting i stage task
      exact ⟨fun early => ⟨filled (ahead early).1, fun j inside => (ahead early).2 j ((asked j).mp inside)⟩,
        fun j inside => below j ((asked j).mp inside), fun _ _ => left⟩
  · cases stepped

/-- An announcement wakes the runner; it comes when nothing is open, or leaves something open. -/
theorem Kept.announced {k : Nat} (fillDriven : algo.isFillDriven = true) (kept : s.Kept algo)
    (timely : s.Timely algo (.announced k)) (stepped : s.step algo (.announced k) = some s') :
    s'.Kept algo := by
  simp only [step, Option.bind_eq_bind, Option.bind_eq_some_iff, Option.pure_def] at stepped
  obtain ⟨c, found, stepped⟩ := stepped
  split at stepped
  · cases stepped
    have woken : s.runner.onChildFilled algo = { s.runner with pendingFillEvent := true } := by
      simp [Runner.onChildFilled, fillDriven]
    rw [woken]
    let s' : Iceberg := { s with
      runner := { s.runner with pendingFillEvent := true }
      children := s.children.modify k Child.announce }
    have asked : ∀ i, s'.Asked i ↔ s.Asked i := asked_modify rfl fun _ => rfl
    have filled : s.AllFilled → s'.AllFilled := allFilled_modify rfl fun _ own => own
    refine ⟨shown_modify rfl (fun _ own => own) kept.shown, fun task => ?_, fun i task => ?_,
      fun i stage task => ?_⟩
    · have none_yet := (kept.created task).1
      simp [none_yet] at found
    · have task : s.runner.task = .waiting i := task
      refine ⟨fun j inside => (kept.waiting i task).1 j ((asked j).mp inside), fun positive => ?_⟩
      simp only [Timely, task] at timely
      exact (if_pos rfl).mpr (filled (timely positive))
    · have task : s.runner.task = .submitting i stage := task
      obtain ⟨ahead, below, -⟩ := kept.submitting i stage task
      simp only [Timely, task] at timely
      exact ⟨fun early => ⟨filled (ahead early).1, fun j inside => (ahead early).2 j ((asked j).mp inside)⟩,
        fun j inside => below j ((asked j).mp inside),
        fun further inside => timely further ((asked i).mp inside)⟩
  · cases stepped

/-- Where the runner is done nothing is asked of the children. -/
theorem Kept.done {w : World} {runner : Runner} (kept : s.Kept algo) (task : runner.task = .done) :
    Kept algo { s with world := w, runner } := by
  refine ⟨kept.shown, fun here => ?_, fun i here => ?_, fun i stage here => ?_⟩ <;>
    exact absurd (task.symm.trans here) (by simp)

theorem Kept.of_waiting {i : Nat} (task : s.runner.task = .waiting i)
    (shown : ∀ j c, s.children[j]? = some c → j + 1 < s.children.length → c.Filled)
    (below : ∀ j, s.Asked j → j < i)
    (woken : 0 < i → if s.runner.pendingFillEvent then s.AllFilled else ¬ s.AllFinished) :
    s.Kept algo := by
  refine ⟨shown, fun here => ?_, fun j here => ?_, fun j stage here => ?_⟩
  · exact absurd (task.symm.trans here) (by simp)
  · cases task.symm.trans here
    exact ⟨below, woken⟩
  · exact absurd (task.symm.trans here) (by simp)

theorem Kept.of_submitting {i : Nat} {stage : SliceStage}
    (task : s.runner.task = .submitting i stage)
    (shown : ∀ j c, s.children[j]? = some c → j + 1 < s.children.length → c.Filled)
    (ahead : stage.Ahead → s.AllFilled ∧ ∀ j, s.Asked j → j < i)
    (below : ∀ j, s.Asked j → j < i + 1)
    (left : i + 1 < algo.slices.length → s.Asked i → ¬ s.AllFinished) : s.Kept algo := by
  refine ⟨shown, fun here => ?_, fun j here => ?_, fun j stage here => ?_⟩
  · exact absurd (task.symm.trans here) (by simp)
  · exact absurd (task.symm.trans here) (by simp)
  · cases task.symm.trans here
    exact ⟨ahead, below, left⟩

/-- The runner goes on to the next slice with a child open. -/
theorem Kept.next {w : World} {i : Nat} {stage : SliceStage} (fillDriven : algo.isFillDriven = true)
    (kept : s.Kept algo) (task : s.runner.task = .submitting i stage)
    (asked : i + 1 < algo.slices.length → s.Asked i) :
    Kept algo { s with world := w, runner := s.runner.next algo i } := by
  obtain ⟨-, below, left⟩ := kept.submitting i stage task
  unfold Runner.next Runner.enter
  split
  · rename_i further
    rw [if_pos ⟨fillDriven, Nat.succ_pos i⟩]
    exact .of_waiting rfl kept.shown below fun _ => left further.1 (asked further.1)
  · exact kept.done rfl

/-- The turn that asks the broker adds an open child, and no other turn adds one. -/
theorem Kept.submitted {w w' : World} {i : Nat} {stage stage' : SliceStage} {input : Input}
    (positive : ∀ slice ∈ algo.slices, 0 < slice.quantity) (kept : s.Kept algo)
    (task : s.runner.task = .submitting i stage)
    (moved : (algo.slice i).advance w input stage = some (w', stage')) :
    Kept algo ⟨w', { s.runner with task := .submitting i stage' },
      s.children ++ (s.runner.asks.map (child algo)).toList⟩ := by
  obtain ⟨ahead, below, left⟩ := kept.submitting i stage task
  by_cases asks : ∃ c, stage = .submit c
  · obtain ⟨c, rfl⟩ := asks
    obtain ⟨filled, before⟩ := ahead trivial
    have children : s.children ++ (s.runner.asks.map (child algo)).toList =
        s.children ++ [child algo i] := by
      simp [Runner.asks, task]
    rw [children]
    cases moved
    refine .of_submitting rfl (fun j c here inside => ?_) (fun early => early.elim)
      (fun j inside => ?_) fun further _ finished => ?_
    · simp only [List.length_append, List.length_singleton, Nat.add_lt_add_iff_right] at inside
      rw [List.getElem?_append_left inside] at here
      exact filled c (List.mem_of_getElem? here)
    · simp only [Asked, List.map_append, List.mem_append] at inside
      rcases inside with earlier | own
      · exact (before j earlier).trans (Nat.lt_succ_self i)
      · simp only [List.map_cons, List.map_nil, List.mem_singleton] at own
        exact own ▸ Nat.lt_succ_self i
    · -- the new child has no fill, and every slice shows something
      have shown : (algo.slice i).quantity ≤ 0 := (finished (child algo i) (by simp)).1
      have bound : i < algo.slices.length := by omega
      have above := positive _ (List.getElem_mem bound)
      simp only [Algo.slice, List.getElem?_eq_getElem bound, Option.map_some, Option.getD_some]
        at shown
      linarith
  · have silent : s.runner.asks = none := by
      refine Runner.asks_none fun j c here => asks ⟨c, ?_⟩
      cases task.symm.trans here
      rfl
    rw [silent, Option.map_none, Option.toList_none, List.append_nil]
    exact .of_submitting rfl kept.shown
      (fun early => ahead (Slice.advance_ahead moved early).1) below left

theorem Kept.advance {input : Input} (fillDriven : algo.isFillDriven = true)
    (positive : ∀ slice ∈ algo.slices, 0 < slice.quantity) (kept : s.Kept algo)
    (timely : s.Timely algo (.advance input)) (stepped : s.step algo (.advance input) = some s') :
    s'.Kept algo := by
  simp only [step, Option.bind_eq_bind, Option.bind_eq_some_iff, Option.pure_def,
    Option.some.injEq] at stepped
  obtain ⟨⟨world, runner, accepted⟩, advanced, rfl⟩ := stepped
  cases task : s.runner.task with
  | created =>
    obtain ⟨none_yet, first⟩ := kept.created task
    simp only [Runner.advance, task, Option.some.injEq, Prod.mk.injEq] at advanced
    obtain ⟨rfl, rfl, -⟩ := advanced
    have silent : s.runner.asks = none := Runner.asks_none (by simp [task])
    rw [silent, Option.map_none, Option.toList_none, List.append_nil, first]
    unfold Runner.enter
    split
    · -- the first slice waits for nothing, and the event is not cleared
      rw [if_neg (by simp)]
      exact .of_waiting rfl kept.shown (fun j inside => by simp [Asked, none_yet] at inside)
        fun later => absurd later (lt_irrefl 0)
    · exact kept.done rfl
  | waiting i =>
    obtain ⟨below, woken⟩ := kept.waiting i task
    have silent : s.runner.asks = none := Runner.asks_none (by simp [task])
    rw [silent, Option.map_none, Option.toList_none, List.append_nil]
    simp only [Runner.advance, task] at advanced
    split at advanced
    · cases advanced
    · rename_i free
      split at advanced
      · cases advanced
        exact kept.done rfl
      · cases advanced
        refine .of_submitting rfl kept.shown (fun _ => ⟨?_, below⟩)
          (fun j inside => (below j inside).trans (Nat.lt_succ_self i))
          fun _ own => absurd (below i own) (lt_irrefl i)
        -- the first child has none before it; any other was waited for
        rcases Nat.eq_zero_or_pos i with rfl | later
        · intro c member
          exact absurd (below c.slice (List.mem_map_of_mem member)) (Nat.not_lt_zero _)
        · have event : s.runner.pendingFillEvent = true := by
            by_contra unset
            exact free ⟨fillDriven, later, by simpa using unset⟩
          exact (if_pos event).mp (woken later)
  | submitting i stage =>
    simp only [Timely, task] at timely
    simp only [Runner.advance, task] at advanced
    split at advanced
    · rename_i next stage' moved
      cases advanced
      exact kept.submitted positive task moved
    · rename_i ended
      cases advanced
      have silent : s.runner.asks = none := by
        refine Runner.asks_none fun j c here => ?_
        cases task.symm.trans here
        cases ended
      rw [silent, Option.map_none, Option.toList_none, List.append_nil]
      exact kept.next fillDriven task (timely (by rw [ended]; rfl))
  | done => simp [Runner.advance, task] at advanced

theorem Kept.step {label : IcebergStep} (fillDriven : algo.isFillDriven = true)
    (positive : ∀ slice ∈ algo.slices, 0 < slice.quantity) (kept : s.Kept algo)
    (timely : s.Timely algo label) (stepped : (system algo).step s label = some s') :
    s'.Kept algo := by
  cases label with
  | advance input => exact kept.advance fillDriven positive timely stepped
  | submitFails =>
    simp only [system, Iceberg.step, Option.bind_eq_bind, Option.bind_eq_some_iff, Option.pure_def,
      Option.some.injEq] at stepped
    obtain ⟨runner, failed, rfl⟩ := stepped
    unfold Runner.submitFails at failed
    split at failed
    · rename_i i stage task
      cases failed
      simp only [Timely, task] at timely
      exact kept.next fillDriven task timely
    · cases failed
  | timeout =>
    simp only [system, Iceberg.step, Option.bind_eq_bind, Option.bind_eq_some_iff, Option.pure_def,
      Option.some.injEq] at stepped
    obtain ⟨runner, late, rfl⟩ := stepped
    unfold Runner.timeout at late
    split at late
    · split at late
      · cases late
        exact kept.done rfl
      · cases late
    · cases late
  | cancel =>
    cases stepped
    exact kept.done rfl
  | filled k quantity => exact kept.filled stepped
  | announced k => exact kept.announced fillDriven timely stepped
  | elsewhere w =>
    cases stepped
    exact ⟨kept.shown, kept.created, kept.waiting, kept.submitting⟩

theorem kept_started (algo : Algo) (w : World) : (started w).Kept algo := by
  refine ⟨fun j c here => ?_, fun _ => ⟨rfl, rfl⟩, fun i here => ?_, fun i stage here => ?_⟩
  · simp [started] at here
  · cases here
  · cases here

theorem Kept.oneSlice (kept : s.Kept algo) : s.OneSlice := by
  constructor
  · intro c member
    obtain ⟨j, here⟩ := List.getElem?_of_mem member
    rw [List.getElem?_dropLast] at here
    split at here
    · exact kept.shown j c here (by omega)
    · cases here
  · rintro ⟨i, stage, task, ahead⟩
    exact ((kept.submitting i stage task).1 ahead).1

theorem Kept.notStuck (kept : s.Kept algo) : s.NotStuck := by
  rintro finished ⟨i, task, later, event⟩
  have left := (kept.waiting i task).2 later
  rw [if_neg (by simp [event])] at left
  exact left finished

/-- In every run whose steps are timely one slice is shown, and the runner of it
does not wait for what it has been told. -/
theorem oneSlice_notStuck {fuel : Nat} {totalQty : Decimal} {visibleQuantity : Option Decimal}
    {w : World} {labels : List IcebergStep} {final : Iceberg} (fillDriven : algo.isFillDriven = true)
    (sliced : IcebergStrategy.computeSlices fuel totalQty visibleQuantity = some algo.slices)
    (along : (system algo).Along (Timely algo) (started w) labels)
    (ran : (system algo).run (started w) labels = some final) :
    final.OneSlice ∧ final.NotStuck := by
  have positive := IcebergStrategy.slices_positive sliced
  have kept := System.invariant_along
    (fun _ _ _ kept timely stepped => Kept.step fillDriven positive kept timely stepped) along ran
    (kept_started algo w)
  exact ⟨kept.oneSlice, kept.notStuck⟩

/-! ## Ten shares, five of them visible -/

instance : (label : IcebergStep) → Decidable (s.Timely algo label)
  | .advance input =>
    match task : s.runner.task with
    | .submitting i stage =>
      decidable_of_iff (((algo.slice i).advance s.world input stage).isNone →
        i + 1 < algo.slices.length → s.Asked i) (by simp [Timely, task])
    | .created | .waiting _ | .done => isTrue (by simp [Timely, task])
  | .submitFails =>
    match task : s.runner.task with
    | .submitting i _ =>
      decidable_of_iff (i + 1 < algo.slices.length → s.Asked i) (by simp [Timely, task])
    | .created | .waiting _ | .done => isTrue (by simp [Timely, task])
  | .announced k =>
    match task : s.runner.task with
    | .waiting i => decidable_of_iff (0 < i → s.AllFilled) (by simp [Timely, task])
    | .submitting i _ =>
      decidable_of_iff (i + 1 < algo.slices.length → s.Asked i → ¬ (s.announce k).AllFinished)
        (by simp [Timely, task])
    | .created | .done => isTrue (by simp [Timely, task])
  | .timeout | .cancel | .filled .. | .elsewhere _ => isTrue trivial

def fiveOfTen : Algo := { twiceFive with isFillDriven := true }

def turns (draw count : Nat) : List IcebergStep :=
  (List.range count).map fun i => .advance { draw := .ofNat ((draw + i) % 2 ^ 64), now := 0 }

/-- The first child is filled in two parts before the runner is told of either. -/
def filledWhileWaiting : List IcebergStep :=
  turns 100 12 ++ [.filled 0 2, .filled 0 3, .announced 0] ++ turns 200 1 ++ [.announced 0] ++
    turns 300 10

theorem filledWhileWaiting_shown :
    ∃ final, (system fiveOfTen).run (started working) filledWhileWaiting = some final ∧
      final.children.length = 2 ∧ final.OneSlice ∧ final.NotStuck := by
  have reached : ((system fiveOfTen).run (started working) filledWhileWaiting).map
      (fun final => final.children.length) = some 2 := by decide +kernel
  obtain ⟨final, ran, both⟩ := Option.map_eq_some_iff.mp reached
  have sliced : IcebergStrategy.computeSlices 3 10 (some 5) = some fiveOfTen.slices := by
    decide +kernel
  exact ⟨final, ran, both, oneSlice_notStuck rfl sliced (by decide +kernel) ran⟩

/-- A part of the first child wakes the runner; and the whole of it, filled while
it is being submitted, is forgotten when the runner comes to wait for it. -/
theorem early_and_lost :
    (∃ final, (system fiveOfTen).run (started working)
        (turns 100 12 ++ [.filled 0 2, .announced 0] ++ turns 200 10) = some final ∧
      ¬ final.OneSlice) ∧
    ∃ final, (system fiveOfTen).run (started working)
        (turns 100 10 ++ [.filled 0 5, .announced 0] ++ turns 200 2) = some final ∧
      ¬ final.NotStuck := by
  have early : ((system fiveOfTen).run (started working)
      (turns 100 12 ++ [.filled 0 2, .announced 0] ++ turns 200 10)).map
        (fun final => decide (∀ c ∈ final.children.dropLast, c.Filled)) = some false := by
    decide +kernel
  have lost : ((system fiveOfTen).run (started working)
      (turns 100 10 ++ [.filled 0 5, .announced 0] ++ turns 200 2)).map
        (fun final => (decide final.AllFinished, final.runner.task, final.runner.pendingFillEvent)) =
      some (true, .waiting 1, false) := by
    decide +kernel
  obtain ⟨final, ran, shown⟩ := Option.map_eq_some_iff.mp early
  obtain ⟨stuck, ran', values⟩ := Option.map_eq_some_iff.mp lost
  simp only [Prod.mk.injEq, decide_eq_true_eq] at values
  obtain ⟨finished, task, event⟩ := values
  refine ⟨⟨final, ran, fun one => of_decide_eq_false shown one.1⟩, stuck, ran', fun free => ?_⟩
  exact free finished ⟨1, task, Nat.one_pos, event⟩

end Iceberg

end MiniHedge.Orders
