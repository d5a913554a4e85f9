import Mathlib.Data.List.Basic

/-! Executable transition systems and the induction rules over their runs.

A step function answers `none` where a label is not enabled. A run takes its
labels in order, and `Along` says that each of its steps starts in a state that
meets a condition: an invariant kept only by such steps holds after such runs.
-/

set_option autoImplicit false

namespace MiniHedge.Library

structure System (State Label : Type) where
  step : State → Label → Option State

namespace System

variable {State Label : Type} (system : System State Label)

def run : State → List Label → Option State
  | s, [] => some s
  | s, label :: rest => (system.step s label).bind fun next => run next rest

@[simp] theorem run_nil (s : State) : system.run s [] = some s := rfl

@[simp] theorem run_cons (s : State) (label : Label) (rest : List Label) :
    system.run s (label :: rest) = (system.step s label).bind fun next => system.run next rest := rfl

theorem run_append (s : State) (first rest : List Label) :
    system.run s (first ++ rest) = (system.run s first).bind fun next => system.run next rest := by
  induction first generalizing s with
  | nil => rfl
  | cons label first ih =>
    cases stepped : system.step s label with
    | none => simp [stepped]
    | some next => simp [stepped, ih]

/-- Every step of the run is taken in a state that meets the condition. -/
def Along (condition : State → Label → Prop) : State → List Label → Prop
  | _, [] => True
  | s, label :: rest => condition s label ∧
      match system.step s label with
      | none => True
      | some next => Along condition next rest

instance Along.decidable (condition : State → Label → Prop)
    [∀ s label, Decidable (condition s label)] :
    (s : State) → (labels : List Label) → Decidable (system.Along condition s labels)
  | _, [] => isTrue trivial
  | s, label :: rest =>
    match h : system.step s label with
    | none => decidable_of_iff (condition s label) (by simp [Along, h])
    | some next =>
      haveI := Along.decidable condition next rest
      decidable_of_iff (condition s label ∧ system.Along condition next rest) (by simp [Along, h])

variable {system}

theorem Along.head {condition : State → Label → Prop} {s : State} {label : Label}
    {rest : List Label} (along : system.Along condition s (label :: rest)) : condition s label :=
  along.1

theorem Along.tail {condition : State → Label → Prop} {s next : State} {label : Label}
    {rest : List Label} (along : system.Along condition s (label :: rest))
    (stepped : system.step s label = some next) : system.Along condition next rest := by
  have continuation := along.2
  rw [stepped] at continuation
  exact continuation

/-- The rule for guarded invariants: what each conditioned step keeps, a
conditioned run keeps. -/
theorem invariant_along {condition : State → Label → Prop} {Inv : State → Prop}
    (kept : ∀ s label next, Inv s → condition s label → system.step s label = some next → Inv next)
    {s final : State} {labels : List Label} (along : system.Along condition s labels)
    (ran : system.run s labels = some final) (initial : Inv s) : Inv final := by
  induction labels generalizing s with
  | nil =>
    cases ran
    exact initial
  | cons label rest ih =>
    cases stepped : system.step s label with
    | none => simp [stepped] at ran
    | some next =>
      simp only [run_cons, stepped, Option.bind_some] at ran
      exact ih (along.tail stepped) ran (kept s label next initial along.head stepped)

theorem Along.append {condition : State → Label → Prop} {s middle : State}
    {first rest : List Label} (along : system.Along condition s (first ++ rest))
    (ran : system.run s first = some middle) : system.Along condition middle rest := by
  induction first generalizing s with
  | nil =>
    cases ran
    exact along
  | cons label first ih =>
    cases stepped : system.step s label with
    | none => simp [stepped] at ran
    | some next =>
      simp only [run_cons, stepped, Option.bind_some] at ran
      exact ih (along.tail stepped) ran

theorem Along.left {condition : State → Label → Prop} {s : State} {first rest : List Label}
    (along : system.Along condition s (first ++ rest)) : system.Along condition s first := by
  induction first generalizing s with
  | nil => trivial
  | cons label first ih =>
    refine ⟨along.head, ?_⟩
    split
    · trivial
    · rename_i next stepped
      exact ih (along.tail stepped)

theorem Along.and {first second : State → Label → Prop} {s : State} {labels : List Label}
    (left : system.Along first s labels) (right : system.Along second s labels) :
    system.Along (fun s label => first s label ∧ second s label) s labels := by
  induction labels generalizing s with
  | nil => trivial
  | cons label rest ih =>
    refine ⟨⟨left.head, right.head⟩, ?_⟩
    split
    · trivial
    · rename_i next stepped
      exact ih (left.tail stepped) (right.tail stepped)

/-- Under an invariant that the condition keeps, the condition of each step may
be replaced by what it implies. -/
theorem Along.imp {condition implied : State → Label → Prop} {Inv : State → Prop}
    (kept : ∀ s label next, Inv s → condition s label → system.step s label = some next → Inv next)
    (implies : ∀ s label, Inv s → condition s label → implied s label) {s : State}
    {labels : List Label} (along : system.Along condition s labels) (initial : Inv s) :
    system.Along implied s labels := by
  induction labels generalizing s with
  | nil => trivial
  | cons label rest ih =>
    refine ⟨implies s label initial along.head, ?_⟩
    split
    · trivial
    · rename_i next stepped
      exact ih (along.tail stepped) (kept s label next initial along.head stepped)

/-- Conditions that come to the same under an invariant of every step. -/
theorem along_iff {first second : State → Label → Prop} {Inv : State → Prop}
    (kept : ∀ s label next, Inv s → system.step s label = some next → Inv next)
    (same : ∀ s label, Inv s → (first s label ↔ second s label)) {s : State}
    (initial : Inv s) (labels : List Label) :
    system.Along first s labels ↔ system.Along second s labels :=
  ⟨fun along => along.imp (fun s label next inv _ stepped => kept s label next inv stepped)
      (fun s label inv => (same s label inv).mp) initial,
    fun along => along.imp (fun s label next inv _ stepped => kept s label next inv stepped)
      (fun s label inv => (same s label inv).mpr) initial⟩

theorem along_of_forall {condition : Label → Prop} {labels : List Label}
    (each : ∀ label ∈ labels, condition label) (s : State) :
    system.Along (fun _ label => condition label) s labels := by
  induction labels generalizing s with
  | nil => trivial
  | cons label rest ih =>
    refine ⟨each label List.mem_cons_self, ?_⟩
    split
    · trivial
    · exact ih (fun other later => each other (List.mem_cons_of_mem _ later)) _

theorem along_true (s : State) (labels : List Label) : system.Along (fun _ _ => True) s labels := by
  induction labels generalizing s with
  | nil => trivial
  | cons label rest ih =>
    refine ⟨trivial, ?_⟩
    split
    · trivial
    · exact ih _

theorem invariant_run {Inv : State → Prop}
    (kept : ∀ s label next, Inv s → system.step s label = some next → Inv next)
    {s final : State} {labels : List Label}
    (ran : system.run s labels = some final) (initial : Inv s) : Inv final :=
  invariant_along (fun s label next inv _ stepped => kept s label next inv stepped)
    (along_true s labels) ran initial

/-! ## Histories -/

variable (system) in
/-- The steps of a run: where each starts, its label, and where it ends. -/
def moments : State → List Label → List (State × Label × State)
  | _, [] => []
  | s, label :: rest =>
    match system.step s label with
    | none => []
    | some next => (s, label, next) :: moments next rest

/-- The rule for invariants that speak of the steps so far. -/
theorem invariant_history {Inv : List (State × Label × State) → State → Prop}
    (kept : ∀ past s label next, Inv past s → system.step s label = some next →
      Inv (past ++ [(s, label, next)]) next)
    {past : List (State × Label × State)} {s final : State} {labels : List Label}
    (ran : system.run s labels = some final) (initial : Inv past s) :
    Inv (past ++ system.moments s labels) final := by
  induction labels generalizing past s with
  | nil =>
    cases ran
    simpa [moments] using initial
  | cons label rest ih =>
    cases stepped : system.step s label with
    | none => simp [stepped] at ran
    | some next =>
      simp only [run_cons, stepped, Option.bind_some] at ran
      have later := ih ran (kept past s label next initial stepped)
      simpa [moments, stepped] using later

/-- Each step is taken from a state of which the invariant holds, after the steps before it. -/
theorem invariant_moments {Inv : List (State × Label × State) → State → Prop}
    (kept : ∀ past s label next, Inv past s → system.step s label = some next →
      Inv (past ++ [(s, label, next)]) next)
    {past : List (State × Label × State)} {s : State} {labels : List Label} (initial : Inv past s)
    {before after : List (State × Label × State)} {m : State × Label × State}
    (split : system.moments s labels = before ++ m :: after) :
    Inv (past ++ before) m.1 ∧ system.step m.1 m.2.1 = some m.2.2 := by
  induction labels generalizing past s before with
  | nil => simp [moments] at split
  | cons label rest ih =>
    cases stepped : system.step s label with
    | none => simp [moments, stepped] at split
    | some next =>
      simp only [moments, stepped] at split
      cases before with
      | nil =>
        obtain ⟨rfl, -⟩ := List.cons.inj split
        exact ⟨by rwa [List.append_nil], stepped⟩
      | cons first before =>
        obtain ⟨rfl, later⟩ := List.cons.inj split
        simpa using ih (kept past s label next initial stepped) later

theorem step_of_mem_moments {s : State} {labels : List Label} {m : State × Label × State}
    (member : m ∈ system.moments s labels) : system.step m.1 m.2.1 = some m.2.2 := by
  induction labels generalizing s with
  | nil => simp [moments] at member
  | cons label rest ih =>
    cases stepped : system.step s label with
    | none => simp [moments, stepped] at member
    | some next =>
      simp only [moments, stepped] at member
      rcases List.mem_cons.mp member with rfl | later
      · exact stepped
      · exact ih later

theorem label_of_mem_moments {s : State} {labels : List Label} {m : State × Label × State}
    (member : m ∈ system.moments s labels) : m.2.1 ∈ labels := by
  induction labels generalizing s with
  | nil => simp [moments] at member
  | cons label rest ih =>
    cases stepped : system.step s label with
    | none => simp [moments, stepped] at member
    | some next =>
      simp only [moments, stepped] at member
      rcases List.mem_cons.mp member with rfl | later
      · exact List.mem_cons_self
      · exact List.mem_cons_of_mem label (ih later)

/-- A run is along a condition that each of its steps meets. -/
theorem along_of_moments {condition : State → Label → Prop} {s final : State} {labels : List Label}
    (ran : system.run s labels = some final)
    (each : ∀ m ∈ system.moments s labels, condition m.1 m.2.1) :
    system.Along condition s labels := by
  induction labels generalizing s with
  | nil => trivial
  | cons label rest ih =>
    cases stepped : system.step s label with
    | none => simp [stepped] at ran
    | some next =>
      simp only [run_cons, stepped, Option.bind_some] at ran
      simp only [moments, stepped] at each
      refine ⟨each _ List.mem_cons_self, ?_⟩
      rw [stepped]
      exact ih ran fun m member => each m (List.mem_cons_of_mem _ member)

/-- Each step of a run along a condition that keeps an invariant. -/
theorem Along.moments {condition : State → Label → Prop} {Inv : State → Prop}
    (kept : ∀ s label next, Inv s → condition s label → system.step s label = some next → Inv next)
    {s : State} {labels : List Label} (along : system.Along condition s labels) (initial : Inv s)
    {m : State × Label × State} (member : m ∈ system.moments s labels) :
    Inv m.1 ∧ condition m.1 m.2.1 := by
  induction labels generalizing s with
  | nil => simp [System.moments] at member
  | cons label rest ih =>
    cases stepped : system.step s label with
    | none => simp [System.moments, stepped] at member
    | some next =>
      simp only [System.moments, stepped] at member
      rcases List.mem_cons.mp member with rfl | later
      · exact ⟨initial, along.head⟩
      · exact ih (along.tail stepped) (kept s label next initial along.head stepped) later

end System

end MiniHedge.Library
