import MiniHedge.Library.Transition
import Mathlib.Algebra.BigOperators.Group.List.Basic
import Mathlib.Data.List.Pairwise
import Mathlib.Tactic.Abel

/-! Processes that take turns on one shared state.

A step lets one process advance, given what the others hold at that moment, so
that waiting for another process is a step that is not enabled. An invariant
has a part about the shared state, one about each process, and a symmetric one
about each two of them; `step_keeps` reduces it to the process that advances.
-/

set_option autoImplicit false

namespace MiniHedge.Library

structure Processes (Shared Process Input : Type) where
  advance : Shared → List Process → Process → Input → Option (Shared × Process)

namespace Processes

structure State (Shared Process : Type) where
  shared : Shared
  processes : List Process
  deriving DecidableEq, Repr

structure Turn (Input : Type) where
  index : Nat
  input : Input
  deriving DecidableEq, Repr

variable {Shared Process Input : Type} (P : Processes Shared Process Input)

def system : System (State Shared Process) (Turn Input) where
  step s turn := do
    let p ← s.processes[turn.index]?
    let (shared, next) ← P.advance s.shared (s.processes.eraseIdx turn.index) p turn.input
    return ⟨shared, s.processes.set turn.index next⟩

/-- A condition on the process whose turn it is, given the others. -/
def When (condition : Shared → List Process → Process → Input → Prop) (s : State Shared Process)
    (turn : Turn Input) : Prop :=
  ∀ p ∈ s.processes[turn.index]?,
    condition s.shared (s.processes.eraseIdx turn.index) p turn.input

instance (condition : Shared → List Process → Process → Input → Prop)
    [∀ shared others p input, Decidable (condition shared others p input)]
    (s : State Shared Process) (turn : Turn Input) : Decidable (When condition s turn) :=
  match found : s.processes[turn.index]? with
  | none => isTrue (by simp [When, found])
  | some p =>
    decidable_of_iff (condition s.shared (s.processes.eraseIdx turn.index) p turn.input)
      (by simp [When, found])

theorem step_cases {s next : State Shared Process} {turn : Turn Input}
    (stepped : P.system.step s turn = some next) :
    ∃ before p after shared p', s.processes = before ++ p :: after ∧
      s.processes[turn.index]? = some p ∧ s.processes.eraseIdx turn.index = before ++ after ∧
      P.advance s.shared (before ++ after) p turn.input = some (shared, p') ∧
      next = ⟨shared, before ++ p' :: after⟩ := by
  simp only [system, Option.bind_eq_bind, Option.bind_eq_some_iff, Option.pure_def,
    Option.some.injEq] at stepped
  obtain ⟨p, found, ⟨shared, p'⟩, advanced, rfl⟩ := stepped
  obtain ⟨inside, rfl⟩ := List.getElem?_eq_some_iff.mp found
  refine ⟨s.processes.take turn.index, _, s.processes.drop (turn.index + 1), shared, p', ?_, found,
    List.eraseIdx_eq_take_drop_succ _ _, ?_, ?_⟩
  · rw [List.getElem_cons_drop, List.take_append_drop]
  · rwa [← List.eraseIdx_eq_take_drop_succ]
  · rw [List.set_eq_take_append_cons_drop, if_pos inside]

/-- A process that runs alone. -/
theorem step_single (s : Shared) (p : Process) (input : Input) :
    P.system.step ⟨s, [p]⟩ ⟨0, input⟩ =
      (P.advance s [] p input).map fun moved => ⟨moved.1, [moved.2]⟩ := by
  cases advanced : P.advance s [] p input <;> simp [system, advanced]

theorem run_single {s s' : Shared} {p p' : Process} {input : Input} {turns : List (Turn Input)}
    {final : State Shared Process} (advanced : P.advance s [] p input = some (s', p'))
    (ran : P.system.run ⟨s', [p']⟩ turns = some final) :
    P.system.run ⟨s, [p]⟩ (⟨0, input⟩ :: turns) = some final := by
  rw [System.run_cons, step_single, advanced]
  exact ran

/-! ## One process on its own -/

/-- The process takes turns with one input until it is done, or `limit` turns. -/
def alone : Nat → Shared → Process → Input → Shared × Process
  | 0, s, p, _ => (s, p)
  | limit + 1, s, p, input =>
    match P.advance s [] p input with
    | none => (s, p)
    | some (s', p') => alone limit s' p' input

variable {P} in
theorem alone_done {s : Shared} {p : Process} {input : Input}
    (done : P.advance s [] p input = none) (limit : Nat) : P.alone limit s p input = (s, p) := by
  cases limit with
  | zero => rfl
  | succ limit => simp [alone, done]

variable {P} in
theorem alone_step {s s' : Shared} {p p' : Process} {input : Input}
    (advanced : P.advance s [] p input = some (s', p')) (limit : Nat) :
    P.alone (limit + 1) s p input = P.alone limit s' p' input := by
  simp [alone, advanced]

variable {P} in
theorem alone_invariant {Inv : Shared → Process → Prop} {input : Input}
    (kept : ∀ s p s' p', Inv s p → P.advance s [] p input = some (s', p') → Inv s' p')
    {s : Shared} {p : Process} (initial : Inv s p) (limit : Nat) :
    Inv (P.alone limit s p input).1 (P.alone limit s p input).2 := by
  induction limit generalizing s p with
  | zero => exact initial
  | succ limit ih =>
    cases advanced : P.advance s [] p input with
    | none =>
      rw [alone_done advanced]
      exact initial
    | some moved =>
      rw [alone_step advanced]
      exact ih (kept s p _ _ initial advanced)

variable {P} in
/-- With a measure that every turn lowers, the process is done. -/
theorem alone_complete {own : Process → Prop} {measure : Process → Nat} {input : Input}
    (lowered : ∀ s p s' p', own p → P.advance s [] p input = some (s', p') →
      own p' ∧ measure p' < measure p)
    {p : Process} {limit : Nat} (held : own p) (enough : measure p ≤ limit) (s : Shared) :
    own (P.alone limit s p input).2 ∧
      P.advance (P.alone limit s p input).1 [] (P.alone limit s p input).2 input = none := by
  induction limit generalizing p s with
  | zero =>
    refine ⟨held, ?_⟩
    cases advanced : P.advance s [] p input with
    | none => exact advanced
    | some moved =>
      have lower := (lowered s p _ _ held advanced).2
      omega
  | succ limit ih =>
    cases advanced : P.advance s [] p input with
    | none =>
      rw [alone_done advanced]
      exact ⟨held, advanced⟩
    | some moved =>
      obtain ⟨kept, lower⟩ := lowered s p _ _ held advanced
      rw [alone_step advanced]
      exact ih kept (by omega) moved.1

/-! ## Invariants -/

/-- The three parts of an invariant. -/
structure Holds (shared : Shared → Prop) (each : Shared → Process → Prop)
    (both : Process → Process → Prop) (s : State Shared Process) : Prop where
  shared : shared s.shared
  each : ∀ p ∈ s.processes, each s.shared p
  both : s.processes.Pairwise both

variable {P} {shared : Shared → Prop} {each : Shared → Process → Prop}
  {both : Process → Process → Prop}

theorem step_keeps {condition : Shared → List Process → Process → Input → Prop}
    (symmetric : ∀ p q, both p q → both q p)
    (kept : ∀ (s s' : Shared) (others : List Process) (p p' : Process) (input : Input), shared s →
      each s p → (∀ q ∈ others, each s q ∧ both p q) → condition s others p input →
      P.advance s others p input = some (s', p') →
      shared s' ∧ each s' p' ∧ ∀ q ∈ others, each s' q ∧ both p' q)
    {s next : State Shared Process} {turn : Turn Input} (holds : Holds shared each both s)
    (met : When condition s turn) (stepped : P.system.step s turn = some next) :
    Holds shared each both next := by
  obtain ⟨before, p, after, s', p', split, found, rest, advanced, rfl⟩ := P.step_cases stepped
  have member : ∀ q ∈ before ++ after, q ∈ s.processes := by
    intro q inside
    rw [split]
    rcases List.mem_append.mp inside with left | right
    · exact List.mem_append_left _ left
    · exact List.mem_append_right _ (List.mem_cons_of_mem p right)
  have symm : ∀ {a b : Process}, both a b → both b a := fun {a b} => symmetric a b
  have apart := holds.both
  rw [split, List.pairwise_middle symm, List.pairwise_cons] at apart
  have own : p ∈ s.processes := by simp [split]
  obtain ⟨sharedKept, ownKept, othersKept⟩ := kept s.shared s' (before ++ after) p p' turn.input
    holds.shared (holds.each p own)
    (fun q inside => ⟨holds.each q (member q inside), apart.1 q inside⟩) (rest ▸ met p found)
    advanced
  refine ⟨sharedKept, fun q inside => ?_, ?_⟩
  · rcases List.mem_append.mp inside with left | right
    · exact (othersKept q (List.mem_append_left _ left)).1
    · rcases List.mem_cons.mp right with rfl | right
      · exact ownKept
      · exact (othersKept q (List.mem_append_right _ right)).1
  · change (before ++ p' :: after).Pairwise both
    rw [List.pairwise_middle symm, List.pairwise_cons]
    exact ⟨fun q inside => (othersKept q inside).2, apart.2⟩

/-- A property of each process on its own. -/
theorem step_each {own : Process → Prop}
    (kept : ∀ (s s' : Shared) (others : List Process) (p p' : Process) (input : Input), own p →
      P.advance s others p input = some (s', p') → own p')
    {s next : State Shared Process} {turn : Turn Input} (holds : ∀ p ∈ s.processes, own p)
    (stepped : P.system.step s turn = some next) : ∀ p ∈ next.processes, own p := by
  obtain ⟨before, p, after, s', p', split, found, rest, advanced, rfl⟩ := P.step_cases stepped
  intro q member
  rcases List.mem_append.mp member with left | right
  · exact holds q (by simp [split, left])
  · rcases List.mem_cons.mp right with rfl | right
    · exact kept _ _ _ _ _ _ (holds p (by simp [split])) advanced
    · exact holds q (by simp [split, right])

/-- A quantity of the shared state and the shares of it that the processes still
hold: a step that takes as much from the one as from the other keeps the rest. -/
theorem step_balance {A : Type} [AddCommGroup A] {total : Shared → A} {weight : Process → A}
    {condition : Shared → List Process → Process → Input → Prop}
    (kept : ∀ (s s' : Shared) (others : List Process) (p p' : Process) (input : Input), shared s →
      each s p → condition s others p input → P.advance s others p input = some (s', p') →
      total s' - weight p' = total s - weight p)
    {s next : State Shared Process} {turn : Turn Input} (holds : Holds shared each both s)
    (met : When condition s turn) (stepped : P.system.step s turn = some next) :
    total next.shared - (next.processes.map weight).sum =
      total s.shared - (s.processes.map weight).sum := by
  obtain ⟨before, p, after, s', p', split, found, rest, advanced, rfl⟩ := P.step_cases stepped
  have own : p ∈ s.processes := by simp [split]
  have balanced := kept s.shared s' (before ++ after) p p' turn.input holds.shared
    (holds.each p own) (rest ▸ met p found) advanced
  rw [split, List.map_append, List.map_append, List.sum_append, List.sum_append, List.map_cons,
    List.map_cons, List.sum_cons, List.sum_cons]
  have moved : total s' = total s.shared - weight p + weight p' := by
    rw [← balanced, sub_add_cancel]
  rw [moved]
  abel

end Processes

end MiniHedge.Library
