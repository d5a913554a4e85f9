import Mathlib.Algebra.BigOperators.Group.List.Basic
import Mathlib.Algebra.GroupWithZero.Nat
import Mathlib.Algebra.Order.Ring.Rat
import Mathlib.Data.List.TakeWhile
import Mathlib.Order.Basic

/-! Offers in the order of their prices, and what a walk takes from them.

The levels of a ladder are a finite description of a line of units, the best one
first: `units` is that line, and a walk for `n` units takes the first `n` of it.
-/

set_option autoImplicit false

namespace MiniHedge.Library

section Levels

variable {P : Type}

/-- One by one, what is on offer. -/
def units (levels : List (P × ℕ)) : List P := levels.flatMap fun level => List.replicate level.2 level.1

@[simp] theorem units_nil : units ([] : List (P × ℕ)) = [] := rfl

@[simp] theorem units_cons (level : P × ℕ) (rest : List (P × ℕ)) :
    units (level :: rest) = List.replicate level.2 level.1 ++ units rest := rfl

@[simp] theorem length_units (levels : List (P × ℕ)) :
    (units levels).length = (levels.map Prod.snd).sum := by
  induction levels with
  | nil => rfl
  | cons level rest ih => rw [units_cons, List.length_append, List.length_replicate, ih]; rfl

theorem units_eq_nil {levels : List (P × ℕ)} (positive : ∀ level ∈ levels, 0 < level.2) :
    units levels = [] ↔ levels = [] := by
  cases levels with
  | nil => simp
  | cons level rest =>
    have first := positive level List.mem_cons_self
    simp [List.replicate_eq_nil_iff, first.ne']

theorem units_map {Q : Type} (f : P → Q) (levels : List (P × ℕ)) :
    units (levels.map fun level => (f level.1, level.2)) = (units levels).map f := by
  induction levels with
  | nil => rfl
  | cons level rest ih => simp [ih]

theorem filter_units (p : P → Bool) (levels : List (P × ℕ)) :
    (units levels).filter p = units (levels.filter fun level => p level.1) := by
  induction levels with
  | nil => rfl
  | cons level rest ih =>
    cases keeps : p level.1 <;> simp [keeps, ih]

theorem sum_units (levels : List (ℚ × ℕ)) :
    (units levels).sum = (levels.map fun level => level.1 * (level.2 : ℚ)).sum := by
  induction levels with
  | nil => rfl
  | cons level rest ih =>
    rw [units_cons, List.sum_append, List.sum_replicate, ih, nsmul_eq_mul, mul_comm, List.map_cons,
      List.sum_cons]

structure Walk (P : Type) where
  taken : List (P × ℕ)
  left : List (P × ℕ)
  deriving DecidableEq, Repr

/-- Take so many units level by level, up to the first price that stops the walk. -/
def walk (stops : P → Bool) : ℕ → List (P × ℕ) → Walk P
  | _, [] => ⟨[], []⟩
  | remaining, (price, available) :: rest =>
    if remaining = 0 ∨ stops price then ⟨[], (price, available) :: rest⟩
    else
      let filled := min remaining available
      let later := walk stops (remaining - filled) rest
      ⟨(price, filled) :: later.taken,
        if available - filled = 0 then later.left else (price, available - filled) :: later.left⟩

variable {stops : P → Bool}

theorem walk_nil (remaining : ℕ) : walk stops remaining ([] : List (P × ℕ)) = ⟨[], []⟩ := rfl

theorem walk_cons (remaining : ℕ) (level : P × ℕ) (rest : List (P × ℕ)) :
    walk stops remaining (level :: rest) =
      if remaining = 0 ∨ stops level.1 then ⟨[], level :: rest⟩
      else
        let filled := min remaining level.2
        let later := walk stops (remaining - filled) rest
        ⟨(level.1, filled) :: later.taken,
          if level.2 - filled = 0 then later.left else (level.1, level.2 - filled) :: later.left⟩ := rfl

theorem walk_zero (levels : List (P × ℕ)) : walk stops 0 levels = ⟨[], levels⟩ := by
  cases levels with
  | nil => rfl
  | cons level rest => simp [walk_cons]

/-- A walk takes the first units of those before the price at which it stops. -/
theorem units_taken (remaining : ℕ) (levels : List (P × ℕ)) :
    units (walk stops remaining levels).taken =
      (units (levels.takeWhile fun level => !stops level.1)).take remaining := by
  induction levels generalizing remaining with
  | nil => simp [walk_nil]
  | cons level rest ih =>
    obtain ⟨price, available⟩ := level
    by_cases stop : stops price
    · simp [walk_cons, stop]
    · by_cases done : remaining = 0
      · simp [walk_cons, done]
      · have going : ¬ (remaining = 0 ∨ stops price) := not_or.mpr ⟨done, stop⟩
        rw [walk_cons, if_neg going, List.takeWhile_cons, if_pos (by simp [stop])]
        simp only [units_cons, ih, List.take_append, List.take_replicate, List.length_replicate]
        congr 2
        omega

theorem taken_positive {remaining : ℕ} {levels : List (P × ℕ)}
    (positive : ∀ level ∈ levels, 0 < level.2) :
    ∀ level ∈ (walk stops remaining levels).taken, 0 < level.2 := by
  induction levels generalizing remaining with
  | nil => simp [walk_nil]
  | cons level rest ih =>
    have first := positive level List.mem_cons_self
    rw [walk_cons]
    split
    · simp
    · rename_i going
      intro other member
      rcases List.mem_cons.mp member with rfl | later
      · simp only [not_or] at going
        exact lt_min (Nat.pos_of_ne_zero going.1) first
      · exact ih (fun l inside => positive l (List.mem_cons_of_mem _ inside)) other later

variable (stops) in
/-- What is taken and what is left are what there was. -/
theorem length_units_walk (remaining : ℕ) (levels : List (P × ℕ)) :
    (units (walk stops remaining levels).taken).length + (units (walk stops remaining levels).left).length =
      (units levels).length := by
  induction levels generalizing remaining with
  | nil => rfl
  | cons level rest ih =>
    rw [walk_cons]
    split
    · simp
    · have later := ih (remaining - min remaining level.2)
      have part : min remaining level.2 ≤ level.2 := Nat.min_le_right _ _
      dsimp only
      split
      · rename_i all
        rw [units_cons, units_cons, List.length_append, List.length_append, List.length_replicate,
          List.length_replicate]
        omega
      · rw [units_cons, units_cons, units_cons, List.length_append, List.length_append, List.length_append,
          List.length_replicate, List.length_replicate, List.length_replicate]
        omega

variable (stops) in
/-- What is left keeps its prices, and at most its quantities. -/
theorem left_levels (remaining : ℕ) (levels : List (P × ℕ)) :
    (walk stops remaining levels).left.Sublist levels ∨
      ∃ level filled rest, filled < level.2 ∧ (level :: rest).Sublist levels ∧
        (walk stops remaining levels).left = (level.1, level.2 - filled) :: rest := by
  induction levels generalizing remaining with
  | nil => exact .inl (List.Sublist.refl [])
  | cons level rest ih =>
    rw [walk_cons]
    split
    · exact .inl (List.Sublist.refl _)
    · dsimp only
      split
      · rcases ih (remaining - min remaining level.2) with kept | ⟨other, filled, later, less, kept, left⟩
        · exact .inl (kept.cons level)
        · exact .inr ⟨other, filled, later, less, kept.cons level, left⟩
      · rename_i some_left
        have all : remaining - min remaining level.2 = 0 := by omega
        rw [all, walk_zero]
        exact .inr ⟨level, min remaining level.2, rest, by omega, List.Sublist.refl _, rfl⟩

/-- A walk leaves no price that was not there. -/
theorem keys_left (n : ℕ) (levels : List (P × ℕ)) :
    ((walk stops n levels).left.map (·.1)).Sublist (levels.map (·.1)) := by
  rcases left_levels stops n levels with kept | ⟨level, filled, rest, -, kept, left⟩
  · exact kept.map _
  · rw [left]
    exact kept.map (·.1)

end Levels

/-! ## Ladders -/

/-- Offers at different prices, the best price first, and none of them empty. -/
structure Ladder (P : Type) [LinearOrder P] where
  levels : List (P × ℕ)
  sorted : levels.Pairwise fun a b => a.1 < b.1
  positive : ∀ level ∈ levels, 0 < level.2

namespace Ladder

variable {P : Type} [LinearOrder P]

def empty : Ladder P := ⟨[], List.Pairwise.nil, by simp⟩

def insertLevel (price : P) (quantity : ℕ) : List (P × ℕ) → List (P × ℕ)
  | [] => [(price, quantity)]
  | level :: rest =>
    if price < level.1 then (price, quantity) :: level :: rest
    else if price = level.1 then (price, level.2 + quantity) :: rest
    else level :: insertLevel price quantity rest

theorem mem_insertLevel {price : P} {quantity : ℕ} {levels : List (P × ℕ)} {level : P × ℕ}
    (member : level ∈ insertLevel price quantity levels) :
    level.1 = price ∧ quantity ≤ level.2 ∨ level ∈ levels := by
  induction levels with
  | nil =>
    rw [insertLevel, List.mem_singleton] at member
    exact .inl ⟨congrArg Prod.fst member, (congrArg Prod.snd member).ge⟩
  | cons first rest ih =>
    rw [insertLevel] at member
    split at member
    · rcases List.mem_cons.mp member with rfl | held
      · exact .inl ⟨rfl, le_refl _⟩
      · exact .inr held
    · split at member
      · rcases List.mem_cons.mp member with rfl | held
        · exact .inl ⟨rfl, Nat.le_add_left _ _⟩
        · exact .inr (List.mem_cons_of_mem _ held)
      · rcases List.mem_cons.mp member with rfl | later
        · exact .inr List.mem_cons_self
        · rcases ih later with own | held
          · exact .inl own
          · exact .inr (List.mem_cons_of_mem _ held)

theorem sorted_insertLevel (price : P) (quantity : ℕ) {levels : List (P × ℕ)}
    (sorted : levels.Pairwise fun a b => a.1 < b.1) :
    (insertLevel price quantity levels).Pairwise fun a b => a.1 < b.1 := by
  induction levels with
  | nil => exact List.pairwise_singleton _ _
  | cons first rest ih =>
    obtain ⟨before, tail⟩ := List.pairwise_cons.mp sorted
    rw [insertLevel]
    split
    · rename_i less
      refine List.pairwise_cons.mpr ⟨fun level member => ?_, sorted⟩
      rcases List.mem_cons.mp member with rfl | later
      · exact less
      · exact less.trans (before level later)
    · split
      · rename_i same
        exact List.pairwise_cons.mpr ⟨fun level member => same ▸ before level member, tail⟩
      · rename_i notLess other
        refine List.pairwise_cons.mpr ⟨fun level member => ?_, ih tail⟩
        rcases mem_insertLevel member with ⟨own, -⟩ | held
        · rw [own]
          exact lt_of_le_of_ne (not_lt.mp notLess) (Ne.symm other)
        · exact before level held

/-- Offer some more at a price. -/
def add (l : Ladder P) (price : P) (quantity : ℕ) (some_more : 0 < quantity) : Ladder P where
  levels := insertLevel price quantity l.levels
  sorted := sorted_insertLevel price quantity l.sorted
  positive level member := by
    rcases mem_insertLevel member with ⟨-, least⟩ | held
    · exact lt_of_lt_of_le some_more least
    · exact l.positive level held

def filter (keeps : P → Bool) (l : Ladder P) : Ladder P where
  levels := l.levels.filter fun level => keeps level.1
  sorted := l.sorted.filter _
  positive level member := l.positive level (List.mem_filter.mp member).1

/-- What a walk leaves. -/
def after (l : Ladder P) (stops : P → Bool) (n : ℕ) : Ladder P where
  levels := (walk stops n l.levels).left
  sorted := by
    rcases left_levels stops n l.levels with kept | ⟨level, filled, rest, -, kept, left⟩
    · exact l.sorted.sublist kept
    · rw [left]
      obtain ⟨before, tail⟩ := List.pairwise_cons.mp (l.sorted.sublist kept)
      exact List.pairwise_cons.mpr ⟨before, tail⟩
  positive level member := by
    rcases left_levels stops n l.levels with kept | ⟨first, filled, rest, less, kept, left⟩
    · exact l.positive level (kept.subset member)
    · rw [left] at member
      rcases List.mem_cons.mp member with rfl | later
      · exact Nat.sub_pos_of_lt less
      · exact l.positive level (kept.subset (List.mem_cons_of_mem _ later))

/-- Where worse prices stop a walk too, it takes the best of all units whose price does not. -/
theorem units_walk (l : Ladder P) {stops : P → Bool}
    (worse : ∀ p q, p ≤ q → stops p → stops q) (n : ℕ) :
    units (walk stops n l.levels).taken =
      ((units l.levels).filter fun price => !stops price).take n := by
  have through : l.levels.takeWhile (fun level => !stops level.1) =
      l.levels.filter fun level => !stops level.1 := by
    have sorted := l.sorted
    generalize l.levels = levels at sorted
    induction levels with
    | nil => rfl
    | cons level rest ih =>
      obtain ⟨before, tail⟩ := List.pairwise_cons.mp sorted
      cases stop : stops level.1 with
      | false => simp [stop, ih tail]
      | true =>
        have none_later : rest.filter (fun other => !stops other.1) = [] := by
          rw [List.filter_eq_nil_iff]
          intro other member
          simp [worse _ _ (before other member).le stop]
        simp [stop, none_later]
  rw [units_taken, through, filter_units fun price => !stops price]

end Ladder

end MiniHedge.Library
