import MiniHedge.Library.StableSort
import Mathlib.Algebra.Order.Field.Basic
import Mathlib.Tactic.Linarith
import Mathlib.Tactic.Ring
import Mathlib.Tactic.FieldSimp

/-! A first-in first-out queue of divisible shares.

Shares are held in blocks of one key and one price. A share is named by its
depth: `shareAt` gives the key and price of the share at a depth, so that
popping `n` shares is a shift of the queue by `n`. The blocks are only a finite
description of that line of shares.
-/

set_option autoImplicit false

namespace MiniHedge.Library

structure Block (K F : Type) where
  key : K
  size : F
  price : F
  deriving DecidableEq, Repr

abbrev ShareQueue (K F : Type) := List (Block K F)

namespace ShareQueue

section
variable {K F : Type} [Field F]

def size (q : ShareQueue K F) : F := (q.map Block.size).sum

def cost (q : ShareQueue K F) : F := (q.map fun b => b.size * b.price).sum

def scale (r : F) (q : ShareQueue K F) : ShareQueue K F :=
  q.map fun b => { b with size := b.size * r, price := b.price / r }

def enqueue [LinearOrder K] (b : Block K F) (q : ShareQueue K F) : ShareQueue K F :=
  insertAfter Block.key b q

@[simp] theorem size_nil : size ([] : ShareQueue K F) = 0 := rfl

@[simp] theorem size_cons (b : Block K F) (q : ShareQueue K F) : size (b :: q) = b.size + size q := by
  simp [size]

@[simp] theorem cost_nil : cost ([] : ShareQueue K F) = 0 := rfl

@[simp] theorem cost_cons (b : Block K F) (q : ShareQueue K F) :
    cost (b :: q) = b.size * b.price + cost q := by
  simp [cost]

theorem cost_perm {p q : ShareQueue K F} (same : p.Perm q) : cost p = cost q :=
  (same.map _).sum_eq

theorem cost_enqueue [LinearOrder K] (b : Block K F) (q : ShareQueue K F) :
    cost (enqueue b q) = b.size * b.price + cost q := by
  rw [enqueue, cost_perm (insertAfter_perm _ b q), cost_cons]

theorem cost_scale {r : F} (nonzero : r ≠ 0) (q : ShareQueue K F) : cost (scale r q) = cost q := by
  induction q with
  | nil => rfl
  | cons b q ih =>
    change cost ({ b with size := b.size * r, price := b.price / r } :: scale r q) = _
    rw [cost_cons, cost_cons, ih]
    field_simp

end

section
variable {K F : Type} [Field F] [LinearOrder F]

def Positive (q : ShareQueue K F) : Prop := ∀ b ∈ q, 0 < b.size

/-- Remove the `n` oldest shares. -/
def pop (n : F) : ShareQueue K F → ShareQueue K F
  | [] => []
  | b :: rest => if b.size ≤ n then pop (n - b.size) rest else { b with size := b.size - n } :: rest

/-- The `n` oldest shares. -/
def front (n : F) : ShareQueue K F → ShareQueue K F
  | [] => []
  | b :: rest => if b.size ≤ n then b :: front (n - b.size) rest else [{ b with size := n }]

/-- The key and the price of the share at a depth. -/
def shareAt : ShareQueue K F → F → Option (K × F)
  | [], _ => none
  | b :: rest, x => if x < b.size then some (b.key, b.price) else shareAt rest (x - b.size)

theorem pop_zero {q : ShareQueue K F} (positive : Positive q) : pop 0 q = q := by
  cases q with
  | nil => rfl
  | cons b q =>
    have first := positive b (by simp)
    rw [pop, if_neg first.not_ge, sub_zero]

/-- What is popped and what stays carry the cost of the whole. -/
theorem cost_front_add_pop (n : F) (q : ShareQueue K F) :
    cost (front n q) + cost (pop n q) = cost q := by
  induction q generalizing n with
  | nil => simp [front, pop]
  | cons b q ih =>
    by_cases whole : b.size ≤ n
    · simp only [front, pop, if_pos whole, cost_cons, add_assoc, ih]
    · simp only [front, pop, if_neg whole, cost_cons, cost_nil]
      ring

end

section
variable {K F : Type} [Field F] [LinearOrder F] [IsStrictOrderedRing F]

theorem cost_front_zero {q : ShareQueue K F} (positive : Positive q) : cost (front 0 q) = 0 := by
  have whole := cost_front_add_pop 0 q
  rw [pop_zero positive] at whole
  linarith

/-- Popping is a shift: after `n` shares have left, the share at a depth is
the one that was `n` deeper. -/
theorem shareAt_pop (n : F) (q : ShareQueue K F) {x : F} (depth : 0 ≤ x) :
    shareAt (pop n q) x = shareAt q (x + n) := by
  induction q generalizing n with
  | nil => rfl
  | cons b q ih =>
    by_cases whole : b.size ≤ n
    · have passed : ¬ x + n < b.size := by linarith
      rw [pop, if_pos whole, ih, shareAt, if_neg passed]
      congr 1
      ring
    · rw [pop, if_neg whole, shareAt, shareAt]
      by_cases inside : x < b.size - n
      · rw [if_pos inside, if_pos (by linarith)]
      · rw [if_neg inside, if_neg (by linarith)]
        congr 1
        ring

end

end ShareQueue

end MiniHedge.Library
