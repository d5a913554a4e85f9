import Mathlib.Algebra.BigOperators.Group.List.Basic
import Mathlib.Algebra.Order.BigOperators.Group.List
import Mathlib.Algebra.Order.Group.Abs
import Mathlib.Tactic.Abel
import Mathlib.Algebra.BigOperators.Ring.List
import Mathlib.Algebra.Field.Defs
import Mathlib.Tactic.Ring

/-! A total that is divided over a list, with the rest to the last.

Every element but the last takes the share that is computed for it, and the last
one takes what the others leave. However the shares are rounded, the parts sum
to the total.
-/

set_option autoImplicit false

namespace MiniHedge.Library

section Apportion

variable {α A : Type} [AddCommGroup A] (share : α → A) (total : A)

/-- The parts of a total of which something has been allocated already. -/
def apportion : A → List α → List A
  | _, [] => []
  | allocated, [_] => [total - allocated]
  | allocated, x :: y :: rest => share x :: apportion (allocated + share x) (y :: rest)

theorem length_apportion (allocated : A) (xs : List α) :
    (apportion share total allocated xs).length = xs.length := by
  induction xs generalizing allocated with
  | nil => rfl
  | cons x rest ih =>
    cases rest with
    | nil => rfl
    | cons y rest => simp [apportion, ih]

theorem sum_apportion (allocated : A) {xs : List α} (nonempty : xs ≠ []) :
    (apportion share total allocated xs).sum = total - allocated := by
  induction xs generalizing allocated with
  | nil => exact absurd rfl nonempty
  | cons x rest ih =>
    cases rest with
    | nil => simp [apportion]
    | cons y rest =>
      rw [apportion, List.sum_cons, ih _ (List.cons_ne_nil y rest)]
      abel

theorem sum_dropLast_add {xs : List α} (nonempty : xs ≠ []) :
    (xs.dropLast.map share).sum + share (xs.getLast nonempty) = (xs.map share).sum := by
  conv_rhs => rw [← List.dropLast_append_getLast nonempty]
  rw [List.map_append, List.sum_append, List.map_singleton, List.sum_singleton]

/-- The shares of all elements but the last, and what they leave. -/
theorem apportion_eq (allocated : A) {xs : List α} (nonempty : xs ≠ []) :
    apportion share total allocated xs =
      xs.dropLast.map share ++ [total - allocated - (xs.dropLast.map share).sum] := by
  induction xs generalizing allocated with
  | nil => exact absurd rfl nonempty
  | cons x rest ih =>
    cases rest with
    | nil => simp [apportion]
    | cons y rest =>
      rw [apportion, ih _ (List.cons_ne_nil y rest), List.dropLast_cons_cons, List.map_cons,
        List.sum_cons, List.cons_append, sub_add_eq_sub_sub, sub_add_eq_sub_sub]

/-- A relation between the elements and their parts: of all but the last with their shares, and of
the last with what the shares leave. -/
theorem forall₂_apportion {p : α → A → Prop} (allocated : A) {xs : List α} (nonempty : xs ≠ []) :
    List.Forall₂ p xs (apportion share total allocated xs) ↔
      (∀ x ∈ xs.dropLast, p x (share x)) ∧
        p (xs.getLast nonempty) (total - allocated - (xs.dropLast.map share).sum) := by
  induction xs generalizing allocated with
  | nil => exact absurd rfl nonempty
  | cons x rest ih =>
    cases rest with
    | nil => simp [apportion]
    | cons y rest =>
      have left : total - (allocated + share x) = total - allocated - share x := by abel
      rw [apportion, List.forall₂_cons, ih _ (List.cons_ne_nil y rest), left, sub_sub _ (share x)]
      rw [List.dropLast_cons_cons, List.forall_mem_cons, List.map_cons, List.sum_cons,
        List.getLast_cons (List.cons_ne_nil y rest), and_assoc]

theorem apportion_map {β : Type} (f : β → α) (allocated : A) (ys : List β) :
    apportion (fun y => share (f y)) total allocated ys = apportion share total allocated (ys.map f) := by
  induction ys generalizing allocated with
  | nil => rfl
  | cons y rest ih =>
    cases rest with
    | nil => rfl
    | cons z rest =>
      have later := ih (allocated + share (f y))
      rw [List.map_cons] at later
      rw [apportion, List.map_cons, List.map_cons, apportion, later]

/-- What holds of the shares and of the total, and is kept by differences, holds of every part. -/
theorem forall_apportion {p : A → Prop} (shares : ∀ x, p (share x)) (whole : p total)
    (sub : ∀ a b, p a → p b → p (a - b)) (xs : List α) :
    ∀ part ∈ apportion share total 0 xs, p part := by
  have zero : p 0 := sub_self total ▸ sub total total whole whole
  have rest : ∀ allocated, p allocated → ∀ part ∈ apportion share total allocated xs, p part := by
    induction xs with
    | nil => exact fun _ _ _ member => nomatch member
    | cons x rest ih =>
      intro allocated holds
      cases rest with
      | nil =>
        intro part member
        rw [List.mem_singleton.mp member]
        exact sub total allocated whole holds
      | cons y rest =>
        refine List.forall_mem_cons.mpr ⟨shares x, ih _ ?_⟩
        have negated := sub 0 (share x) zero (shares x)
        rw [zero_sub] at negated
        exact sub_neg_eq_add allocated (share x) ▸ sub _ _ holds negated
  exact rest 0 zero

end Apportion

section Close

variable {α A : Type} [AddCommGroup A] [LinearOrder A] [IsOrderedAddMonoid A] {share exact : α → A}
  {total unit : A}

theorem abs_sum_le {f : α → A} {xs : List α} (each : ∀ x ∈ xs, |f x| ≤ unit) :
    |(xs.map f).sum| ≤ xs.length • unit := by
  induction xs with
  | nil => simp
  | cons x rest ih =>
    obtain ⟨first, others⟩ := List.forall_mem_cons.mp each
    rw [List.map_cons, List.sum_cons, List.length_cons, succ_nsmul, add_comm]
    exact (abs_add_le _ _).trans (add_le_add (ih others) first)

/-- Of parts whose shares are rounded by at most a unit, each is off by at most a unit for every
element, and by what the total is off. -/
theorem apportion_close (rounded : ∀ x, |share x - exact x| ≤ unit) (allocated : A) (xs : List α) :
    List.Forall₂ (fun x part => |part - exact x| ≤
        |total - allocated - (xs.map exact).sum| + xs.length • unit) xs
      (apportion share total allocated xs) := by
  induction xs generalizing allocated with
  | nil => exact .nil
  | cons x rest ih =>
    have nonneg : 0 ≤ unit := (abs_nonneg _).trans (rounded x)
    cases rest with
    | nil =>
      refine .cons ?_ .nil
      simpa [one_nsmul] using nonneg
    | cons y rest =>
      refine .cons ?_ ((ih (allocated + share x)).imp fun z part close => close.trans ?_)
      · calc |share x - exact x| ≤ unit := rounded x
          _ = 1 • unit := (one_nsmul unit).symm
          _ ≤ (x :: y :: rest).length • unit := nsmul_le_nsmul_left nonneg (by simp)
          _ ≤ _ := le_add_of_nonneg_left (abs_nonneg _)
      · have split : total - (allocated + share x) - ((y :: rest).map exact).sum =
            total - allocated - ((x :: y :: rest).map exact).sum - (share x - exact x) := by
          rw [List.map_cons (a := x), List.sum_cons]
          abel
        calc |total - (allocated + share x) - ((y :: rest).map exact).sum| + (y :: rest).length • unit
            ≤ |total - allocated - ((x :: y :: rest).map exact).sum| + unit +
                (y :: rest).length • unit := by
              rw [split]
              exact add_le_add_left ((abs_sub _ _).trans (add_le_add_right (rounded x) _)) _
          _ = _ := by
              rw [List.length_cons (a := x), succ_nsmul]
              abel

end Close

section Positive

variable {A : Type} [AddCommGroup A] [LinearOrder A] [IsOrderedAddMonoid A]

/-- The parts that are not positive only lower the total. -/
theorem sum_le_sum_positive (parts : List A) :
    parts.sum ≤ (parts.filter fun part => 0 < part).sum := by
  induction parts with
  | nil => exact le_rfl
  | cons part rest ih =>
    by_cases positive : 0 < part
    · simpa [positive] using ih
    · rw [List.sum_cons, List.filter_cons_of_neg (by simpa using positive)]
      calc part + rest.sum ≤ 0 + rest.sum := add_le_add_left (not_lt.mp positive) _
        _ = rest.sum := zero_add _
        _ ≤ _ := ih

omit [IsOrderedAddMonoid A] in
/-- Where no part is negative, the parts that are left out are nothing. -/
theorem sum_positive {parts : List A} (nonneg : ∀ part ∈ parts, 0 ≤ part) :
    (parts.filter fun part => 0 < part).sum = parts.sum := by
  induction parts with
  | nil => rfl
  | cons part rest ih =>
    obtain ⟨first, others⟩ := List.forall_mem_cons.mp nonneg
    rcases first.lt_or_eq with positive | zero
    · simp [positive, ih others]
    · simp [← zero, ih others]

end Positive

/-! ## Averages of a list with weights, and what another set of weights does to them -/

variable {α K : Type} [Field K] (weight factor value : α → K)

/-- The sum of the values, each as often as its weight says. -/
def weighted (xs : List α) : K := (xs.map fun x => weight x * value x).sum

def average (xs : List α) : K := weighted weight value xs / (xs.map weight).sum

/-- Over all pairs, how the factor and the value differ, as often as the weights say: twice the
covariance, times the square of the weights. -/
def spread (xs : List α) : K :=
  (xs.map fun x => (xs.map fun y =>
    weight x * weight y * ((factor x - factor y) * (value x - value y))).sum).sum

variable {weight factor value} {xs : List α}

theorem spread_eq : spread weight factor value xs =
    2 * ((xs.map weight).sum * weighted (fun x => weight x * factor x) value xs -
      (xs.map fun x => weight x * factor x).sum * weighted weight value xs) := by
  have inner : ∀ x, (xs.map fun y => weight x * weight y * ((factor x - factor y) * (value x - value y))).sum =
      weight x * factor x * value x * (xs.map weight).sum -
        weight x * factor x * weighted weight value xs -
        weight x * value x * (xs.map fun y => weight y * factor y).sum +
        weight x * weighted (fun y => weight y * factor y) value xs := by
    intro x
    unfold weighted
    generalize xs = ys
    induction ys with
    | nil => simp
    | cons y ys ih =>
      simp only [List.map_cons, List.sum_cons, ih]
      ring
  unfold spread
  simp only [inner]
  have outer : ∀ ys : List α, ∀ a b c d : K, (ys.map fun x => weight x * factor x * value x * a -
      weight x * factor x * b - weight x * value x * c + weight x * d).sum =
        weighted (fun x => weight x * factor x) value ys * a - (ys.map fun x => weight x * factor x).sum * b -
          weighted weight value ys * c + (ys.map weight).sum * d := by
    intro ys a b c d
    unfold weighted
    induction ys with
    | nil => simp
    | cons y ys ih =>
      simp only [List.map_cons, List.sum_cons, ih]
      ring
  rw [outer]
  ring

end MiniHedge.Library
