import MiniHedge.Python.Values
import Mathlib.Data.Rat.Floor
import Mathlib.Tactic.FieldSimp
import Mathlib.Tactic.Linarith
import Mathlib.Tactic.Ring

/-! Rounding of decimals to a number of places. -/

set_option autoImplicit false

namespace MiniHedge.Python

/-- The rounding modes that are used: `ROUND_HALF_EVEN` is the default of a
context, `ROUND_HALF_UP` rounds a tie away from zero. -/
inductive Rounding where
  | halfEven
  | halfUp
  deriving DecidableEq, Repr

def Rounding.tie (mode : Rounding) (x : ℚ) : ℤ :=
  match mode with
  | .halfEven => if x.floor % 2 = 0 then x.floor else x.floor + 1
  | .halfUp => if x < 0 then x.floor else x.floor + 1

def Rounding.round (mode : Rounding) (x : ℚ) : ℤ :=
  if x - x.floor < 1 / 2 then x.floor
  else if 1 / 2 < x - x.floor then x.floor + 1
  else mode.tie x

/-- `x.quantize(Decimal(10) ** -places, rounding)`. -/
def quantize (places : Nat) (mode : Rounding) (x : Decimal) : Decimal :=
  mode.round (x * 10 ^ places) / 10 ^ places

/-- What a `NUMERIC` column of that scale keeps. -/
def numeric (scale : Nat) (x : Decimal) : Decimal := quantize scale .halfUp x

example : quantize 2 .halfEven (1 / 8) = 3 / 25 ∧ quantize 2 .halfUp (1 / 8) = 13 / 100 := by
  decide +kernel

/-! ## Bounds -/

theorem round_bounds (mode : Rounding) (x : ℚ) :
    x - 1 / 2 ≤ mode.round x ∧ (mode.round x : ℚ) ≤ x + 1 / 2 := by
  have below : (x.floor : ℚ) ≤ x := Int.floor_le x
  have above : x < x.floor + 1 := Int.lt_floor_add_one x
  have next : ((x.floor + 1 : ℤ) : ℚ) = x.floor + 1 := by push_cast; rfl
  unfold Rounding.round
  split
  · constructor <;> linarith
  · split
    · constructor <;> linarith
    · have tie : mode.tie x = x.floor ∨ mode.tie x = x.floor + 1 := by
        cases mode with
        | halfEven => exact ite_eq_or_eq _ _ _
        | halfUp => exact ite_eq_or_eq _ _ _
      rcases tie with same | same
      · rw [same]
        constructor <;> linarith
      · rw [same]
        constructor <;> linarith

theorem quantize_bounds (places : Nat) (mode : Rounding) (x : Decimal) :
    x - 1 / 2 / 10 ^ places ≤ quantize places mode x ∧
      quantize places mode x ≤ x + 1 / 2 / 10 ^ places := by
  obtain ⟨lower, upper⟩ := round_bounds mode (x * 10 ^ places)
  have scale : (0 : ℚ) < 10 ^ places := by positivity
  constructor
  · rw [quantize, le_div_iff₀ scale, sub_mul, div_mul_cancel₀ _ scale.ne']
    exact lower
  · rw [quantize, div_le_iff₀ scale, add_mul, div_mul_cancel₀ _ scale.ne']
    exact upper

theorem quantize_near (places : Nat) (mode : Rounding) (x : Decimal) :
    |quantize places mode x - x| ≤ 1 / 2 / 10 ^ places := by
  obtain ⟨lower, upper⟩ := quantize_bounds places mode x
  rw [abs_le]
  constructor
  · linarith
  · linarith

theorem quantize_zero (places : Nat) (mode : Rounding) : quantize places mode 0 = 0 := by
  have floor : (0 : ℚ).floor = 0 := rfl
  simp [quantize, Rounding.round, floor]

theorem quantize_nonneg {x : Decimal} (nonneg : 0 ≤ x) (places : Nat) (mode : Rounding) :
    0 ≤ quantize places mode x := by
  have lower := (round_bounds mode (x * 10 ^ places)).1
  have scaled : 0 ≤ x * 10 ^ places := by positivity
  have large : (-1 : ℚ) < mode.round (x * 10 ^ places) := by linarith
  have whole : -1 < mode.round (x * 10 ^ places) := by exact_mod_cast large
  have cast : (0 : ℚ) ≤ mode.round (x * 10 ^ places) := by
    exact_mod_cast (by omega : 0 ≤ mode.round (x * 10 ^ places))
  unfold quantize
  positivity

theorem floor_le_round (mode : Rounding) (x : ℚ) :
    x.floor ≤ mode.round x ∧ mode.round x ≤ x.floor + 1 := by
  unfold Rounding.round
  split
  · omega
  · split
    · omega
    · cases mode with
      | halfEven =>
        unfold Rounding.tie
        dsimp only
        split <;> omega
      | halfUp =>
        unfold Rounding.tie
        dsimp only
        split <;> omega

theorem round_mono (mode : Rounding) {x y : ℚ} (le : x ≤ y) : mode.round x ≤ mode.round y := by
  have floors : x.floor ≤ y.floor := Rat.floor_monotone le
  rcases floors.lt_or_eq with less | same
  · have above := (floor_le_round mode x).2
    have below := (floor_le_round mode y).1
    omega
  · have bounds := floor_le_round mode y
    rcases lt_trichotomy (x - x.floor) (1 / 2) with small | tie | large
    · rw [Rounding.round, if_pos small, same]
      exact bounds.1
    · by_cases equal : x = y
      · rw [equal]
      · have beyond : 1 / 2 < y - y.floor := by
          have less := lt_of_le_of_ne le equal
          rw [same] at tie
          linarith
        have next : mode.round y = y.floor + 1 := by
          rw [Rounding.round, if_neg (not_lt.mpr beyond.le), if_pos beyond]
        rw [next, ← same]
        exact (floor_le_round mode x).2
    · have beyond : 1 / 2 < y - y.floor := by
        rw [same] at large
        linarith
      rw [Rounding.round, if_neg (not_lt.mpr large.le), if_pos large, Rounding.round,
        if_neg (not_lt.mpr beyond.le), if_pos beyond, same]

theorem quantize_mono (places : Nat) (mode : Rounding) {x y : Decimal} (le : x ≤ y) :
    quantize places mode x ≤ quantize places mode y := by
  have scale : (0 : ℚ) < 10 ^ places := by positivity
  have whole := round_mono mode (mul_le_mul_of_nonneg_right le scale.le)
  exact div_le_div_of_nonneg_right (by exact_mod_cast whole) scale.le

theorem quantize_nonpos {x : Decimal} (nonpos : x ≤ 0) (places : Nat) (mode : Rounding) :
    quantize places mode x ≤ 0 := by
  have below := quantize_mono places mode nonpos
  rwa [quantize_zero] at below

/-- Half an integer is rounded to an even one, which zero is. -/
theorem round_halfEven_eq_zero {x : ℚ} : Rounding.halfEven.round x = 0 ↔ |x| ≤ 1 / 2 := by
  rw [abs_le]
  constructor
  · intro zero
    obtain ⟨lower, upper⟩ := round_bounds .halfEven x
    rw [zero, Int.cast_zero] at lower upper
    constructor <;> linarith
  · rintro ⟨lower, upper⟩
    rcases lt_or_ge x 0 with negative | nonneg
    · have floor : x.floor = -1 := by
        rw [show x.floor = ⌊x⌋ from rfl, Int.floor_eq_iff]
        push_cast
        constructor <;> linarith
      rw [Rounding.round, Rounding.tie, floor, if_neg (by push_cast; linarith)]
      simp
    · rcases upper.lt_or_eq with under | half
      · have floor : x.floor = 0 := by
          rw [show x.floor = ⌊x⌋ from rfl, Int.floor_eq_iff]
          push_cast
          constructor <;> linarith
        rw [Rounding.round, floor, if_pos (by push_cast; linarith)]
      · rw [half]
        decide +kernel

theorem quantize_halfEven_eq_zero {places : Nat} {x : Decimal} :
    quantize places .halfEven x = 0 ↔ |x| ≤ 1 / 2 / 10 ^ places := by
  have scale : (0 : ℚ) < 10 ^ places := by positivity
  rw [quantize, div_eq_zero_iff, or_iff_left scale.ne', Int.cast_eq_zero, round_halfEven_eq_zero,
    abs_mul, abs_of_pos scale, le_div_iff₀ scale]

/-! ## Rounding half up -/

/-- What rounding half up comes to: the nearest integer, away from zero on a tie. -/
def Nearest (x : ℚ) (n : ℤ) : Prop :=
  (0 ≤ x → (n : ℚ) - 1 / 2 ≤ x ∧ x < n + 1 / 2) ∧ (x < 0 → (n : ℚ) - 1 / 2 < x ∧ x ≤ n + 1 / 2)

theorem nearest_round (x : ℚ) : Nearest x (Rounding.halfUp.round x) := by
  have below : (x.floor : ℚ) ≤ x := Int.floor_le x
  have above : x < x.floor + 1 := Int.lt_floor_add_one x
  have next : ((x.floor + 1 : ℤ) : ℚ) = x.floor + 1 := by push_cast; rfl
  unfold Rounding.round
  split
  · constructor <;> intro _ <;> constructor <;> linarith
  · split
    · constructor <;> intro _ <;> constructor <;> linarith
    · unfold Rounding.tie
      simp only
      split
      · constructor <;> intro _ <;> constructor <;> linarith
      · constructor <;> intro _ <;> constructor <;> linarith

theorem Nearest.unique {x : ℚ} {n m : ℤ} (left : Nearest x n) (right : Nearest x m) : n = m := by
  have close : (n : ℚ) < m + 1 ∧ (m : ℚ) < n + 1 := by
    rcases le_or_gt 0 x with sign | sign
    · obtain ⟨a, b⟩ := left.1 sign
      obtain ⟨c, d⟩ := right.1 sign
      constructor <;> linarith
    · obtain ⟨a, b⟩ := left.2 sign
      obtain ⟨c, d⟩ := right.2 sign
      constructor <;> linarith
  have first : n < m + 1 := by exact_mod_cast close.1
  have second : m < n + 1 := by exact_mod_cast close.2
  omega

theorem round_eq {x : ℚ} {n : ℤ} (near : Nearest x n) : Rounding.halfUp.round x = n :=
  (nearest_round x).unique near

theorem nearest_int (n : ℤ) : Nearest n n := by
  constructor <;> intro _ <;> constructor <;> linarith

theorem Nearest.neg {x : ℚ} {n : ℤ} (near : Nearest x n) : Nearest (-x) (-n) := by
  rcases lt_trichotomy x 0 with sign | rfl | sign
  · obtain ⟨a, b⟩ := near.2 sign
    refine ⟨fun _ => ?_, fun _ => ?_⟩ <;> push_cast <;> constructor <;> linarith
  · have zero : n = 0 := near.unique (by simpa using nearest_int 0)
    rw [zero]
    simpa using nearest_int 0
  · obtain ⟨a, b⟩ := near.1 sign.le
    refine ⟨fun _ => ?_, fun _ => ?_⟩ <;> push_cast <;> constructor <;> linarith

theorem Nearest.add {x : ℚ} {n : ℤ} (near : Nearest x n) (m : ℤ) (positive : 0 ≤ x)
    (sum : 0 ≤ m + x) : Nearest (m + x) (m + n) := by
  obtain ⟨a, b⟩ := near.1 positive
  refine ⟨fun _ => ?_, fun negative => absurd sum (not_le.mpr negative)⟩
  push_cast
  constructor <;> linarith

/-! ## Numbers with so many places -/

def OnGrid (places : Nat) (x : Decimal) : Prop := ∃ n : ℤ, x = n / 10 ^ places

section Grid

variable {places : Nat} {x y : Decimal}

theorem onGrid_zero : OnGrid places 0 := ⟨0, by simp⟩

theorem OnGrid.add : OnGrid places x → OnGrid places y → OnGrid places (x + y) := by
  rintro ⟨n, rfl⟩ ⟨m, rfl⟩
  exact ⟨n + m, by push_cast; ring⟩

theorem onGrid_sum {xs : List Decimal} (each : ∀ x ∈ xs, OnGrid places x) :
    OnGrid places xs.sum := by
  induction xs with
  | nil => exact onGrid_zero
  | cons x rest ih =>
    rw [List.sum_cons]
    exact (each x List.mem_cons_self).add (ih fun y later => each y (List.mem_cons_of_mem x later))

theorem OnGrid.neg : OnGrid places x → OnGrid places (-x) := by
  rintro ⟨n, rfl⟩
  exact ⟨-n, by push_cast; ring⟩

theorem OnGrid.sub (left : OnGrid places x) (right : OnGrid places y) : OnGrid places (x - y) :=
  sub_eq_add_neg x y ▸ left.add right.neg

theorem onGrid_numeric (places : Nat) (x : Decimal) : OnGrid places (numeric places x) := ⟨_, rfl⟩

theorem scaled (n : ℤ) : (n / 10 ^ places : Decimal) * 10 ^ places = n := by
  field_simp

/-- A column keeps a number that has no more places. -/
theorem OnGrid.numeric_eq : OnGrid places x → numeric places x = x := by
  rintro ⟨n, rfl⟩
  rw [numeric, quantize, scaled, round_eq (nearest_int n)]

theorem OnGrid.mono {finer : Nat} (le : places ≤ finer) : OnGrid places x → OnGrid finer x := by
  rintro ⟨n, rfl⟩
  refine ⟨n * 10 ^ (finer - places), ?_⟩
  have split : (10 : Decimal) ^ finer = 10 ^ (finer - places) * 10 ^ places := by
    rw [← pow_add, Nat.sub_add_cancel le]
  push_cast
  rw [split]
  field_simp

theorem onGrid_quantize (places : Nat) (mode : Rounding) (x : Decimal) :
    OnGrid places (quantize places mode x) := ⟨_, rfl⟩

theorem OnGrid.eq_zero (small : |x| < 1 / 10 ^ places) : OnGrid places x → x = 0 := by
  rintro ⟨n, rfl⟩
  have scale : (0 : Decimal) < 10 ^ places := by positivity
  rw [abs_div, abs_of_pos scale, div_lt_div_iff_of_pos_right scale, ← Int.cast_abs] at small
  have less : |n| < 1 := by exact_mod_cast small
  rw [Int.abs_lt_one_iff.mp less, Int.cast_zero, zero_div]

theorem numeric_neg (places : Nat) (x : Decimal) : numeric places (-x) = -numeric places x := by
  have near := (nearest_round (x * 10 ^ places)).neg
  rw [← neg_mul] at near
  rw [numeric, numeric, quantize, quantize, round_eq near]
  push_cast
  ring

theorem numeric_nonneg (nonneg : 0 ≤ x) : 0 ≤ numeric places x := by
  have near := (nearest_round (x * 10 ^ places)).1 (by positivity)
  have large : (-1 : ℚ) < Rounding.halfUp.round (x * 10 ^ places) := by
    have scale : 0 ≤ x * 10 ^ places := by positivity
    linarith
  have rounded : 0 ≤ Rounding.halfUp.round (x * 10 ^ places) := by
    have whole : -1 < Rounding.halfUp.round (x * 10 ^ places) := by exact_mod_cast large
    omega
  have cast : (0 : ℚ) ≤ Rounding.halfUp.round (x * 10 ^ places) := by exact_mod_cast rounded
  unfold numeric quantize
  positivity

/-- Rounding a sum rounds the part that needs it, where nothing is negative. -/
theorem OnGrid.numeric_add (grid : OnGrid places x) (left : 0 ≤ x) (right : 0 ≤ y) :
    numeric places (x + y) = x + numeric places y := by
  obtain ⟨n, rfl⟩ := grid
  have near := (nearest_round (y * 10 ^ places)).add n (by positivity) (by
    have scale := mul_nonneg left (by positivity : (0 : ℚ) ≤ 10 ^ places)
    rw [scaled] at scale
    positivity)
  rw [numeric, numeric, quantize, quantize, add_mul, scaled, round_eq near]
  push_cast
  ring

/-- A column keeps a number from falling below one that it can hold. -/
theorem le_abs_numeric {bound : Decimal} (grid : OnGrid places bound)
    (least : bound ≤ |x|) : bound ≤ |numeric places x| := by
  rcases le_abs.mp least with above | below
  · have kept : numeric places bound ≤ numeric places x := quantize_mono _ _ above
    rw [grid.numeric_eq] at kept
    exact kept.trans (le_abs_self _)
  · have kept : numeric places bound ≤ numeric places (-x) := quantize_mono _ _ below
    rw [grid.numeric_eq, numeric_neg] at kept
    exact kept.trans (neg_le_abs _)

/-- A column keeps nothing of what is less than half of its last place. -/
theorem numeric_eq_zero (nonneg : 0 ≤ x) : numeric places x = 0 ↔ x < 1 / 2 / 10 ^ places := by
  have scale : (0 : Decimal) < 10 ^ places := by positivity
  have near := nearest_round (x * 10 ^ places)
  rw [numeric, quantize, div_eq_zero_iff, or_iff_left scale.ne', Int.cast_eq_zero, lt_div_iff₀ scale]
  constructor
  · intro zero
    rw [zero] at near
    have above := (near.1 (by positivity)).2
    simpa using above
  · intro small
    refine near.unique ⟨fun _ => ⟨?_, by simpa using small⟩, fun negative => ?_⟩
    · have lower : (0 : Decimal) ≤ x * 10 ^ places := by positivity
      push_cast
      linarith
    · exact absurd negative (not_lt.mpr (by positivity))

/-- A quotient that is so little below a number with these places is rounded to it. -/
theorem quantize_eq_of_close (grid : OnGrid places y) (below : 0 ≤ y - x)
    (close : y - x < 1 / 2 / 10 ^ places) (mode : Rounding) : quantize places mode x = y := by
  obtain ⟨n, rfl⟩ := grid
  have scale : (0 : Decimal) < 10 ^ places := by positivity
  obtain ⟨lower, upper⟩ := round_bounds mode (x * 10 ^ places)
  rw [lt_div_iff₀ scale, sub_mul, scaled] at close
  have under : x * 10 ^ places ≤ n := by
    have product := mul_nonneg below scale.le
    rw [sub_mul, scaled] at product
    linarith
  have least : n < mode.round (x * 10 ^ places) + 1 := by
    have cast : (n : ℚ) < (mode.round (x * 10 ^ places) + 1 : ℤ) := by push_cast; linarith
    exact_mod_cast cast
  have most : mode.round (x * 10 ^ places) < n + 1 := by
    have cast : (mode.round (x * 10 ^ places) : ℚ) < (n + 1 : ℤ) := by push_cast; linarith
    exact_mod_cast cast
  have same : mode.round (x * 10 ^ places) = n := by omega
  rw [quantize, same]

theorem OnGrid.quantize_eq (grid : OnGrid places x) (mode : Rounding) : quantize places mode x = x := by
  have close : x - x < 1 / 2 / 10 ^ places := by
    rw [sub_self]
    positivity
  exact quantize_eq_of_close grid (sub_self x).ge close mode

/-- A whole number stays as it is. -/
theorem quantize_whole (places : Nat) (mode : Rounding) (n : ℤ) : quantize places mode n = n := by
  have grid : OnGrid places (n : Decimal) := ⟨n * 10 ^ places, by push_cast; field_simp⟩
  exact grid.quantize_eq mode

end Grid

/-! ## What rounding adds to a number

Conditions on the inputs of a rounding are stated with the error, which is read off the
fraction of a unit that the input has.
-/

/-- A number of units is rounded up, with a tie to the even side. -/
def RoundsUp (x : ℚ) : Prop := 1 / 2 < x - x.floor ∨ x - x.floor = 1 / 2 ∧ x.floor % 2 ≠ 0

instance (x : ℚ) : Decidable (RoundsUp x) := inferInstanceAs (Decidable (_ ∨ _))

/-- What rounding adds to a number of units. -/
def roundingError (x : ℚ) : ℚ := (if RoundsUp x then 1 else 0) - (x - x.floor)

theorem round_halfEven (x : ℚ) : (Rounding.halfEven.round x : ℚ) = x + roundingError x := by
  unfold Rounding.round Rounding.tie roundingError
  by_cases up : RoundsUp x
  · rw [if_pos up]
    rcases up with above | ⟨tie, odd⟩
    · rw [if_neg (not_lt.mpr above.le), if_pos above]
      push_cast
      ring
    · rw [if_neg (not_lt.mpr tie.ge), if_neg (not_lt.mpr tie.le)]
      simp only [odd, if_false]
      push_cast
      ring
  · rw [if_neg up]
    simp only [RoundsUp, not_or, not_lt, not_and, not_not] at up
    rcases up.1.lt_or_eq with below | tie
    · rw [if_pos below]
      ring
    · rw [if_neg (not_lt.mpr tie.ge), if_neg (not_lt.mpr tie.le)]
      simp only [up.2 tie, if_true]
      ring

theorem roundingError_bound (x : ℚ) : |roundingError x| ≤ 1 / 2 := by
  obtain ⟨lower, upper⟩ := round_bounds .halfEven x
  rw [round_halfEven] at lower upper
  exact abs_le.mpr ⟨by linarith, by linarith⟩

/-- In units of the last place that is kept. -/
theorem quantize_units (places : ℕ) (x : Decimal) :
    quantize places .halfEven x * 10 ^ places = x * 10 ^ places + roundingError (x * 10 ^ places) := by
  rw [quantize, div_mul_cancel₀ _ (by positivity), round_halfEven]

theorem quantize_halfEven (places : ℕ) (x : Decimal) :
    quantize places .halfEven x = x + roundingError (x * 10 ^ places) / 10 ^ places := by
  have scale : (10 : ℚ) ^ places ≠ 0 := by positivity
  rw [← mul_left_inj' scale, quantize_units]
  field_simp

/-- What rounding half up adds to a number of units that is not negative. -/
def halfUpError (x : ℚ) : ℚ := (if 1 / 2 ≤ x - x.floor then 1 else 0) - (x - x.floor)

theorem round_halfUp {x : ℚ} (nonneg : 0 ≤ x) : (Rounding.halfUp.round x : ℚ) = x + halfUpError x := by
  unfold Rounding.round Rounding.tie halfUpError
  rcases lt_trichotomy (x - x.floor) (1 / 2) with small | tie | large
  · rw [if_pos small, if_neg (not_le.mpr small)]
    ring
  · rw [if_neg (not_lt.mpr tie.ge), if_neg (not_lt.mpr tie.le), if_pos tie.ge]
    simp only [if_neg (not_lt.mpr nonneg)]
    push_cast
    ring
  · rw [if_neg (not_lt.mpr large.le), if_pos large, if_pos large.le]
    push_cast
    ring

theorem quantize_halfUp (places : ℕ) {x : Decimal} (nonneg : 0 ≤ x) :
    quantize places .halfUp x = x + halfUpError (x * 10 ^ places) / 10 ^ places := by
  have scale : (10 : ℚ) ^ places ≠ 0 := by positivity
  rw [quantize, round_halfUp (by positivity)]
  field_simp

end MiniHedge.Python
