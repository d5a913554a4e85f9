import MiniHedge.Python.Decimal
import Mathlib.Data.Int.Log

/-! Decimal operations as a context carries them out.

An operation answers its exact result, rounded to the digits that the context keeps. The
exponents are not bounded, and the context has its default precision and rounding mode.
-/

set_option autoImplicit false

namespace MiniHedge.Python

/-- How the exact result of an operation is rounded. -/
structure Context where
  round : Decimal → Decimal

/-- What a unit of the last one of 28 digits of a number counts. -/
def ulp (x : Decimal) : Decimal := 10 ^ (Int.log 10 |x| - 27)

/-- The number to 28 significant digits, with a tie to the even one. -/
def significant (x : Decimal) : Decimal := Rounding.halfEven.round (x / ulp x) * ulp x

namespace Context

/-- Nothing is rounded. -/
def exact : Context := ⟨id⟩

/-- `getcontext()`, which nothing changes. -/
def default : Context := ⟨significant⟩

variable (ctx : Context)

def add (x y : Decimal) : Decimal := ctx.round (x + y)

def subtract (x y : Decimal) : Decimal := ctx.round (x - y)

def multiply (x y : Decimal) : Decimal := ctx.round (x * y)

def divide (x y : Decimal) : Decimal := ctx.round (x / y)

def abs (x : Decimal) : Decimal := ctx.round |x|

@[simp] theorem exact_subtract (x y : Decimal) : exact.subtract x y = x - y := rfl

@[simp] theorem exact_multiply (x y : Decimal) : exact.multiply x y = x * y := rfl

@[simp] theorem exact_divide (x y : Decimal) : exact.divide x y = x / y := rfl

end Context

example : Context.default.divide 1 3 = 3333333333333333333333333333 / 10 ^ 28 ∧
    Context.default.divide 16 11 = 1454545454545454545454545455 / 10 ^ 27 := by
  decide +kernel

/-! ## Numbers that have so many digits -/

/-- The number is not rounded: it has at most 28 digits. -/
def Fits (x : Decimal) : Prop := ∃ n e : ℤ, |n| ≤ 10 ^ 28 ∧ x = n * 10 ^ e

theorem ulp_pos (x : Decimal) : 0 < ulp x := zpow_pos (by norm_num) _

theorem round_int (mode : Rounding) (n : ℤ) : mode.round n = n := by
  have floor : (n : ℚ).floor = n := Rat.floor_intCast n
  rw [Rounding.round, floor, if_pos (by rw [sub_self]; norm_num)]

/-- The number in units of its last digit. -/
theorem coefficient_bounds {x : Decimal} (positive : 0 < x) : 10 ^ 27 ≤ x / ulp x ∧ x / ulp x < 10 ^ 28 := by
  have lower := Int.zpow_log_le_self (b := 10) (by norm_num) positive
  have upper := Int.lt_zpow_succ_log_self (b := 10) (by norm_num) x
  have unit := ulp_pos x
  have digits : ∀ n : ℕ, (10 : ℚ) ^ n * ulp x = 10 ^ (Int.log 10 x - 27 + n) := by
    intro n
    rw [ulp, abs_of_pos positive, zpow_add₀ (by norm_num), zpow_natCast, mul_comm]
  constructor
  · rw [le_div_iff₀ unit, digits]
    simpa using lower
  · rw [div_lt_iff₀ unit, digits]
    have next : Int.log 10 x - 27 + ((28 : ℕ) : ℤ) = Int.log 10 x + 1 := by push_cast; ring
    rw [next]
    exact upper

theorem significant_zero : significant 0 = 0 := by
  have none_left : Rounding.halfEven.round (0 / ulp 0) = 0 := by
    rw [zero_div]
    exact round_int .halfEven 0
  rw [significant, none_left, Int.cast_zero, zero_mul]

theorem Fits.neg {x : Decimal} : Fits x → Fits (-x) := by
  rintro ⟨n, e, digits, rfl⟩
  exact ⟨-n, e, by rwa [abs_neg], by push_cast; ring⟩

/-- What has the digits is kept. -/
theorem Fits.significant_eq {x : Decimal} : Fits x → significant x = x := by
  rintro ⟨n, e, digits, rfl⟩
  by_cases zero : n = 0
  · rw [zero, Int.cast_zero, zero_mul, significant_zero]
  have ten : (10 : ℚ) ≠ 0 := by norm_num
  have size : |(n : ℚ) * 10 ^ e| = |n| * 10 ^ e := by
    rw [abs_mul, abs_of_pos (zpow_pos (by norm_num : (0 : ℚ) < 10) e), Int.cast_abs]
  have above : 0 < |(n : ℚ) * 10 ^ e| := by
    rw [size]
    have some_units : (0 : ℚ) < ((|n| : ℤ) : ℚ) := by exact_mod_cast abs_pos.mpr zero
    exact mul_pos some_units (zpow_pos (by norm_num) e)
  -- the coefficient in units of the last digit is an integer
  have whole : ∃ m : ℤ, (n : ℚ) * 10 ^ e / ulp (n * 10 ^ e) = m := by
    rcases digits.lt_or_eq with fewer | most
    · have below : Int.log 10 |(n : ℚ) * 10 ^ e| < 28 + e := by
        rw [← Int.lt_zpow_iff_log_lt (by norm_num) above, size, Nat.cast_ofNat, zpow_add₀ ten]
        exact mul_lt_mul_of_pos_right (by exact_mod_cast fewer) (zpow_pos (by norm_num) e)
      obtain ⟨k, split⟩ := Int.eq_ofNat_of_zero_le (by omega : 0 ≤ e - (Int.log 10 |(n : ℚ) * 10 ^ e| - 27))
      refine ⟨n * 10 ^ k, ?_⟩
      rw [ulp, mul_div_assoc, ← zpow_sub₀ ten, split]
      push_cast
      rfl
    · have log : Int.log 10 |(n : ℚ) * 10 ^ e| = 28 + e := by
        have power : |(n : ℚ) * 10 ^ e| = ((10 : ℕ) : ℚ) ^ (28 + e) := by
          rw [size, most, Nat.cast_ofNat, zpow_add₀ ten]
          push_cast
          rfl
        rw [power, Int.log_zpow (by norm_num)]
      rcases (abs_eq (by norm_num : (0 : ℤ) ≤ 10 ^ 28)).mp most with plus | minus
      · refine ⟨10 ^ 27, ?_⟩
        rw [ulp, log, plus, mul_div_assoc, ← zpow_sub₀ ten, show e - (28 + e - 27) = -1 by ring]
        norm_num
      · refine ⟨-10 ^ 27, ?_⟩
        rw [ulp, log, minus, mul_div_assoc, ← zpow_sub₀ ten, show e - (28 + e - 27) = -1 by ring]
        norm_num
  obtain ⟨m, same⟩ := whole
  rw [significant, same, round_int, ← same, div_mul_cancel₀ _ (ulp_pos _).ne']

/-! ## Order -/

theorem significant_nonneg {x : Decimal} (nonneg : 0 ≤ x) : 0 ≤ significant x := by
  have least := round_mono .halfEven (div_nonneg nonneg (ulp_pos x).le)
  have zero : Rounding.halfEven.round 0 = 0 := round_int .halfEven 0
  rw [zero] at least
  exact mul_nonneg (by exact_mod_cast least) (ulp_pos x).le

/-- A number stays between the powers of ten that it is between. -/
theorem significant_bounds {x : Decimal} (positive : 0 < x) :
    10 ^ Int.log 10 x ≤ significant x ∧ significant x ≤ 10 ^ (Int.log 10 x + 1) := by
  obtain ⟨lower, upper⟩ := coefficient_bounds positive
  have ten : (10 : ℚ) ≠ 0 := by norm_num
  have least : (10 ^ 27 : ℤ) ≤ Rounding.halfEven.round (x / ulp x) := by
    rw [← round_int .halfEven (10 ^ 27)]
    exact round_mono .halfEven (by exact_mod_cast lower)
  have most : Rounding.halfEven.round (x / ulp x) ≤ (10 ^ 28 : ℤ) := by
    rw [← round_int .halfEven (10 ^ 28)]
    exact round_mono .halfEven (by exact_mod_cast upper.le)
  have unit : ulp x = 10 ^ (Int.log 10 x - 27) := by rw [ulp, abs_of_pos positive]
  constructor
  · have digits : (10 : ℚ) ^ Int.log 10 x = ((10 ^ 27 : ℤ) : ℚ) * ulp x := by
      rw [unit, zpow_sub₀ ten]
      push_cast
      field_simp
    rw [digits]
    exact mul_le_mul_of_nonneg_right (by exact_mod_cast least) (ulp_pos x).le
  · have digits : (10 : ℚ) ^ (Int.log 10 x + 1) = ((10 ^ 28 : ℤ) : ℚ) * ulp x := by
      rw [unit, zpow_sub₀ ten, zpow_add₀ ten]
      push_cast
      field_simp
      norm_num
    rw [digits]
    exact mul_le_mul_of_nonneg_right (by exact_mod_cast most) (ulp_pos x).le

theorem significant_mono {x y : Decimal} (nonneg : 0 ≤ x) (le : x ≤ y) : significant x ≤ significant y := by
  rcases nonneg.eq_or_lt with rfl | positive
  · rw [significant_zero]
    exact significant_nonneg le
  · have positive' := positive.trans_le le
    rcases (Int.log_mono_right (b := 10) positive le).lt_or_eq with fewer | same
    · calc significant x ≤ 10 ^ (Int.log 10 x + 1) := (significant_bounds positive).2
        _ ≤ 10 ^ Int.log 10 y := zpow_le_zpow_right₀ (by norm_num) (by omega)
        _ ≤ significant y := (significant_bounds positive').1
    · have unit : ulp x = ulp y := by rw [ulp, ulp, abs_of_pos positive, abs_of_pos positive', same]
      rw [significant, significant, unit]
      refine mul_le_mul_of_nonneg_right ?_ (ulp_pos y).le
      exact_mod_cast round_mono .halfEven (div_le_div_of_nonneg_right le (ulp_pos y).le)

theorem significant_nonpos {x : Decimal} (nonpos : x ≤ 0) : significant x ≤ 0 := by
  have most := round_mono .halfEven (div_nonpos_of_nonpos_of_nonneg nonpos (ulp_pos x).le)
  have zero : Rounding.halfEven.round 0 = 0 := round_int .halfEven 0
  rw [zero] at most
  exact mul_nonpos_of_nonpos_of_nonneg (by exact_mod_cast most) (ulp_pos x).le

theorem significant_lt_zero {x : Decimal} (negative : x < 0) : significant x < 0 := by
  have unit := ulp_pos x
  have lower := (coefficient_bounds (abs_pos.mpr negative.ne)).1
  rw [ulp, abs_abs, ← ulp, abs_of_neg negative, neg_div] at lower
  have least : x / ulp x ≤ (((-1 : ℤ)) : ℚ) := by
    push_cast
    linarith only [lower]
  have most := round_mono .halfEven least
  rw [round_int] at most
  exact mul_neg_of_neg_of_pos (by exact_mod_cast (by omega : Rounding.halfEven.round (x / ulp x) < 0)) unit

@[simp] theorem significant_neg_iff {x : Decimal} : significant x < 0 ↔ x < 0 :=
  ⟨fun negative => lt_of_not_ge fun nonneg => absurd (significant_nonneg nonneg) (not_le.mpr negative),
    significant_lt_zero⟩

/-- Whatever is at most a number that is not negative is so when both are rounded. -/
theorem significant_le {x y : Decimal} (nonneg : 0 ≤ y) (le : x ≤ y) : significant x ≤ significant y := by
  rcases le_or_gt 0 x with above | below
  · exact significant_mono above le
  · exact (significant_nonpos below.le).trans (significant_nonneg nonneg)

theorem Fits.significant_le {x y : Decimal} (fits : Fits y) (nonneg : 0 ≤ x) (le : x ≤ y) : significant x ≤ y :=
  (significant_mono nonneg le).trans_eq fits.significant_eq

theorem Fits.le_significant {x y : Decimal} (fits : Fits x) (nonneg : 0 ≤ x) (le : x ≤ y) : x ≤ significant y :=
  fits.significant_eq.symm.le.trans (significant_mono nonneg le)

theorem Fits.shift {x : Decimal} (k : ℤ) : Fits x → Fits (x * 10 ^ k) := by
  rintro ⟨n, e, digits, rfl⟩
  exact ⟨n, e + k, digits, by rw [zpow_add₀ (by norm_num), mul_assoc]⟩

/-- What is rounded has the digits. -/
theorem fits_significant (x : Decimal) : Fits (significant x) := by
  have size : |x / ulp x| ≤ 10 ^ 28 := by
    rcases eq_or_ne x 0 with rfl | nonzero
    · simp
    · have bound := (coefficient_bounds (abs_pos.mpr nonzero)).2.le
      rwa [ulp, abs_abs, ← ulp, ← abs_of_pos (ulp_pos x), ← abs_div] at bound
  obtain ⟨lower, upper⟩ := abs_le.mp size
  have least := round_mono .halfEven lower
  have most := round_mono .halfEven upper
  have minus := round_int .halfEven (-10 ^ 28)
  have plus := round_int .halfEven (10 ^ 28)
  rw [Int.cast_neg, Int.cast_pow, Int.cast_ofNat] at minus
  rw [Int.cast_pow, Int.cast_ofNat] at plus
  rw [minus] at least
  rw [plus] at most
  exact ⟨_, _, abs_le.mpr ⟨least, most⟩, rfl⟩

instance (x : Decimal) : Decidable (Fits x) :=
  decidable_of_iff (significant x = x) ⟨fun same => same ▸ fits_significant x, Fits.significant_eq⟩

theorem fits_int {n : ℤ} (digits : |n| ≤ 10 ^ 28) : Fits n := ⟨n, 0, digits, by simp⟩

/-! ## The error -/

/-- Rounding changes the number by half a unit of its last digit at most. -/
theorem significant_near (x : Decimal) : |significant x - x| ≤ ulp x / 2 := by
  obtain ⟨lower, upper⟩ := round_bounds .halfEven (x / ulp x)
  have unit := ulp_pos x
  have own : x = x / ulp x * ulp x := (div_mul_cancel₀ x unit.ne').symm
  rw [abs_le, significant]
  constructor
  · have product := mul_le_mul_of_nonneg_right lower unit.le
    rw [sub_mul, ← own] at product
    linarith
  · have product := mul_le_mul_of_nonneg_right upper unit.le
    rw [add_mul, ← own] at product
    linarith

theorem ulp_le {x : Decimal} (positive : 0 < x) : ulp x ≤ x / 10 ^ 27 := by
  rw [le_div_iff₀ (by norm_num), mul_comm, ← le_div_iff₀ (ulp_pos x)]
  exact (coefficient_bounds positive).1

/-- The error as a share of the number. -/
theorem significant_share {x : Decimal} (nonneg : 0 ≤ x) : |significant x - x| ≤ 1 / (2 * 10 ^ 27) * x := by
  rcases nonneg.eq_or_lt with rfl | positive
  · rw [significant_zero]
    simp
  · calc |significant x - x| ≤ ulp x / 2 := significant_near x
      _ ≤ x / 10 ^ 27 / 2 := by linarith only [ulp_le positive]
      _ = 1 / (2 * 10 ^ 27) * x := by ring

end MiniHedge.Python
