import MiniHedge.Orders.Allocation
import MiniHedge.Orders.Icebergs
import MiniHedge.Python.Context
import Mathlib.Algebra.BigOperators.Ring.List
import Mathlib.Algebra.Order.Archimedean.Basic

/-! The slices of each algo strategy, and when they cover an order.

Slices that are rounded to the eight places of the order table leave the rest to the
last one, which can be more than all of them or less than nothing. Before that, quotients
and products are rounded to 28 digits; a tenth of the total, and what is added and taken
off in eight places, have no more than that. The delays of the slices, which are floats,
are left out.
-/

set_option autoImplicit false

namespace MiniHedge.Orders

open MiniHedge.Python MiniHedge.Library

structure AlgoParams where
  numSlices : ℤ := 200
  visibleQuantity : Option Decimal := none
  volumeProfile : Option (List Decimal) := none
  deriving DecidableEq, Repr

namespace TWAPStrategy

def count (params : AlgoParams) : ℕ := (max 1 params.numSlices).toNat

def baseQty (totalQty : Decimal) (n : ℕ) : Decimal :=
  quantize 8 .halfEven (Context.default.divide totalQty n)

def computeSlices (totalQty : Decimal) (params : AlgoParams) : List ChildSlice :=
  let n := count params
  (apportion (fun _ => baseQty totalQty n) totalQty 0 (List.range n)).map fun qty => { quantity := qty }

end TWAPStrategy

namespace VWAPStrategy

/-- `sum(profile)`. -/
def totalWeightOf (profile : List Decimal) : Decimal := profile.foldl Context.default.add 0

def share (totalQty totalWeight weight : Decimal) : Decimal :=
  let pct := Context.default.divide weight totalWeight
  quantize 8 .halfEven (Context.default.multiply totalQty pct)

def computeSlices (totalQty : Decimal) (params : AlgoParams) : List ChildSlice :=
  match params.volumeProfile with
  | none | some [] => TWAPStrategy.computeSlices totalQty params
  | some (first :: rest) =>
    let profile := first :: rest
    let totalWeight := totalWeightOf profile
    if totalWeight = 0 then TWAPStrategy.computeSlices totalQty params
    else
      -- a slice of nothing, or of less, is left out
      ((apportion (share totalQty totalWeight) totalQty 0 profile).filter fun qty => 0 < qty).map
        fun qty => { quantity := qty }

end VWAPStrategy

/-- `get_strategy(algo_type).compute_slices`; only the loop of an iceberg may not end. -/
def AlgoType.computeSlices (algo : AlgoType) (fuel : ℕ) (totalQty : Decimal) (params : AlgoParams) :
    Option (List ChildSlice) :=
  match algo with
  | .twap => some (TWAPStrategy.computeSlices totalQty params)
  | .vwap => some (VWAPStrategy.computeSlices totalQty params)
  | .iceberg => IcebergStrategy.computeSlices fuel totalQty params.visibleQuantity

/-- The strategy returns slices of something each that are the order, and an iceberg shows no more
at a time than is to be visible. -/
def AlgoType.Covers (algo : AlgoType) (totalQty : Decimal) (params : AlgoParams) : Prop :=
  ∃ fuel slices, algo.computeSlices fuel totalQty params = some slices ∧
    (∀ slice ∈ slices, 0 < slice.quantity) ∧ (slices.map (·.quantity)).sum = totalQty ∧
    (algo = .iceberg → ∀ slice ∈ slices,
      slice.quantity ≤ IcebergStrategy.visible totalQty params.visibleQuantity)

/-! ## When the roundings fit -/

/-- What is added to an exact part, in units of the eighth place, when it is first rounded to 28
digits and then to eight places. -/
def addedTo (part rounded : Decimal) : ℚ := (rounded - part) * 10 ^ 8 + roundingError (rounded * 10 ^ 8)

/-- The share of a slice is over half a unit, and all slices but one are not rounded up by as much
as the share of that one. -/
def FitsEvenly (totalQty : Decimal) (n : ℕ) : Prop :=
  let rounded := significant (totalQty / n)
  n = 1 ∨ 1 / 2 < rounded * 10 ^ 8 ∧ ((n : ℚ) - 1) * addedTo (totalQty / n) rounded < totalQty / n * 10 ^ 8

/-- The parts of all weights but the last are not rounded up by more than they leave of the total. -/
def FitsProfile (totalQty : Decimal) (profile : List Decimal) : Prop :=
  let part := fun weight => totalQty * (weight / VWAPStrategy.totalWeightOf profile)
  let rounded := fun weight => significant (totalQty * significant (weight / VWAPStrategy.totalWeightOf profile))
  (profile.dropLast.map fun weight => addedTo (part weight) (rounded weight)).sum ≤
    (totalQty - (profile.dropLast.map part).sum) * 10 ^ 8

def AlgoType.Fits (algo : AlgoType) (totalQty : Decimal) (params : AlgoParams) : Prop :=
  match algo with
  | .twap => FitsEvenly totalQty (TWAPStrategy.count params)
  | .vwap =>
    match params.volumeProfile with
    | none | some [] => FitsEvenly totalQty (TWAPStrategy.count params)
    | some (first :: rest) =>
      if VWAPStrategy.totalWeightOf (first :: rest) = 0 then FitsEvenly totalQty (TWAPStrategy.count params)
      else FitsProfile totalQty (first :: rest)
  | .iceberg => (∃ visible ∈ params.visibleQuantity, 0 < visible) ∨ 5 / 10 ^ 8 < totalQty

/-! ## Equal parts -/

section Even

variable {totalQty : Decimal} {n : ℕ}

theorem quantize_added (part rounded : Decimal) :
    quantize 8 .halfEven rounded * 10 ^ 8 = part * 10 ^ 8 + addedTo part rounded := by
  rw [quantize_units, addedTo]
  ring

theorem fitsEvenly_iff (several : 1 < n) (positive : 0 < totalQty) :
    FitsEvenly totalQty n ↔ 0 < TWAPStrategy.baseQty totalQty n ∧
      ((n : ℚ) - 1) * TWAPStrategy.baseQty totalQty n < totalQty := by
  have parts : (0 : ℚ) < n := by exact_mod_cast (by omega : 0 < n)
  have scale : (0 : ℚ) < 10 ^ 8 := by positivity
  have share : 0 ≤ significant (totalQty / n) := significant_nonneg (by positivity)
  have something : 0 < TWAPStrategy.baseQty totalQty n ↔ 1 / 2 < significant (totalQty / n) * 10 ^ 8 := by
    have nonneg : 0 ≤ TWAPStrategy.baseQty totalQty n := quantize_nonneg share 8 .halfEven
    rw [nonneg.lt_iff_ne', ne_eq, TWAPStrategy.baseQty, quantize_halfEven_eq_zero, not_le]
    change 1 / 2 / 10 ^ 8 < |significant (totalQty / n)| ↔ _
    rw [abs_of_nonneg share, div_lt_iff₀ scale]
  have units := quantize_added (totalQty / n) (significant (totalQty / n))
  change TWAPStrategy.baseQty totalQty n * 10 ^ 8 = _ at units
  have whole : totalQty * 10 ^ 8 = n * (totalQty / n * 10 ^ 8) := by field_simp
  have other : n ≠ 1 := by omega
  rw [something, ← mul_lt_mul_iff_left₀ (b := ((n : ℚ) - 1) * TWAPStrategy.baseQty totalQty n) scale, mul_assoc,
    units, whole]
  unfold FitsEvenly
  simp only [other, false_or]
  refine and_congr_right fun _ => ?_
  constructor
  · intro fits
    linarith only [fits]
  · intro less
    linarith only [less]

theorem one_le_count (params : AlgoParams) : 1 ≤ TWAPStrategy.count params := by
  unfold TWAPStrategy.count
  omega

theorem quantities_twap (totalQty : Decimal) (params : AlgoParams) :
    (TWAPStrategy.computeSlices totalQty params).map (·.quantity) =
      List.replicate (TWAPStrategy.count params - 1)
          (TWAPStrategy.baseQty totalQty (TWAPStrategy.count params)) ++
        [totalQty - ((TWAPStrategy.count params - 1 : ℕ) : ℚ) *
          TWAPStrategy.baseQty totalQty (TWAPStrategy.count params)] := by
  have least := one_le_count params
  have nonempty : List.range (TWAPStrategy.count params) ≠ [] := by
    rw [ne_eq, List.range_eq_nil]
    omega
  unfold TWAPStrategy.computeSlices
  dsimp only
  rw [List.map_map, show (fun slice : ChildSlice => slice.quantity) ∘ (fun qty => { quantity := qty }) = id from rfl,
    List.map_id, apportion_eq _ _ _ nonempty, List.map_const',
    List.length_dropLast, List.length_range, List.sum_replicate, nsmul_eq_mul, sub_zero]

theorem sum_twap (totalQty : Decimal) (params : AlgoParams) :
    ((TWAPStrategy.computeSlices totalQty params).map (·.quantity)).sum = totalQty := by
  rw [quantities_twap, List.sum_append, List.sum_replicate, nsmul_eq_mul, List.sum_singleton]
  ring

theorem positive_twap_iff {params : AlgoParams} (positive : 0 < totalQty) :
    (∀ slice ∈ TWAPStrategy.computeSlices totalQty params, 0 < slice.quantity) ↔
      FitsEvenly totalQty (TWAPStrategy.count params) := by
  rw [← List.forall_mem_map (P := fun qty => 0 < qty), quantities_twap]
  obtain ⟨last, same⟩ : ∃ last, TWAPStrategy.count params = last + 1 :=
    ⟨_, (Nat.sub_add_cancel (one_le_count params)).symm⟩
  rw [same, Nat.add_sub_cancel]
  rcases Nat.eq_zero_or_pos last with rfl | several
  · simp [FitsEvenly, positive]
  · rw [fitsEvenly_iff (by omega) positive, List.forall_mem_append, List.forall_mem_singleton, sub_pos]
    push_cast
    rw [add_sub_cancel_right]
    constructor
    · rintro ⟨each, rest⟩
      exact ⟨each _ (List.mem_replicate.mpr ⟨several.ne', rfl⟩), rest⟩
    · rintro ⟨base, rest⟩
      refine ⟨fun qty member => ?_, rest⟩
      rw [List.eq_of_mem_replicate member]
      exact base

theorem covers_twap_iff {params : AlgoParams} (positive : 0 < totalQty) :
    ((∀ slice ∈ TWAPStrategy.computeSlices totalQty params, 0 < slice.quantity) ∧
      ((TWAPStrategy.computeSlices totalQty params).map (·.quantity)).sum = totalQty) ↔
      FitsEvenly totalQty (TWAPStrategy.count params) := by
  rw [positive_twap_iff positive]
  exact and_iff_left (sum_twap totalQty params)

end Even

/-! ## Weighted parts -/

section Weighted

variable {totalQty : Decimal} {profile : List Decimal}

theorem share_nonneg (positive : 0 < totalQty) {totalWeight weight : Decimal}
    (some_weight : 0 ≤ totalWeight) (nonneg : 0 ≤ weight) :
    0 ≤ VWAPStrategy.share totalQty totalWeight weight :=
  quantize_nonneg (significant_nonneg (mul_nonneg positive.le
    (significant_nonneg (div_nonneg nonneg some_weight)))) 8 .halfEven

theorem totalWeightOf_nonneg (nonneg : ∀ weight ∈ profile, 0 ≤ weight) : 0 ≤ VWAPStrategy.totalWeightOf profile := by
  unfold VWAPStrategy.totalWeightOf
  induction profile using List.reverseRecOn with
  | nil => exact le_rfl
  | append_singleton before weight ih =>
    obtain ⟨others, last⟩ := List.forall_mem_append.mp nonneg
    rw [List.foldl_concat]
    exact significant_nonneg (add_nonneg (ih others) (last weight List.mem_cons_self))

/-- The shares of all but the last weight leave what they do not round up for the last. -/
theorem fitsProfile_iff : FitsProfile totalQty profile ↔
    (profile.dropLast.map (VWAPStrategy.share totalQty (VWAPStrategy.totalWeightOf profile))).sum ≤ totalQty := by
  have scale : (0 : ℚ) < 10 ^ 8 := by positivity
  unfold FitsProfile
  generalize VWAPStrategy.totalWeightOf profile = totalWeight
  have shares : (profile.dropLast.map (VWAPStrategy.share totalQty totalWeight)).sum * 10 ^ 8 =
      (profile.dropLast.map fun weight => totalQty * (weight / totalWeight)).sum * 10 ^ 8 +
        (profile.dropLast.map fun weight => addedTo (totalQty * (weight / totalWeight))
          (significant (totalQty * significant (weight / totalWeight)))).sum := by
    rw [← List.sum_map_mul_right, ← List.sum_map_mul_right, ← List.sum_map_add]
    exact congrArg List.sum (List.map_congr_left fun weight _ => quantize_added _ _)
  rw [← mul_le_mul_iff_left₀ (b := (profile.dropLast.map (VWAPStrategy.share totalQty totalWeight)).sum)
    scale, shares]
  constructor
  · intro fits
    linarith only [fits]
  · intro fits
    linarith only [fits]

theorem sum_vwap_iff (positive : 0 < totalQty) (nonempty : profile ≠ [])
    (nonneg : ∀ weight ∈ profile, 0 ≤ weight) :
    ((apportion (VWAPStrategy.share totalQty (VWAPStrategy.totalWeightOf profile)) totalQty 0 profile).filter
        fun qty => 0 < qty).sum = totalQty ↔ FitsProfile totalQty profile := by
  have weight := totalWeightOf_nonneg nonneg
  have shares : ∀ part ∈ profile.dropLast.map
      (VWAPStrategy.share totalQty (VWAPStrategy.totalWeightOf profile)), 0 ≤ part := by
    rw [List.forall_mem_map]
    intro weight' inside
    exact share_nonneg positive weight (nonneg weight' (List.dropLast_subset profile inside))
  have kept := sum_positive shares
  rw [fitsProfile_iff, apportion_eq _ _ _ nonempty, sub_zero, List.filter_append, List.sum_append, kept]
  generalize (profile.dropLast.map
    (VWAPStrategy.share totalQty (VWAPStrategy.totalWeightOf profile))).sum = shared
  by_cases some_left : 0 < totalQty - shared
  · have within : shared ≤ totalQty := by linarith
    simp [some_left, within]
  · -- the last slice is left out, and the others are the order only if they leave nothing
    simp only [some_left, decide_false, Bool.false_eq_true, not_false_eq_true,
      List.filter_cons_of_neg, List.filter_nil, List.sum_nil, add_zero]
    constructor
    · intro same
      exact same.le
    · intro within
      exact le_antisymm within (by linarith)

theorem covers_vwap_iff (positive : 0 < totalQty) {params : AlgoParams}
    (nonneg : ∀ profile ∈ params.volumeProfile, ∀ weight ∈ profile, 0 ≤ weight) :
    ((∀ slice ∈ VWAPStrategy.computeSlices totalQty params, 0 < slice.quantity) ∧
      ((VWAPStrategy.computeSlices totalQty params).map (·.quantity)).sum = totalQty) ↔
      AlgoType.Fits .vwap totalQty params := by
  unfold VWAPStrategy.computeSlices AlgoType.Fits
  rcases given : params.volumeProfile with _ | _ | ⟨first, rest⟩
  · exact covers_twap_iff positive
  · exact covers_twap_iff positive
  · dsimp only
    by_cases zero : VWAPStrategy.totalWeightOf (first :: rest) = 0
    · rw [if_pos zero, if_pos zero]
      exact covers_twap_iff positive
    · rw [if_neg zero, if_neg zero]
      have weights : ∀ weight ∈ first :: rest, 0 ≤ weight := nonneg _ given
      have quantities : (fun slice : ChildSlice => slice.quantity) ∘ (fun qty => { quantity := qty }) =
          (id : Decimal → Decimal) := rfl
      rw [List.map_map, quantities, List.map_id,
        sum_vwap_iff positive (List.cons_ne_nil first rest) weights]
      apply and_iff_right
      rw [List.forall_mem_map]
      intro qty member
      exact of_decide_eq_true (List.mem_filter.mp member).2

end Weighted

/-! ## The loop of an iceberg -/

namespace IcebergStrategy

/-- Something visible is enough for the loop to end, after no more turns than the order has of it. -/
theorem slices_some {visible remaining : Decimal} (shown : 0 < visible) {fuel : ℕ}
    (enough : remaining ≤ fuel * visible) (nonneg : 0 ≤ remaining) :
    ∃ result, slices visible fuel remaining = some result ∧
      (result.map (·.quantity)).sum = remaining ∧ ∀ slice ∈ result, slice.quantity ≤ visible := by
  induction fuel generalizing remaining with
  | zero =>
    have none : remaining = 0 := le_antisymm (by simpa using enough) nonneg
    exact ⟨[], by simp [slices, none], by simp [none], by simp⟩
  | succ fuel ih =>
    by_cases left : 0 < remaining
    · have fewer : remaining - min visible remaining ≤ fuel * visible := by
        rcases min_cases visible remaining with ⟨same, -⟩ | ⟨same, -⟩
        · rw [same]
          push_cast at enough
          linarith
        · rw [same, sub_self]
          positivity
      obtain ⟨rest, later, total, within⟩ := ih fewer (by linarith [min_le_right visible remaining])
      refine ⟨{ quantity := min visible remaining } :: rest, ?_, ?_, ?_⟩
      · simp [slices, left, later]
      · rw [List.map_cons, List.sum_cons, total]
        ring
      · exact List.forall_mem_cons.mpr ⟨min_le_left _ _, within⟩
    · have none : remaining = 0 := le_antisymm (not_lt.mp left) nonneg
      exact ⟨[], by simp [slices, none], by simp [none], by simp⟩

theorem visible_pos_iff {totalQty : Decimal} (positive : 0 < totalQty)
    {visibleQuantity : Option Decimal} :
    0 < visible totalQty visibleQuantity ↔
      (∃ shown ∈ visibleQuantity, 0 < shown) ∨ 5 / 10 ^ 8 < totalQty := by
  have tenth : 0 < quantize 8 .halfEven (totalQty / 10) ↔ 5 / 10 ^ 8 < totalQty := by
    have nonneg : 0 ≤ quantize 8 .halfEven (totalQty / 10) := quantize_nonneg (by positivity) 8 .halfEven
    rw [nonneg.lt_iff_ne', ne_eq, quantize_halfEven_eq_zero, not_le, abs_of_pos (by positivity)]
    constructor <;> intro less <;> linarith
  unfold visible
  cases visibleQuantity with
  | none => simpa using tenth
  | some shown =>
    dsimp only
    split
    · rename_i hidden
      simpa [not_lt.mpr hidden] using tenth
    · rename_i some_shown
      simp [not_le.mp some_shown]

theorem covers_iceberg_iff {totalQty : Decimal} (positive : 0 < totalQty) (params : AlgoParams) :
    AlgoType.Covers .iceberg totalQty params ↔ AlgoType.Fits .iceberg totalQty params := by
  rw [AlgoType.Fits, ← visible_pos_iff positive]
  constructor
  · rintro ⟨fuel, result, sliced, -⟩
    by_contra hidden
    have endless := slices_none (not_lt.mp hidden) positive fuel
    rw [← computeSlices] at endless
    cases endless.symm.trans sliced
  · intro shown
    obtain ⟨fuel, turns⟩ := exists_nat_ge (totalQty / visible totalQty params.visibleQuantity)
    obtain ⟨result, sliced, total, within⟩ :=
      slices_some shown ((div_le_iff₀ shown).mp turns) positive.le
    exact ⟨fuel, result, sliced, slices_positive sliced, total, fun _ => within⟩

end IcebergStrategy

/-- Slices that are all computed at once. -/
theorem covers_timed {algo : AlgoType} (timed : algo ≠ .iceberg) {totalQty : Decimal}
    {params : AlgoParams} {slices : List ChildSlice}
    (ends : ∀ fuel, algo.computeSlices fuel totalQty params = some slices) :
    algo.Covers totalQty params ↔
      (∀ slice ∈ slices, 0 < slice.quantity) ∧ (slices.map (·.quantity)).sum = totalQty := by
  constructor
  · rintro ⟨fuel, result, computed, some_each, total, -⟩
    cases (ends fuel).symm.trans computed
    exact ⟨some_each, total⟩
  · rintro ⟨some_each, total⟩
    exact ⟨0, slices, ends 0, some_each, total, fun same => absurd same timed⟩

-- a sixth to 28 digits is more than a sixth, and half a unit is rounded up
example : ((VWAPStrategy.computeSlices (3 / 10 ^ 8) { volumeProfile := some (List.replicate 6 1) }).map
    (·.quantity)) = List.replicate 5 (1 / 10 ^ 8) := by
  decide +kernel

end MiniHedge.Orders
