import MiniHedge.CapitalAccounts.Conservation
import MiniHedge.CapitalAccounts.Ownership

/-! How fair the allocations are, and what the percentages of ownership come to.

All accounts but the last get their share, rounded; the last one gets what these leave, and
with it the rounding of them all.
-/

set_option autoImplicit false

namespace MiniHedge.CapitalAccounts

open MiniHedge.Python MiniHedge.Library

/-! ## Allocations -/

section Fair

variable {accounts : List Holding} {total : Decimal}

/-- What the ownership says that an account is due. -/
def exactShare (accounts : List Holding) (total : Decimal) (a : Holding) : Decimal :=
  total * a.ownershipPct / (accounts.map (·.ownershipPct)).sum

def halfCent : Decimal := 1 / 200

structure Fair (apply : Decimal → Decimal → Decimal) (accounts : List Holding) (total : Decimal)
    (results : List Allocation) : Prop where
  whole : (results.map (·.amount)).sum = total
  applied : List.Forall₂ (fun a r => r.id = a.id ∧ r.capital = apply a.capital r.amount) accounts results
  others : List.Forall₂ (fun a r => |r.amount - exactShare accounts total a| ≤ halfCent)
    accounts.dropLast results.dropLast
  last : ∀ a ∈ accounts.getLast?, ∀ r ∈ results.getLast?,
    |r.amount - exactShare accounts total a| ≤ accounts.dropLast.length * halfCent

theorem sum_exactShare (shared : (accounts.map (·.ownershipPct)).sum ≠ 0) :
    (accounts.map (exactShare accounts total)).sum = total := by
  have divided : ∀ (some_of : List Holding) (pct : Decimal),
      (some_of.map fun a => total * a.ownershipPct / pct).sum = total * (some_of.map (·.ownershipPct)).sum / pct := by
    intro some_of pct
    induction some_of with
    | nil => simp
    | cons a rest ih =>
      rw [List.map_cons, List.sum_cons, ih, List.map_cons, List.sum_cons]
      ring
  exact (divided accounts _).trans (mul_div_cancel_right₀ total shared)

/-- The amounts are the rounded shares, and the rest to the last account. -/
theorem amounts_allocate (apply : Decimal → Decimal → Decimal) (total : Decimal)
    (shared : (accounts.map (·.ownershipPct)).sum ≠ 0) :
    (allocate apply accounts total).map (·.amount) =
      apportion (fun a => quantize 2 .halfUp (exactShare accounts total a)) total 0 accounts := by
  have lengths := length_apportion (fun a => quantize 2 .halfUp (exactShare accounts total a)) total 0 accounts
  simp only [allocate]
  split
  · rename_i nothing
    obtain rfl : total = 0 := nothing.resolve_right shared
    -- every share of nothing is zero, and so is what they leave
    have zeros : ∀ part ∈ apportion (fun a => quantize 2 .halfUp (exactShare accounts 0 a)) 0 0 accounts, part = 0 := by
      apply forall_apportion
      · intro a
        rw [exactShare, zero_mul, zero_div, quantize_zero]
      · rfl
      · rintro a b rfl rfl
        exact sub_zero 0
    rw [List.map_map, List.eq_replicate_of_mem zeros, lengths]
    exact List.map_const'
  · rw [List.map_zipWith]
    have second : ∀ (xs : List Holding) (parts : List Decimal), parts.length = xs.length →
        List.zipWith (fun _ amount => amount) xs parts = parts := by
      intro xs parts same
      rw [← List.map_uncurry_zip_eq_zipWith]
      exact List.map_snd_zip same.le
    exact second _ _ lengths

theorem fair_allocate {apply : Decimal → Decimal → Decimal} (zero : ∀ capital, apply capital 0 = capital)
    (shared : (accounts.map (·.ownershipPct)).sum ≠ 0) : Fair apply accounts total (allocate apply accounts total) := by
  have nonempty : accounts ≠ [] := by
    rintro rfl
    exact shared rfl
  have rounded : ∀ a : Holding,
      |quantize 2 .halfUp (exactShare accounts total a) - exactShare accounts total a| ≤ halfCent := by
    intro a
    have half : (1 : Decimal) / 2 / 10 ^ 2 = halfCent := by norm_num [halfCent]
    rw [← half]
    exact quantize_near 2 .halfUp (exactShare accounts total a)
  have amounts := amounts_allocate apply total shared
  rw [apportion_eq _ _ _ nonempty, sub_zero] at amounts
  refine ⟨?_, allocate_each zero accounts total, ?_, ?_⟩
  · rw [sum_amounts, taken, if_neg shared]
  · have shares := congrArg List.dropLast amounts
    rw [List.dropLast_concat, ← List.map_dropLast] at shares
    have near : List.Forall₂ (fun a amount => |amount - exactShare accounts total a| ≤ halfCent)
        accounts.dropLast ((allocate apply accounts total).dropLast.map (·.amount)) := by
      rw [shares, List.forall₂_map_right_iff, List.forall₂_same]
      exact fun a _ => rounded a
    exact List.forall₂_map_right_iff.mp near
  · intro a last r given
    have rest := congrArg List.getLast? amounts
    rw [List.getLast?_concat, List.getLast?_map, Option.mem_def.mp given, Option.map_some, Option.some.injEq] at rest
    rw [List.getLast?_eq_some_getLast nonempty, Option.mem_some_iff] at last
    have split := sum_dropLast_add (exactShare accounts total) nonempty
    rw [sum_exactShare shared, last] at split
    -- the last account is off by what all others are off
    have shares : (accounts.dropLast.map fun b => quantize 2 .halfUp (exactShare accounts total b)).sum =
        (accounts.dropLast.map (exactShare accounts total)).sum + (accounts.dropLast.map fun b =>
          quantize 2 .halfUp (exactShare accounts total b) - exactShare accounts total b).sum := by
      rw [← List.sum_map_add]
      simp only [add_sub_cancel]
    have off : r.amount - exactShare accounts total a = -(accounts.dropLast.map fun b =>
        quantize 2 .halfUp (exactShare accounts total b) - exactShare accounts total b).sum := by
      rw [rest]
      linarith
    rw [off, abs_neg, ← nsmul_eq_mul]
    exact abs_sum_le fun b _ => rounded b

end Fair

/-- Profits, losses and fees are given out whole, each account's share to half a cent but for the last. -/
theorem allocations_fair (accounts : List Holding) (amount : Decimal)
    (shared : (accounts.map (·.ownershipPct)).sum ≠ 0) :
    Fair (· + ·) accounts amount (allocatePnl accounts amount) ∧
      Fair (· - ·) accounts amount (allocateFees accounts amount) :=
  ⟨fair_allocate add_zero shared, fair_allocate sub_zero shared⟩

def thirds : List Holding := [⟨1, 100, 1 / 3⟩, ⟨2, 100, 1 / 3⟩, ⟨3, 100, 1 / 3⟩]

/-- A loss of one that three accounts share. -/
theorem thirds_fair : Fair (· + ·) thirds (-1) (allocatePnl thirds (-1)) ∧
    Fair (· - ·) thirds (-1) (allocateFees thirds (-1)) :=
  allocations_fair thirds (-1) (by decide +kernel)

/-! ## Percentages -/

structure Distributes (accounts ownership : List (Nat × Decimal)) : Prop where
  each : List.Forall₂ (fun account share => share.1 = account.1 ∧
    (0 < (accounts.map (·.2)).sum → account.2 = 0 → share.2 = 0)) accounts ownership
  bounds : ∀ share ∈ ownership, 0 ≤ share.2 ∧ share.2 ≤ 1
  whole : (ownership.map (·.2)).sum = 1

/-- In millionths, what rounding adds to the shares of all accounts but the last. -/
def roundedAway (capitals : List Decimal) : Decimal :=
  (capitals.dropLast.map fun capital => halfUpError (capital / capitals.sum * 10 ^ 6)).sum

/-- Without capital, a million parts can be shared evenly; else, what rounding adds is there to be taken
from the last account, and is nothing where that has no capital. -/
def Shareable (capitals : List Decimal) : Prop :=
  if capitals.sum = 0 then capitals.length ∣ 10 ^ 6
  else roundedAway capitals ≤ capitals.getLastD 0 / capitals.sum * 10 ^ 6 ∧
    (capitals.getLastD 0 = 0 → roundedAway capitals = 0)

instance (capitals : List Decimal) : Decidable (Shareable capitals) :=
  inferInstanceAs (Decidable (@ite Prop _ _ _ _))

section Percentages

variable {capitals : List Decimal}

theorem quantize_unit {x : Decimal} (nonneg : 0 ≤ x) (small : x ≤ 1) (places : Nat) (mode : Rounding) :
    0 ≤ quantize places mode x ∧ quantize places mode x ≤ 1 :=
  ⟨quantize_nonneg nonneg places mode, (quantize_mono places mode small).trans_eq (mod_cast quantize_whole places mode 1)⟩

/-- Even shares in millionths make up the whole just where a million can be divided so. -/
theorem even_shares {n : Nat} (some_of : 0 < n) :
    (n : Decimal) * quantize 6 .halfUp (1 / n) = 1 ↔ n ∣ 10 ^ 6 := by
  have positive : (0 : Decimal) < n := by exact_mod_cast some_of
  constructor
  · intro whole
    -- the rounded share is a whole number of millionths
    obtain ⟨parts, part⟩ := onGrid_quantize 6 .halfUp (1 / (n : Decimal))
    rw [part] at whole
    have million : (n : ℤ) * parts = 10 ^ 6 := by
      have cast : ((n : ℤ) * parts : Decimal) = 10 ^ 6 := by
        field_simp at whole
        push_cast
        linarith
      exact_mod_cast cast
    exact_mod_cast Dvd.intro parts million
  · rintro ⟨parts, million⟩
    have cast : (10 : Decimal) ^ 6 = n * parts := by exact_mod_cast million
    have grid : OnGrid 6 (1 / (n : Decimal)) := by
      refine ⟨parts, ?_⟩
      rw [cast]
      push_cast
      have counted : (parts : Decimal) ≠ 0 := by
        rintro none_counted
        rw [none_counted, mul_zero] at cast
        norm_num at cast
      field_simp
    rw [show quantize 6 .halfUp (1 / (n : Decimal)) = _ from grid.numeric_eq]
    field_simp

/-- What is true of each percentage of positive capital, where the last one carries the rounding. -/
theorem percentages_eq (nonneg : ∀ capital ∈ capitals, 0 ≤ capital) (positive : 0 < capitals.sum)
    (nonempty : capitals ≠ []) :
    percentages capitals = capitals.dropLast.map (fun capital => quantize 6 .halfUp (capital / capitals.sum)) ++
      [capitals.getLast nonempty / capitals.sum - roundedAway capitals / 10 ^ 6] := by
  have shares : ∀ capital ∈ capitals.dropLast, quantize 6 .halfUp (capital / capitals.sum) =
      capital / capitals.sum + halfUpError (capital / capitals.sum * 10 ^ 6) / 10 ^ 6 := by
    intro capital member
    exact quantize_halfUp 6 (div_nonneg (nonneg capital (List.mem_of_mem_dropLast member)) positive.le)
  have split := sum_dropLast_add (fun capital : Decimal => capital / capitals.sum) nonempty
  rw [sum_map_div capitals, div_self positive.ne'] at split
  -- all shares sum to one, so that the last one lacks what rounding adds to the others
  have rounded : (capitals.dropLast.map fun capital => quantize 6 .halfUp (capital / capitals.sum)).sum =
      (capitals.dropLast.map fun capital => capital / capitals.sum).sum + roundedAway capitals / 10 ^ 6 := by
    rw [List.map_congr_left shares, List.sum_map_add, roundedAway, ← sum_map_div, List.map_map]
    rfl
  rw [percentages, if_neg (not_le.mpr positive), apportion_eq _ _ _ nonempty, rounded, sub_zero]
  congr 2
  linarith

/-- Percentages of positive capital are shares of the whole where the last one can carry the rounding. -/
theorem percentages_bounds_iff (nonneg : ∀ capital ∈ capitals, 0 ≤ capital) (positive : 0 < capitals.sum)
    (nonempty : capitals ≠ []) :
    ((∀ pct ∈ percentages capitals, 0 ≤ pct ∧ pct ≤ 1) ∧
        List.Forall₂ (fun capital pct => capital = 0 → pct = 0) capitals (percentages capitals)) ↔
      roundedAway capitals ≤ capitals.getLastD 0 / capitals.sum * 10 ^ 6 ∧
        (capitals.getLastD 0 = 0 → roundedAway capitals = 0) := by
  have million : (0 : Decimal) < 10 ^ 6 := by positivity
  have unit : ∀ capital ∈ capitals, 0 ≤ capital / capitals.sum ∧ capital / capitals.sum ≤ 1 := by
    intro capital member
    exact ⟨div_nonneg (nonneg capital member) positive.le,
      (div_le_one positive).mpr (List.single_le_sum nonneg capital member)⟩
  have others : ∀ pct ∈ capitals.dropLast.map fun capital => quantize 6 .halfUp (capital / capitals.sum),
      0 ≤ pct ∧ pct ≤ 1 := by
    intro pct member
    obtain ⟨capital, inside, rfl⟩ := List.mem_map.mp member
    obtain ⟨least, most⟩ := unit capital (List.mem_of_mem_dropLast inside)
    exact quantize_unit least most 6 .halfUp
  have whole := (percentages_of_pos positive).1
  have zero : ∀ capital ∈ capitals.dropLast, capital = 0 → quantize 6 .halfUp (capital / capitals.sum) = 0 := by
    rintro capital - rfl
    rw [zero_div, quantize_zero]
  have last : capitals.getLastD 0 = capitals.getLast nonempty := by
    rw [List.getLastD_eq_getLast?, List.getLast?_eq_some_getLast nonempty, Option.getD_some]
  have parts := percentages_eq nonneg positive nonempty
  have at_last : List.Forall₂ (fun capital pct => capital = 0 → pct = 0) capitals (percentages capitals) ↔
      (capitals.getLast nonempty = 0 →
        capitals.getLast nonempty / capitals.sum - roundedAway capitals / 10 ^ 6 = 0) := by
    rw [percentages, if_neg (not_le.mpr positive), forall₂_apportion _ _ _ nonempty, and_iff_right zero]
    rw [percentages, if_neg (not_le.mpr positive), apportion_eq _ _ _ nonempty] at parts
    rw [List.singleton_inj.mp (List.append_cancel_left parts)]
  rw [at_last, last]
  rw [parts, List.sum_append, List.sum_singleton] at whole
  rw [parts, List.forall_mem_append, and_iff_right others, List.forall_mem_singleton]
  -- the shares of the others are not negative, so that the last one is not more than the whole
  have least : 0 ≤ (capitals.dropLast.map fun capital => quantize 6 .halfUp (capital / capitals.sum)).sum :=
    List.sum_nonneg fun pct member => (others pct member).1
  have carried : 0 ≤ capitals.getLast nonempty / capitals.sum - roundedAway capitals / 10 ^ 6 ↔
      roundedAway capitals ≤ capitals.getLast nonempty / capitals.sum * 10 ^ 6 := by
    rw [sub_nonneg, div_le_iff₀ million]
  have nothing : capitals.getLast nonempty = 0 →
      (capitals.getLast nonempty / capitals.sum - roundedAway capitals / 10 ^ 6 = 0 ↔ roundedAway capitals = 0) := by
    intro none_held
    rw [none_held, zero_div, zero_sub, neg_eq_zero, div_eq_zero_iff, or_iff_left million.ne']
  have most : capitals.getLast nonempty / capitals.sum - roundedAway capitals / 10 ^ 6 ≤ 1 := by linarith
  rw [and_iff_left most, carried]
  exact and_congr_right fun _ => forall_congr' fun none_held => nothing none_held

end Percentages

/-- Percentages beside the accounts, for the ids of these. -/
theorem forall₂_zip_ids {p : Decimal → Decimal → Prop} {accounts : List (Nat × Decimal)} {pcts : List Decimal}
    (lengths : accounts.length = pcts.length) :
    List.Forall₂ (fun account share => share.1 = account.1 ∧ p account.2 share.2) accounts
        ((accounts.map (·.1)).zip pcts) ↔ List.Forall₂ p (accounts.map (·.2)) pcts := by
  induction accounts generalizing pcts with
  | nil =>
    rw [List.length_eq_zero_iff.mp lengths.symm]
    simp
  | cons account rest ih =>
    cases pcts with
    | nil => cases lengths
    | cons pct pcts => simp [ih (Nat.succ.inj lengths)]

/-- The percentages are a distribution where, and only where, what the rounding leaves can be shared. -/
theorem distributes_iff {accounts : List (Nat × Decimal)} (nonempty : accounts ≠ [])
    (nonneg : ∀ account ∈ accounts, 0 ≤ account.2) :
    Distributes accounts (recomputeOwnership accounts) ↔ Shareable (accounts.map (·.2)) := by
  have lengths : (accounts.map (·.1)).length = (percentages (accounts.map (·.2))).length := by
    rw [length_percentages, List.length_map, List.length_map]
  have values : (recomputeOwnership accounts).map (·.2) = percentages (accounts.map (·.2)) := by
    rw [recomputeOwnership_eq]
    exact List.map_snd_zip lengths.ge
  have some_of : accounts.map (·.2) ≠ [] := mt List.map_eq_nil_iff.mp nonempty
  have nonneg' : ∀ capital ∈ accounts.map (·.2), 0 ≤ capital := by
    intro capital member
    obtain ⟨account, inside, rfl⟩ := List.mem_map.mp member
    exact nonneg account inside
  have parts : Distributes accounts (recomputeOwnership accounts) ↔
      List.Forall₂ (fun capital pct => 0 < (accounts.map (·.2)).sum → capital = 0 → pct = 0)
          (accounts.map (·.2)) (percentages (accounts.map (·.2))) ∧
        (∀ pct ∈ percentages (accounts.map (·.2)), 0 ≤ pct ∧ pct ≤ 1) ∧
        (percentages (accounts.map (·.2))).sum = 1 := by
    rw [← forall₂_zip_ids (by rwa [List.length_map] at lengths), ← recomputeOwnership_eq, ← values, List.forall_mem_map]
    exact ⟨fun d => ⟨d.each, d.bounds, d.whole⟩, fun d => ⟨d.1, d.2.1, d.2.2⟩⟩
  rw [parts]
  generalize accounts.map (·.2) = capitals at some_of nonneg' ⊢
  unfold Shareable
  rcases (List.sum_nonneg nonneg').eq_or_lt with none_held | positive
  · have counted := List.length_pos_iff.mpr some_of
    have one : (1 : Decimal) ≤ capitals.length := by exact_mod_cast counted
    have even : percentages capitals = List.replicate capitals.length (quantize 6 .halfUp (1 / capitals.length)) := by
      rw [percentages, if_pos none_held.ge, List.map_const']
    rw [if_pos none_held.symm, even, List.sum_replicate, nsmul_eq_mul, even_shares counted]
    refine ⟨fun d => d.2.2, fun divides => ⟨?_, ?_, divides⟩⟩
    · rw [← even]
      apply List.forall₂_iff_get.mpr
      exact ⟨(length_percentages capitals).symm, fun _ _ _ held => absurd none_held held.ne⟩
    · intro pct member
      rw [List.eq_of_mem_replicate member]
      exact quantize_unit (by positivity) ((div_le_one (by positivity)).mpr one) 6 .halfUp
  · rw [if_neg positive.ne', ← percentages_bounds_iff nonneg' positive some_of]
    simp only [positive, true_implies, (percentages_of_pos positive).1, and_true]
    exact and_comm

def shareOfEach (capitals : List Decimal) : List (Nat × Decimal) :=
  capitals.zipIdx.map fun (capital, id) => (id, capital)

theorem distributes_quarters : Distributes (shareOfEach [100, 200, 0, 100]) (recomputeOwnership (shareOfEach [100, 200, 0, 100])) :=
  (distributes_iff (by decide) (by decide +kernel)).mpr (by decide +kernel)

/-- Three accounts without capital share 0.999999 of the fund. -/
theorem thirds_of_nothing :
    ¬ ∀ accounts : List (Nat × Decimal), accounts ≠ [] → (∀ account ∈ accounts, 0 ≤ account.2) →
      Distributes accounts (recomputeOwnership accounts) := by
  intro distributes
  have whole := (distributes (shareOfEach [0, 0, 0]) (by decide) (by decide +kernel)).whole
  have shared : ((recomputeOwnership (shareOfEach [0, 0, 0])).map (·.2)).sum = 999999 / 1000000 := by
    decide +kernel
  rw [shared] at whole
  norm_num at whole

end MiniHedge.CapitalAccounts
