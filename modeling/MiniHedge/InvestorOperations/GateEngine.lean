import MiniHedge.Library.Apportionment
import MiniHedge.Python.Decimal
import Mathlib.Algebra.BigOperators.Ring.List

/-! The gate: requests that exceed a part of the NAV are pro-rated. -/

set_option autoImplicit false

namespace MiniHedge.InvestorOperations

open MiniHedge.Python MiniHedge.Library

/-- `x.quantize(Decimal(10) ** -places, ROUND_DOWN)`: towards zero. -/
def quantizeDown (places : Nat) (x : Decimal) : Decimal :=
  (if 0 ≤ x then ⌊x * 10 ^ places⌋ else -⌊-x * 10 ^ places⌋) / 10 ^ places

structure GateAllocation where
  requestId : Nat
  originalAmount : Decimal
  approvedAmount : Decimal
  prorationPct : Decimal
  deriving DecidableEq, Repr

structure GateCheckResult where
  gateTriggered : Bool
  totalRequested : Decimal
  totalApproved : Decimal
  gateCapacity : Decimal
  allocations : List GateAllocation
  deriving DecidableEq, Repr

/-- The part of the capacity that a request gets, unless it is the last. -/
def prorated (gateCapacity totalRequested : Decimal) (request : Nat × Decimal) : Decimal :=
  quantizeDown 2 (gateCapacity * request.2 / totalRequested)

def checkGate (requests : List (Nat × Decimal)) (fundNav gatePct : Decimal) : GateCheckResult :=
  let gateCapacity := fundNav * gatePct
  let totalRequested := (requests.map (·.2)).sum
  if requests = [] ∨ totalRequested ≤ 0 then ⟨false, 0, 0, gateCapacity, []⟩
  else if totalRequested ≤ gateCapacity then
    ⟨false, totalRequested, totalRequested, gateCapacity,
      requests.map fun (id, amount) => ⟨id, amount, amount, 1⟩⟩
  else
    ⟨true, totalRequested, gateCapacity, gateCapacity,
      requests.zipWith (fun (id, amount) approved =>
          ⟨id, amount, approved, quantizeDown 6 (amount / totalRequested)⟩)
        (apportion (prorated gateCapacity totalRequested) gateCapacity 0 requests)⟩

/-! ## What the gate approves, request by request

The shares are rounded down to cents and the last request takes the rest. That
is more than it asks for as soon as the cents the others lose come to more than
its own share is short of its amount.
-/

section Gate

variable (requests : List (Nat × Decimal)) (fundNav gatePct : Decimal)

def totalRequested : Decimal := (requests.map (·.2)).sum

/-- What is to hold of the result. -/
structure ProRates (result : GateCheckResult) : Prop where
  each : result.allocations.map (fun a => (a.requestId, a.originalAmount)) = requests
  total : (result.allocations.map (·.approvedAmount)).sum =
    min (totalRequested requests) (max (fundNav * gatePct) 0)
  within : ∀ a ∈ result.allocations, 0 ≤ a.approvedAmount ∧ a.approvedAmount ≤ a.originalAmount
  triggered : result.gateTriggered = true ↔ fundNav * gatePct < totalRequested requests

/-- The fraction of a cent that a share loses, in cents. -/
def lostCents (capacity : Decimal) (request : Nat × Decimal) : Decimal :=
  Int.fract (capacity * request.2 / totalRequested requests * 100)

/-- The capacity is not negative; and where it is exceeded, the others lose no more
than the share of the last request is short of its amount. -/
def RemainderFits : Prop :=
  0 ≤ fundNav * gatePct ∧ (fundNav * gatePct < totalRequested requests → ∀ last ∈ requests.getLast?,
    (requests.dropLast.map (lostCents requests (fundNav * gatePct))).sum / 100 ≤
      last.2 * (totalRequested requests - fundNav * gatePct) / totalRequested requests)

instance : Decidable (RemainderFits requests fundNav gatePct) := inferInstanceAs (Decidable (_ ∧ _))

end Gate

/-! ## Shares -/

theorem quantizeDown_nonneg {x : Decimal} (nonneg : 0 ≤ x) :
    quantizeDown 2 x = x - Int.fract (x * 100) / 100 := by
  have scale : (10 : Decimal) ^ 2 = 100 := by norm_num
  rw [quantizeDown, if_pos nonneg, scale, ← Int.self_sub_fract, sub_div,
    mul_div_cancel_right₀ x (by norm_num)]

section Shares

variable {requests : List (Nat × Decimal)} {capacity : Decimal}

theorem requested_pos (positive : ∀ r ∈ requests, 0 < r.2) (nonempty : requests ≠ []) :
    0 < totalRequested requests := by
  refine List.sum_pos _ (fun amount member => ?_) (by simpa using nonempty)
  obtain ⟨r, inside, rfl⟩ := List.mem_map.mp member
  exact positive r inside

/-- The share of a request, without the cents it loses. -/
theorem prorated_eq (nonneg : 0 ≤ capacity) (total : 0 < totalRequested requests)
    {request : Nat × Decimal} (positive : 0 < request.2) :
    prorated capacity (totalRequested requests) request =
      capacity * request.2 / totalRequested requests - lostCents requests capacity request / 100 :=
  quantizeDown_nonneg (by positivity)

/-- A share is rounded down, and never above its amount. -/
theorem prorated_within (nonneg : 0 ≤ capacity) (exceeded : capacity < totalRequested requests)
    {request : Nat × Decimal} (positive : 0 < request.2) :
    0 ≤ prorated capacity (totalRequested requests) request ∧
      prorated capacity (totalRequested requests) request ≤ request.2 := by
  have total : 0 < totalRequested requests := nonneg.trans_lt exceeded
  have lost : 0 ≤ lostCents requests capacity request := Int.fract_nonneg _
  have share : capacity * request.2 / totalRequested requests ≤ request.2 := by
    rw [div_le_iff₀ total, mul_comm]
    exact mul_le_mul_of_nonneg_left exceeded.le positive.le
  constructor
  · have scaled : 0 ≤ capacity * request.2 / totalRequested requests := by positivity
    rw [prorated, quantizeDown, if_pos scaled]
    have floored : 0 ≤ ⌊capacity * request.2 / totalRequested requests * 10 ^ 2⌋ :=
      Int.floor_nonneg.mpr (by positivity)
    have cast : (0 : Decimal) ≤ ⌊capacity * request.2 / totalRequested requests * 10 ^ 2⌋ := by
      exact_mod_cast floored
    positivity
  · rw [prorated_eq nonneg total positive]
    linarith

/-- What the last request takes: its share, and what the others have lost. -/
theorem rest_eq (nonneg : 0 ≤ capacity) (positive : ∀ r ∈ requests, 0 < r.2)
    (nonempty : requests ≠ []) :
    capacity - 0 - (requests.dropLast.map (prorated capacity (totalRequested requests))).sum =
      capacity * (requests.getLast nonempty).2 / totalRequested requests +
        (requests.dropLast.map (lostCents requests capacity)).sum / 100 := by
  have total := requested_pos positive nonempty
  -- every share is linear in its amount, up to the cents it loses
  have shares : requests.dropLast.map (prorated capacity (totalRequested requests)) =
      requests.dropLast.map fun r => capacity / totalRequested requests * r.2 +
        -1 / 100 * lostCents requests capacity r :=
    List.map_congr_left fun r inside => by
      rw [prorated_eq nonneg total (positive r (List.dropLast_subset _ inside))]
      ring
  have whole : totalRequested requests =
      (requests.dropLast.map (·.2)).sum + (requests.getLast nonempty).2 := by
    conv_lhs => rw [totalRequested, ← List.dropLast_append_getLast nonempty]
    simp
  have split : (requests.dropLast.map (·.2)).sum =
      totalRequested requests - (requests.getLast nonempty).2 := by
    rw [whole]
    ring
  rw [shares, List.sum_map_add, List.sum_map_mul_left, List.sum_map_mul_left, split]
  field_simp
  ring

/-- All shares are within their amounts, unless the rest is too much for the last request. -/
theorem shares_within_iff (nonneg : 0 ≤ capacity) (positive : ∀ r ∈ requests, 0 < r.2)
    (nonempty : requests ≠ []) (exceeded : capacity < totalRequested requests) :
    List.Forall₂ (fun r part => 0 ≤ part ∧ part ≤ r.2) requests
        (apportion (prorated capacity (totalRequested requests)) capacity 0 requests) ↔
      (requests.dropLast.map (lostCents requests capacity)).sum / 100 ≤
        (requests.getLast nonempty).2 * (totalRequested requests - capacity) /
          totalRequested requests := by
  have total := requested_pos positive nonempty
  have others : ∀ r ∈ requests.dropLast, 0 ≤ prorated capacity (totalRequested requests) r ∧
      prorated capacity (totalRequested requests) r ≤ r.2 := fun r inside =>
    prorated_within nonneg exceeded (positive r (List.dropLast_subset _ inside))
  have lost : 0 ≤ (requests.dropLast.map (lostCents requests capacity)).sum / 100 := by
    refine div_nonneg (List.sum_nonneg fun x member => ?_) (by norm_num)
    obtain ⟨r, -, rfl⟩ := List.mem_map.mp member
    exact Int.fract_nonneg _
  have amount := positive _ (List.getLast_mem nonempty)
  have own : 0 ≤ capacity * (requests.getLast nonempty).2 / totalRequested requests := by positivity
  have short : (requests.getLast nonempty).2 * (totalRequested requests - capacity) /
      totalRequested requests = (requests.getLast nonempty).2 -
        capacity * (requests.getLast nonempty).2 / totalRequested requests := by
    field_simp
  -- only the upper bound of the last request can fail
  rw [forall₂_apportion _ _ _ nonempty, rest_eq nonneg positive nonempty, short]
  constructor
  · rintro ⟨-, -, upper⟩
    linarith
  · intro fits
    exact ⟨others, by linarith, by linarith⟩

end Shares

/-! ## The result -/

section Result

variable {requests : List (Nat × Decimal)} {fundNav gatePct : Decimal}

/-- The amounts of the allocations, beside the requests that they are for. -/
theorem within_allocations {total : Decimal} {parts : List Decimal}
    (same : parts.length = requests.length) :
    (∀ a ∈ requests.zipWith (fun (id, amount) approved =>
        (⟨id, amount, approved, quantizeDown 6 (amount / total)⟩ : GateAllocation)) parts,
      0 ≤ a.approvedAmount ∧ a.approvedAmount ≤ a.originalAmount) ↔
    List.Forall₂ (fun r part => 0 ≤ part ∧ part ≤ r.2) requests parts := by
  induction requests generalizing parts with
  | nil =>
    rw [List.length_eq_zero_iff.mp same]
    simp
  | cons r rest ih =>
    cases parts with
    | nil => cases same
    | cons part parts =>
      rw [List.zipWith_cons_cons, List.forall_mem_cons, List.forall₂_cons,
        ih (Nat.succ.inj same)]

theorem each_allocation (total : Decimal) {parts : List Decimal}
    (same : parts.length = requests.length) :
    let allocations := requests.zipWith (fun (id, amount) approved =>
      (⟨id, amount, approved, quantizeDown 6 (amount / total)⟩ : GateAllocation)) parts
    allocations.map (fun a => (a.requestId, a.originalAmount)) = requests ∧
      allocations.map (·.approvedAmount) = parts := by
  induction requests generalizing parts with
  | nil =>
    rw [List.length_eq_zero_iff.mp same]
    exact ⟨rfl, rfl⟩
  | cons r rest ih =>
    cases parts with
    | nil => cases same
    | cons part parts =>
      obtain ⟨each, approved⟩ := ih (Nat.succ.inj same)
      exact ⟨congrArg (r :: ·) each, congrArg (part :: ·) approved⟩

/-- Nothing is approved of no requests. -/
theorem proRates_nil : ProRates [] fundNav gatePct (checkGate [] fundNav gatePct) ↔
    0 ≤ fundNav * gatePct := by
  constructor
  · intro rates
    exact not_lt.mp fun negative => nomatch rates.triggered.mpr negative
  · intro nonneg
    refine ⟨rfl, ?_, fun a member => (nomatch member), ⟨fun triggered => (nomatch triggered), ?_⟩⟩
    · exact (min_eq_left (le_max_right _ _)).symm
    · exact fun negative => absurd negative (not_lt.mpr nonneg)

/-- Requests within the capacity get their amounts. -/
theorem proRates_within (positive : ∀ r ∈ requests, 0 < r.2) (nonempty : requests ≠ [])
    (within : totalRequested requests ≤ fundNav * gatePct) :
    ProRates requests fundNav gatePct (checkGate requests fundNav gatePct) := by
  have total := requested_pos positive nonempty
  have stops : ¬ (requests = [] ∨ totalRequested requests ≤ 0) := by
    rw [not_or]
    exact ⟨nonempty, not_le.mpr total⟩
  rw [checkGate, ← totalRequested, if_neg stops, if_pos within]
  refine ⟨by simp [Function.comp_def], ?_, ?_, ?_⟩
  · rw [max_eq_left (total.le.trans within), min_eq_left within]
    simp [Function.comp_def, totalRequested]
  · intro a member
    obtain ⟨r, inside, rfl⟩ := List.mem_map.mp member
    exact ⟨(positive r inside).le, le_rfl⟩
  · exact ⟨fun triggered => (nomatch triggered),
      fun exceeded => absurd exceeded (not_lt.mpr within)⟩

/-- Requests beyond the capacity: the sum is right unless the capacity is negative, and the
bounds are met unless the rest is too much for the last request. -/
theorem proRates_exceeded (positive : ∀ r ∈ requests, 0 < r.2) (nonempty : requests ≠ [])
    (exceeded : fundNav * gatePct < totalRequested requests) :
    ProRates requests fundNav gatePct (checkGate requests fundNav gatePct) ↔
      RemainderFits requests fundNav gatePct := by
  have total := requested_pos positive nonempty
  have stops : ¬ (requests = [] ∨ totalRequested requests ≤ 0) := by
    rw [not_or]
    exact ⟨nonempty, not_le.mpr total⟩
  have length := length_apportion (prorated (fundNav * gatePct) (totalRequested requests))
    (fundNav * gatePct) 0 requests
  have sum := sum_apportion (prorated (fundNav * gatePct) (totalRequested requests))
    (fundNav * gatePct) 0 nonempty
  obtain ⟨each, approved⟩ := each_allocation (totalRequested requests) length
  rw [checkGate, ← totalRequested, if_neg stops, if_neg (not_le.mpr exceeded)]
  have last : requests.getLast? = some (requests.getLast nonempty) :=
    List.getLast?_eq_some_getLast nonempty
  constructor
  · intro rates
    have nonneg : 0 ≤ fundNav * gatePct := by
      by_contra negative
      have sums := rates.total
      simp only [approved, sum] at sums
      rw [max_eq_right (not_le.mp negative).le, min_eq_right total.le, sub_zero] at sums
      exact negative sums.ge
    refine ⟨nonneg, fun _ r found => ?_⟩
    cases last.symm.trans found
    exact (shares_within_iff nonneg positive nonempty exceeded).mp
      ((within_allocations length).mp rates.within)
  · rintro ⟨nonneg, fits⟩
    refine ⟨each, ?_, ?_, iff_of_true rfl exceeded⟩
    · rw [approved, sum, sub_zero, max_eq_left nonneg, min_eq_right exceeded.le]
    · exact (within_allocations length).mpr
        ((shares_within_iff nonneg positive nonempty exceeded).mpr (fits exceeded _ last))

/-- The approved amounts are within the requests and sum to the smaller of what is requested
and what there is, exactly where the capacity is not negative and the rest fits. -/
theorem proRates_iff_remainderFits (positive : ∀ r ∈ requests, 0 < r.2) :
    ProRates requests fundNav gatePct (checkGate requests fundNav gatePct) ↔
      RemainderFits requests fundNav gatePct := by
  by_cases empty : requests = []
  · subst empty
    rw [proRates_nil]
    exact ⟨fun nonneg => ⟨nonneg, fun _ _ found => (nomatch found)⟩, fun fits => fits.1⟩
  · rcases lt_or_ge (fundNav * gatePct) (totalRequested requests) with exceeded | within
    · exact proRates_exceeded positive empty exceeded
    · refine iff_of_true (proRates_within positive empty within) ⟨?_, fun exceeded => ?_⟩
      · exact (requested_pos positive empty).le.trans within
      · exact absurd exceeded (not_lt.mpr within)

end Result

section Cents

/-- A quarter of the NAV is shared out over two requests of half of it each. -/
theorem halves_prorated :
    ProRates [(1, 500), (2, 500)] 1000 (1 / 4) (checkGate [(1, 500), (2, 500)] 1000 (1 / 4)) :=
  (proRates_iff_remainderFits (by decide +kernel)).mpr (by decide +kernel)

/-- Of two cents for three requests of one cent, the last takes both. -/
theorem last_gets_more :
    ¬ ProRates [(1, 1 / 100), (2, 1 / 100), (3, 1 / 100)] (1 / 10) (1 / 5)
      (checkGate [(1, 1 / 100), (2, 1 / 100), (3, 1 / 100)] (1 / 10) (1 / 5)) := by
  intro rates
  have within := (rates.within ⟨3, 1 / 100, 2 / 100, quantizeDown 6 (1 / 3)⟩ (by decide +kernel)).2
  revert within
  decide +kernel

end Cents

end MiniHedge.InvestorOperations
