import MiniHedge.Library.Groups
import MiniHedge.Orders.BlockShares
import MiniHedge.Python.Decimal
import Mathlib.Algebra.BigOperators.Ring.List

/-! Whether the legs of a block are shares of it.

The last leg takes what the rounded shares of the others leave, and with it what the
percentages miss of one. The tolerance lets the others have more than all.
-/

set_option autoImplicit false

namespace MiniHedge.Orders

open MiniHedge.Python MiniHedge.Library

/-- The quantities that both loops make of a total and the percentages. -/
def legParts (total : Decimal) (pcts : List Decimal) : List Decimal :=
  apportion (fun pct => quantize 8 .halfEven (total * pct)) total 0 pcts

/-- Quantities that are shares of the total, up to the tolerance and a unit of rounding for each. -/
structure Feasible (total : Decimal) (pcts parts : List Decimal) : Prop where
  nonneg : ∀ part ∈ parts, 0 ≤ part
  whole : parts.sum = total
  close : List.Forall₂ (fun pct part =>
    |part - total * pct| ≤ 1 / 10000 * total + pcts.length / 10 ^ 8) pcts parts

/-- What rounding adds to the shares of all legs but the last. -/
def roundedOn (total : Decimal) (pcts : List Decimal) : Decimal :=
  (pcts.dropLast.map fun pct => roundingError (total * pct * 10 ^ 8) / 10 ^ 8).sum

/-- The other legs, as they are rounded, leave something of the total or nothing for the last. -/
def LastCovered (total : Decimal) (pcts : List Decimal) : Prop :=
  roundedOn total pcts ≤ total * (1 - pcts.dropLast.sum)

/-- What the percentages miss of one and what the roundings add are within the tolerance. -/
def LastWithin (total : Decimal) (pcts : List Decimal) : Prop :=
  |total * (1 - pcts.sum) - roundedOn total pcts| ≤ 1 / 10000 * total + pcts.length / 10 ^ 8

section Parts

variable {total : Decimal} {pcts : List Decimal}

theorem sum_shares : (pcts.dropLast.map fun pct => quantize 8 .halfEven (total * pct)).sum =
    total * pcts.dropLast.sum + roundedOn total pcts := by
  simp only [quantize_halfEven, List.sum_map_add, roundedOn]
  rw [List.sum_map_mul_left, List.map_id']

/-- What is left for the last leg. -/
theorem rest_eq : total - 0 - (pcts.dropLast.map fun pct => quantize 8 .halfEven (total * pct)).sum =
    total * (1 - pcts.dropLast.sum) - roundedOn total pcts := by
  rw [sum_shares]
  ring

theorem legParts_nonneg_iff (positive : 0 < total) (nonempty : pcts ≠ [])
    (nonneg : ∀ pct ∈ pcts, 0 ≤ pct) :
    (∀ part ∈ legParts total pcts, 0 ≤ part) ↔ LastCovered total pcts := by
  rw [legParts, apportion_eq _ _ _ nonempty, List.forall_mem_append, List.forall_mem_singleton,
    rest_eq, sub_nonneg]
  apply and_iff_right
  rw [List.forall_mem_map]
  intro pct inside
  have share := nonneg pct (List.dropLast_subset pcts inside)
  exact quantize_nonneg (by positivity) 8 .halfEven

theorem share_close (positive : 0 < total) {n : ℕ} (some_legs : 1 ≤ n) (pct : Decimal) :
    |quantize 8 .halfEven (total * pct) - total * pct| ≤ 1 / 10000 * total + n / 10 ^ 8 := by
  have error := roundingError_bound (total * pct * 10 ^ 8)
  have legs : (1 : ℚ) ≤ n := by exact_mod_cast some_legs
  rw [quantize_halfEven, add_sub_cancel_left, abs_div, abs_of_pos (by positivity : (0 : ℚ) < 10 ^ 8),
    div_le_iff₀ (by positivity)]
  rw [add_mul, div_mul_cancel₀ _ (by positivity)]
  nlinarith

theorem legParts_close_iff (positive : 0 < total) (nonempty : pcts ≠ []) :
    List.Forall₂ (fun pct part => |part - total * pct| ≤ 1 / 10000 * total + pcts.length / 10 ^ 8)
      pcts (legParts total pcts) ↔ LastWithin total pcts := by
  have last : pcts.dropLast.sum + pcts.getLast nonempty = pcts.sum := by
    simpa using sum_dropLast_add id nonempty
  have rest : total * (1 - pcts.dropLast.sum) - roundedOn total pcts - total * pcts.getLast nonempty =
      total * (1 - pcts.sum) - roundedOn total pcts := by
    rw [← last]
    ring
  rw [legParts, forall₂_apportion _ _ _ nonempty, rest_eq, rest]
  apply and_iff_right
  intro pct inside
  exact share_close positive (List.length_pos_iff.mpr nonempty) pct

/-- The parts are shares of the total exactly when those of all but the last leave room for it, and
are not too far from their percentages. -/
theorem feasible_legParts_iff (positive : 0 < total) (nonempty : pcts ≠ [])
    (nonneg : ∀ pct ∈ pcts, 0 ≤ pct) :
    Feasible total pcts (legParts total pcts) ↔ LastCovered total pcts ∧ LastWithin total pcts := by
  rw [← legParts_nonneg_iff positive nonempty nonneg, ← legParts_close_iff positive nonempty]
  constructor
  · intro feasible
    exact ⟨feasible.nonneg, feasible.close⟩
  · rintro ⟨parts, close⟩
    exact ⟨parts, by rw [legParts, sum_apportion _ _ _ nonempty, sub_zero], close⟩

/-- Percentages that are accepted as they are used leave the last leg within the tolerance. -/
theorem lastWithin_of_tolerance (positive : 0 < total) (accepted : |pcts.sum - 1| ≤ 1 / 10000) :
    LastWithin total pcts := by
  have rounded : |roundedOn total pcts| ≤ pcts.length / 10 ^ 8 := by
    have each : ∀ pct ∈ pcts.dropLast, |roundingError (total * pct * 10 ^ 8) / 10 ^ 8| ≤ 1 / 10 ^ 8 := by
      intro pct _
      rw [abs_div, abs_of_pos (by positivity : (0 : ℚ) < 10 ^ 8)]
      apply div_le_div_of_nonneg_right _ (by positivity)
      exact (roundingError_bound _).trans (by norm_num)
    have length : (pcts.dropLast.length : ℚ) ≤ pcts.length := by
      exact_mod_cast (List.dropLast_sublist pcts).length_le
    calc |roundedOn total pcts| ≤ pcts.dropLast.length • (1 / 10 ^ 8 : ℚ) := abs_sum_le each
      _ = pcts.dropLast.length / 10 ^ 8 := by rw [nsmul_eq_mul, mul_one_div]
      _ ≤ pcts.length / 10 ^ 8 := div_le_div_of_nonneg_right length (by positivity)
  have missed : |total * (1 - pcts.sum)| ≤ 1 / 10000 * total := by
    rw [abs_mul, abs_of_pos positive, abs_sub_comm, mul_comm]
    exact mul_le_mul_of_nonneg_right accepted positive.le
  calc |total * (1 - pcts.sum) - roundedOn total pcts|
      ≤ |total * (1 - pcts.sum)| + |roundedOn total pcts| := abs_sub _ _
    _ ≤ _ := add_le_add missed rounded

end Parts

/-! ## The two loops -/

theorem targetQuantities_eq (request : CreateBlockAllocationRequest) :
    request.targetQuantities = legParts request.totalQuantity (request.legs.map (·.targetPct)) :=
  apportion_map (fun pct => quantize 8 .halfEven (request.totalQuantity * pct)) _ _ _ _

theorem createLegs_targetQuantity (request : CreateBlockAllocationRequest) (allocationId : UUID)
    (legIds : ℕ → UUID) :
    (request.createLegs allocationId legIds).map (·.targetQuantity) =
      legParts request.totalQuantity (request.legs.map (·.targetPct)) := by
  have length : request.targetQuantities.length = request.legs.length := length_apportion _ _ _ _
  rw [← targetQuantities_eq, CreateBlockAllocationRequest.createLegs, map_mapIdx (h := Prod.snd)]
  · exact List.map_snd_zip length.le
  · intro i leg
    rfl

theorem createLegs_targetPct (request : CreateBlockAllocationRequest) (allocationId : UUID)
    (legIds : ℕ → UUID) :
    (request.createLegs allocationId legIds).map (·.targetPct) =
      request.legs.map fun leg => numeric 6 leg.targetPct := by
  have length : request.targetQuantities.length = request.legs.length := length_apportion _ _ _ _
  rw [CreateBlockAllocationRequest.createLegs,
    map_mapIdx (h := (fun leg : AllocationLegRequest => numeric 6 leg.targetPct) ∘ Prod.fst)]
  · rw [← List.map_map, List.map_fst_zip length.ge]
  · intro i leg
    rfl

theorem legFills_fillQty {b : Block} (totalFilled : Decimal) {draws : List UUID}
    (enough : draws.length = b.legs.length) :
    (b.legFills totalFilled draws).map (·.fillQty) =
      legParts totalFilled (b.legs.map (·.targetPct)) := by
  rw [Block.legFills_quantities enough, legParts]
  exact apportion_map (fun pct => quantize 8 .halfEven (totalFilled * pct)) _ _ _ _

theorem tolerance_of_check {request : CreateBlockAllocationRequest} (accepted : request.check = .ok ()) :
    |(request.legs.map (·.targetPct)).sum - 1| ≤ 1 / 10000 := by
  unfold CreateBlockAllocationRequest.check at accepted
  dsimp only at accepted
  split at accepted
  · cases accepted
  · exact not_lt.mp ‹_›

/-! ## Blocks and their runs -/

/-- A block has been created for the request, and keeps the percentages that were stored for it. -/
structure CreatedFor (request : CreateBlockAllocationRequest) (b : Block) : Prop where
  accepted : request.check = .ok ()
  pcts : b.legs.map (·.targetPct) = request.legs.map fun leg => numeric 6 leg.targetPct
  quantities : b.legs.map (·.targetQuantity) =
    legParts request.totalQuantity (request.legs.map (·.targetPct))

variable {request : CreateBlockAllocationRequest} {b next final : Block}

theorem createdFor {gateway : TradeCheckRequest → Bool} {w : World} {ids : BlockIds}
    {placement : Option Placement}
    (created : createBlockAllocation gateway w request ids = .ok (b, placement)) :
    CreatedFor request b := by
  -- the checks change the states of the legs alone
  have legs : request.check = .ok () ∧ ∃ state : AllocationLegRecord → AllocationState,
      b.legs = (request.createLegs ids.allocation ids.legs).map fun leg => { leg with state := state leg } := by
    simp only [createBlockAllocation, Bind.bind, Except.bind, Pure.pure, Except.pure] at created
    cases checked : request.check with
    | error exc => simp [checked] at created
    | ok done =>
      refine ⟨rfl, fun leg => if gateway (request.tradeCheck leg) then .approved else .rejected, ?_⟩
      simp only [checked] at created
      split at created
      · cases created
      · split at created
        · simp only [Except.ok.injEq, Prod.mk.injEq] at created
          rw [← created.1]
        · split at created
          · cases created
          · rename_i executionLeg _
            cases inserted : w.insert executionLeg.fundSlug
                (request.executionOrder executionLeg ids.order) with
            | error exc => simp [inserted] at created
            | ok placed =>
              simp only [inserted, Except.ok.injEq, Prod.mk.injEq] at created
              rw [← created.1]
  obtain ⟨accepted, state, legs⟩ := legs
  constructor
  · exact accepted
  · rw [legs, List.map_map, ← createLegs_targetPct request ids.allocation ids.legs]
    rfl
  · rw [legs, List.map_map, ← createLegs_targetQuantity request ids.allocation ids.legs]
    rfl

/-- A fill changes what its leg has been filled with. -/
theorem fillLeg_legs (avgPrice : Decimal) (b : Block) (fill : LegFill) :
    (b.fillLeg avgPrice fill).legs.map (·.targetPct) = b.legs.map (·.targetPct) ∧
      (b.fillLeg avgPrice fill).legs.map (·.targetQuantity) = b.legs.map (·.targetQuantity) := by
  unfold Block.fillLeg
  split
  · exact ⟨rfl, rfl⟩
  · dsimp only
    rw [List.map_map, List.map_map]
    constructor <;> apply List.map_congr_left <;> intro leg _ <;> dsimp only [Function.comp] <;>
      split <;> rfl

theorem foldl_fillLeg_legs (avgPrice : Decimal) (fills : List LegFill) (b : Block) :
    (fills.foldl (Block.fillLeg avgPrice) b).legs.map (·.targetPct) = b.legs.map (·.targetPct) ∧
      (fills.foldl (Block.fillLeg avgPrice) b).legs.map (·.targetQuantity) =
        b.legs.map (·.targetQuantity) := by
  induction fills generalizing b with
  | nil => exact ⟨rfl, rfl⟩
  | cons fill rest ih =>
    obtain ⟨pcts, quantities⟩ := fillLeg_legs avgPrice b fill
    exact ⟨(ih _).1.trans pcts, (ih _).2.trans quantities⟩

theorem CreatedFor.step {e : Placement} (created : CreatedFor request b) {label : BlockStep}
    (stepped : (Block.system e).step b label = some next) : CreatedFor request next := by
  have kept : next.legs.map (·.targetPct) = b.legs.map (·.targetPct) ∧
      next.legs.map (·.targetQuantity) = b.legs.map (·.targetQuantity) := by
    simp only [Block.system, Block.step] at stepped
    split at stepped
    · cases stepped
      exact ⟨rfl, rfl⟩
    · split at stepped
      · cases stepped
      · split at stepped
        · cases stepped
          exact ⟨rfl, rfl⟩
        · cases stepped
    · split at stepped
      · cases stepped
      · split at stepped
        · split at stepped
          · cases stepped
          · cases stepped
            exact ⟨rfl, rfl⟩
        · cases stepped
    · cases stepped
      exact ⟨rfl, rfl⟩
    · split at stepped
      · cases stepped
        unfold Block.allocateFills
        split
        · exact ⟨rfl, rfl⟩
        · split
          · exact ⟨rfl, rfl⟩
          · exact foldl_fillLeg_legs _ _ _
      · cases stepped
  exact ⟨created.accepted, kept.1.trans created.pcts, kept.2.trans created.quantities⟩

theorem CreatedFor.run {e : Placement} (created : CreatedFor request b) {labels : List BlockStep}
    (ran : (Block.system e).run b labels = some final) : CreatedFor request final :=
  System.invariant_run (fun _ _ _ holds stepped => holds.step stepped) ran created

/-- The targets of a block are feasible exactly when its last leg is covered, and the fills of
`allocate_fills` at any later time exactly when the last leg is covered by the percentages as they
are stored, and is within the tolerance. -/
theorem feasible_iff {gateway : TradeCheckRequest → Bool} {w : World} {ids : BlockIds}
    {placement : Option Placement} {e : Placement} {labels : List BlockStep}
    (created : createBlockAllocation gateway w request ids = .ok (b, placement))
    (ran : (Block.system e).run b labels = some final)
    (nonneg : ∀ leg ∈ request.legs, 0 ≤ leg.targetPct) (some_asked : 0 < request.totalQuantity)
    (totalFilled : Decimal) (some_filled : 0 < totalFilled) (draws : List UUID)
    (enough : draws.length = final.legs.length) :
    (Feasible request.totalQuantity (request.legs.map (·.targetPct)) (b.legs.map (·.targetQuantity)) ↔
      LastCovered request.totalQuantity (request.legs.map (·.targetPct))) ∧
    (Feasible totalFilled (final.legs.map (·.targetPct))
        ((final.legFills totalFilled draws).map (·.fillQty)) ↔
      LastCovered totalFilled (request.legs.map fun leg => numeric 6 leg.targetPct) ∧
        LastWithin totalFilled (request.legs.map fun leg => numeric 6 leg.targetPct)) := by
  have block := createdFor created
  have later := block.run ran
  have some_legs := CreateBlockAllocationRequest.legs_of_check block.accepted
  constructor
  · rw [block.quantities, feasible_legParts_iff some_asked (by simpa using some_legs)]
    · apply and_iff_left
      exact lastWithin_of_tolerance some_asked (tolerance_of_check block.accepted)
    · rw [List.forall_mem_map]
      exact nonneg
  · rw [legFills_fillQty totalFilled enough, later.pcts,
      feasible_legParts_iff some_filled (by simpa using some_legs)]
    rw [List.forall_mem_map]
    intro leg member
    exact numeric_nonneg (nonneg leg member)

section Runs

theorem created_of_quantities {request : CreateBlockAllocationRequest} {ids : BlockIds}
    {quantities : List Decimal}
    (values : (createBlockAllocation (fun _ => true) noOrders request ids).toOption.map (fun made =>
      made.1.legs.map (·.targetQuantity)) = some quantities) :
    ∃ b placement, createBlockAllocation (fun _ => true) noOrders request ids = .ok (b, placement) ∧
      b.legs.map (·.targetQuantity) = quantities := by
  cases created : createBlockAllocation (fun _ => true) noOrders request ids with
  | error exc =>
    rw [created] at values
    cases values
  | ok made =>
    rw [created] at values
    exact ⟨made.1, made.2, rfl, Option.some.inj values⟩

theorem feasible_aBlock : ∃ b placement,
    createBlockAllocation (fun _ => true) noOrders aBlock blockIds = .ok (b, placement) ∧
      Feasible 10 [3 / 5, 2 / 5] (b.legs.map (·.targetQuantity)) := by
  have values : (createBlockAllocation (fun _ => true) noOrders aBlock blockIds).toOption.map (fun made =>
      made.1.legs.map (·.targetQuantity)) = some [6, 4] := by decide +kernel
  obtain ⟨b, placement, created, quantities⟩ := created_of_quantities values
  have two : b.legs.length = 2 := by
    rw [← List.length_map (f := (·.targetQuantity)), quantities]
    rfl
  have covered : LastCovered 10 [3 / 5, 2 / 5] := by
    unfold LastCovered roundedOn
    decide +kernel
  have unmoved : (Block.system aPlacement).run b [] = some b := rfl
  exact ⟨b, placement, created, (feasible_iff created unmoved
    (by decide +kernel) (by decide +kernel) 10 (by norm_num) [⟨6, by decide⟩, ⟨7, by decide⟩]
    two.symm).1.mpr covered⟩

/-- Percentages that sum to a little more than one, the last of them zero. -/
def overAllocated : CreateBlockAllocationRequest where
  instrumentId := "ACME"
  side := .buy
  totalQuantity := 100
  legs := [⟨"alpha", .ofNat 8, 1 / 2⟩, ⟨"beta", .ofNat 9, 5001 / 10000⟩,
    ⟨"gamma", .ofNat 10, 0⟩]

def threeLegIds : BlockIds where
  allocation := .ofNat 1
  legs i := match i with | 0 => .ofNat 2 | 1 => .ofNat 3 | _ => .ofNat 5
  order := .ofNat 4

/-- The last leg is to be sold what the others buy too much. -/
theorem overAllocated_negative : ∃ b placement,
    createBlockAllocation (fun _ => true) noOrders overAllocated threeLegIds = .ok (b, placement) ∧
      ¬ Feasible 100 [1 / 2, 5001 / 10000, 0] (b.legs.map (·.targetQuantity)) := by
  have values : (createBlockAllocation (fun _ => true) noOrders overAllocated threeLegIds).toOption.map
      (fun made => made.1.legs.map (·.targetQuantity)) = some [50, 5001 / 100, -1 / 100] := by
    decide +kernel
  obtain ⟨b, placement, created, quantities⟩ := created_of_quantities values
  refine ⟨b, placement, created, fun feasible => ?_⟩
  have last := feasible.nonneg (-1 / 100) (by simp [quantities])
  norm_num at last

end Runs

end MiniHedge.Orders
