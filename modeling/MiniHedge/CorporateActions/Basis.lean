import MiniHedge.CorporateActions.Agreement
import Mathlib.Tactic.FieldSimp
import Mathlib.Tactic.Linarith

/-! The processor beside the aggregate: what a split leaves of a position, and what it cost.

The adjustments are computed to 28 digits, and the quotient one over the ratio often needs
more. Where nothing is rounded the two agree, and a reverse split undoes a split.
-/

set_option autoImplicit false

namespace MiniHedge.CorporateActions

open MiniHedge.Python MiniHedge.Positions

/-- How many shares are held, and what they cost. -/
@[ext] structure Shares where
  quantity : Decimal
  costBasis : Decimal
  deriving DecidableEq, Repr

namespace Shares

/-- The adjustments that name the instrument are added. -/
def adjusted (held : Shares) (instrumentId : String) (adjustments : List PositionAdjustment) : Shares :=
  let own := adjustments.filter (·.instrumentId = instrumentId)
  { quantity := held.quantity + (own.map (·.quantityDelta)).sum
    costBasis := held.costBasis + (own.map (·.costBasisAdjustment)).sum }

/-- The position of the action's instrument, adjusted as the processor says. -/
def processed (held : Shares) (action : CorporateAction) : Except Exc Shares :=
  (computeAdjustments .default action held.quantity held.costBasis).map (held.adjusted action.instrumentId)

/-- The position that a spinoff opens. -/
def spunOff (held : Shares) (action : CorporateAction) : Except Exc Shares :=
  (computeAdjustments .default action held.quantity held.costBasis).map
    (Shares.adjusted ⟨0, 0⟩ (childInstrument action))

/-- What is multiplied by a ratio and what is divided by it, with no result that is rounded. -/
structure ScalesExactly (up down ratio : Decimal) : Prop where
  more : Fits (ratio - 1)
  quotient : Fits (1 / ratio)
  less : Fits (1 / ratio - 1)
  upDelta : Fits (up * (ratio - 1))
  downDelta : Fits (down * (1 / ratio - 1))

variable {held : Shares} {action : CorporateAction}

/-! ## What the processor says -/

/-- A split multiplies the shares by its ratio, and divides the basis by it. -/
theorem processed_split (typed : action.actionType = ActionType.stockSplit.value) (nonflat : held.quantity ≠ 0)
    (scales : ScalesExactly held.quantity held.costBasis action.ratio) :
    held.processed action = .ok ⟨held.quantity * action.ratio, held.costBasis / action.ratio⟩ := by
  rw [processed, computeAdjustments_typed .default typed, if_neg nonflat]
  simp only [Except.map, adjusted, adjustmentsOf, stockSplit, Context.default, Context.subtract, Context.divide,
    Context.multiply, scales.more.significant_eq, scales.quotient.significant_eq, scales.less.significant_eq,
    scales.upDelta.significant_eq, scales.downDelta.significant_eq, List.filter_cons, decide_true, if_true,
    List.filter_nil, List.map_cons, List.map_nil, List.sum_cons, List.sum_nil, add_zero, Except.ok.injEq,
    Shares.mk.injEq]
  constructor
  · ring
  · ring

/-- A reverse split divides the shares by its ratio, and multiplies the basis by it. -/
theorem processed_reverse (typed : action.actionType = ActionType.reverseSplit.value) (nonflat : held.quantity ≠ 0)
    (scales : ScalesExactly held.costBasis held.quantity action.ratio) :
    held.processed action = .ok ⟨held.quantity / action.ratio, held.costBasis * action.ratio⟩ := by
  rw [processed, computeAdjustments_typed .default typed, if_neg nonflat]
  simp only [Except.map, adjusted, adjustmentsOf, reverseSplit, Context.default, Context.subtract, Context.divide,
    Context.multiply, scales.more.significant_eq, scales.quotient.significant_eq, scales.less.significant_eq,
    scales.upDelta.significant_eq, scales.downDelta.significant_eq, List.filter_cons, decide_true, if_true,
    List.filter_nil, List.map_cons, List.map_nil, List.sum_cons, List.sum_nil, add_zero, Except.ok.injEq,
    Shares.mk.injEq]
  constructor
  · ring
  · ring

theorem childInstrument_ne (action : CorporateAction) : childInstrument action ≠ action.instrumentId := by
  intro same
  have lengths := congrArg String.length same
  rw [childInstrument, String.length_append] at lengths
  have longer : "-SPINOFF".length = 8 := rfl
  omega

/-- A spinoff moves a part of the basis, and as many shares as are held. -/
theorem processed_spinoff (typed : action.actionType = ActionType.spinoff.value) (nonflat : held.quantity ≠ 0) :
    let allocated := significant (held.costBasis * action.amountOr defaultSpinoffAllocation)
    held.processed action = .ok ⟨held.quantity, held.costBasis - allocated⟩ ∧
      held.spunOff action = .ok ⟨held.quantity, allocated⟩ := by
  have other := childInstrument_ne action
  rw [processed, spunOff, computeAdjustments_typed .default typed, if_neg nonflat]
  simp [Except.map, adjusted, adjustmentsOf, spinoff, Context.multiply, Context.default, other, other.symm,
    sub_eq_add_neg]

/-- After a split nothing is rounded in the reverse split of its ratio either. -/
theorem ScalesExactly.back {up down ratio : Decimal} (positive : 0 < ratio) (scales : ScalesExactly up down ratio) :
    ScalesExactly (down / ratio) (up * ratio) ratio where
  more := scales.more
  quotient := scales.quotient
  less := scales.less
  upDelta := by
    have same : down / ratio * (ratio - 1) = -(down * (1 / ratio - 1)) := by field_simp; ring
    rw [same]
    exact scales.downDelta.neg
  downDelta := by
    have same : up * ratio * (1 / ratio - 1) = -(up * (ratio - 1)) := by field_simp; ring
    rw [same]
    exact scales.upDelta.neg

/-- A reverse split of the ratio undoes a split. -/
theorem processed_reversed {back : CorporateAction} (typed : action.actionType = ActionType.stockSplit.value)
    (reverse : back.actionType = ActionType.reverseSplit.value) (same : back.ratio = action.ratio)
    (nonflat : held.quantity ≠ 0) (scales : ScalesExactly held.quantity held.costBasis action.ratio) :
    (held.processed action).bind (fun s => s.processed back) = .ok held := by
  have positive := action.ratio_pos
  let split : Shares := ⟨held.quantity * action.ratio, held.costBasis / action.ratio⟩
  have nonzero : split.quantity ≠ 0 := mul_ne_zero nonflat positive.ne'
  have exactly : ScalesExactly split.costBasis split.quantity back.ratio := same.symm ▸ scales.back positive
  have after := processed_reverse reverse nonzero exactly
  rw [processed_split typed nonflat scales, Except.bind, after]
  simp only [split, same, mul_div_cancel_right₀ _ positive.ne', div_mul_cancel₀ _ positive.ne']

/-! ## What the aggregate says -/

/-- The shares are those that the aggregate holds after a split of the ratio, which keeps its basis. The
basis of the processor is per share: over the shares that were held before, it is the average cost. -/
def AgreesPerShare (held : Shares) (action : CorporateAction) (ratio : Decimal) : Prop :=
  ∃ s, held.processed action = .ok s ∧ (s.costBasis = held.costBasis ↔ ratio = 1) ∧
    ∀ (a : PositionAggregate) (time : Datetime) (d : CorporateActionEventData),
      a.quantity = held.quantity → a.costBasis = held.costBasis → d.splitRatio = ratio →
        ∃ next events, a.apply ⟨.stockSplit, time, .corporateAction d⟩ = .ok (next, events) ∧
          next.quantity = s.quantity ∧ next.costBasis = held.costBasis ∧
            next.avgCost = s.costBasis / held.quantity

theorem apply_split (a : PositionAggregate) (time : Datetime) {d : CorporateActionEventData}
    (nonzero : d.splitRatio ≠ 0) :
    ∃ events, a.apply ⟨.stockSplit, time, .corporateAction d⟩ = .ok (a.split d, events) :=
  a.apply_applicable (.split time d nonzero)

/-- Where the shares are multiplied by the ratio and the basis is divided by it. -/
theorem agreesPerShare {ratio : Decimal}
    (processed : held.processed action = .ok ⟨held.quantity * ratio, held.costBasis / ratio⟩)
    (quantity : 0 < held.quantity) (basis : 0 < held.costBasis) (positive : 0 < ratio) :
    AgreesPerShare held action ratio := by
  refine ⟨_, processed, ?_, ?_⟩
  · rw [div_eq_iff positive.ne', eq_comm, mul_eq_left₀ basis.ne']
  · intro a time d sameQuantity sameBasis sameRatio
    obtain ⟨events, applied⟩ := apply_split a time (sameRatio ▸ positive.ne')
    refine ⟨_, events, applied, ?_, sameBasis, ?_⟩
    · simp only [PositionAggregate.split, sameQuantity, sameRatio]
    · have held_after := mul_pos quantity positive
      simp only [PositionAggregate.avgCost, PositionAggregate.split, sameQuantity, sameBasis, sameRatio]
      rw [if_neg held_after.ne', abs_of_pos held_after]
      field_simp

/-- Between the parent and the child nothing of the basis is lost. -/
def SpinoffConserves (held : Shares) (action : CorporateAction) (fraction : Decimal) : Prop :=
  ∃ parent child, held.processed action = .ok parent ∧ held.spunOff action = .ok child ∧
    parent.quantity = held.quantity ∧ child.quantity = held.quantity ∧
      parent.costBasis + child.costBasis = held.costBasis ∧ 0 ≤ child.costBasis ∧
        (Fits held.costBasis → fraction ≤ 1 → 0 ≤ parent.costBasis) ∧
          (Fits (held.costBasis * fraction) → 1 < fraction → parent.costBasis < 0)

theorem spinoffConserves (typed : action.actionType = ActionType.spinoff.value) (quantity : 0 < held.quantity)
    (basis : 0 < held.costBasis) (nonneg : 0 ≤ action.amountOr defaultSpinoffAllocation) :
    SpinoffConserves held action (action.amountOr defaultSpinoffAllocation) := by
  obtain ⟨parent, child⟩ := processed_spinoff typed quantity.ne'
  have part := mul_nonneg basis.le nonneg
  refine ⟨_, _, parent, child, rfl, rfl, by ring, significant_nonneg part, ?_, ?_⟩
  · intro fits fraction
    exact sub_nonneg.mpr (fits.significant_le part (mul_le_of_le_one_right basis.le fraction))
  · intro fits fraction
    rw [fits.significant_eq]
    exact sub_neg.mpr (lt_mul_of_one_lt_right basis fraction)

end Shares

/-- So many shares for one. -/
def splitInto (ratio : Decimal) : CorporateAction :=
  { actionId := "A1", instrumentId := "AAPL", actionType := "stock_split", amount := some ratio }

/-- A half has one digit. -/
theorem scalesExactly_two : Shares.ScalesExactly 100 10000 2 where
  more := ⟨1, 0, by norm_num, by norm_num⟩
  quotient := ⟨5, -1, by norm_num, by norm_num⟩
  less := ⟨-5, -1, by norm_num, by norm_num⟩
  upDelta := ⟨100, 0, by norm_num, by norm_num⟩
  downDelta := ⟨-5000, 0, by norm_num, by norm_num⟩

end MiniHedge.CorporateActions
