import MiniHedge.Orders.Family
import Mathlib.Algebra.Order.BigOperators.Group.List

/-! The totals of an algo parent.

A fill of a child leaves the parent behind until the call has read the children
again and written their totals to the parent. The write is skipped when the
state machine refuses the state that follows from the children there are, and
that state is FILLED whenever all of these are.
-/

set_option autoImplicit false

namespace MiniHedge.Orders

open MiniHedge.Python MiniHedge.Positions MiniHedge.Library

/-! ## Totals over several orders -/

def filledOf (orders : List OrderRecord) : Decimal := (orders.map (·.filledQuantity)).sum

def costOf (orders : List OrderRecord) : Decimal :=
  ((orders.filter fun o => 0 < o.filledQuantity).map OrderRecord.cost).sum

def averageOf (orders : List OrderRecord) : Option Decimal :=
  if 0 < filledOf orders then some (costOf orders / filledOf orders) else none

section Lists

variable {orders : List OrderRecord} {change : OrderRecord → OrderRecord}

theorem filledOf_map (same : ∀ o ∈ orders, (change o).totals = o.totals) :
    filledOf (orders.map change) = filledOf orders := by
  rw [filledOf, List.map_map]
  exact congrArg List.sum (List.map_congr_left fun o member => congrArg Prod.fst (same o member))

theorem costOf_map (same : ∀ o ∈ orders, (change o).totals = o.totals) :
    costOf (orders.map change) = costOf orders := by
  have filled : ∀ o ∈ orders, (change o).filledQuantity = o.filledQuantity :=
    fun o member => congrArg Prod.fst (same o member)
  have kept : (orders.filter fun o => 0 < (change o).filledQuantity) =
      orders.filter fun o => 0 < o.filledQuantity :=
    List.filter_congr fun o member => by rw [filled o member]
  rw [costOf, List.filter_map, List.map_map]
  simp only [Function.comp_def, kept]
  refine congrArg List.sum (List.map_congr_left fun o member => ?_)
  exact congrArg Prod.snd (same o (List.mem_filter.mp member).1)

theorem averageOf_map (same : ∀ o ∈ orders, (change o).totals = o.totals) :
    averageOf (orders.map change) = averageOf orders := by
  rw [averageOf, filledOf_map same, costOf_map same, averageOf]

/-- An order with nothing filled changes no total. -/
theorem totals_append {o : OrderRecord} (unfilled : o.filledQuantity = 0) :
    filledOf (orders ++ [o]) = filledOf orders ∧ averageOf (orders ++ [o]) = averageOf orders := by
  have filled : filledOf (orders ++ [o]) = filledOf orders := by simp [filledOf, unfilled]
  have cost : costOf (orders ++ [o]) = costOf orders := by simp [costOf, unfilled]
  exact ⟨filled, by rw [averageOf, filled, cost, averageOf]⟩

/-- Orders without a price are left out of the cost, to which they add nothing. -/
theorem costOf_priced (orders : List OrderRecord) :
    ((orders.filter fun o => o.avgFillPrice ≠ none ∧ 0 < o.filledQuantity).map
      OrderRecord.cost).sum = costOf orders := by
  induction orders with
  | nil => rfl
  | cons o orders ih =>
    simp only [costOf] at ih ⊢
    by_cases filled : 0 < o.filledQuantity
    · by_cases priced : o.avgFillPrice = none
      · simp only [List.filter_cons, priced, filled, ne_eq, not_true_eq_false, false_and,
          decide_false, Bool.false_eq_true, if_false, decide_true, if_true, List.map_cons,
          List.sum_cons, OrderRecord.cost, Option.getD_none, zero_mul, zero_add]
        exact ih
      · simp only [List.filter_cons, priced, filled, ne_eq, not_false_eq_true, and_self,
          decide_true, if_true, List.map_cons, List.sum_cons]
        rw [← ih]
    · simp only [List.filter_cons, filled, and_false, decide_false, Bool.false_eq_true, if_false]
      exact ih

end Lists

/-! ## The state that follows from the children -/

/-- The states in which a parent takes the state of its children. -/
def OrderState.Accepts (childStates : List OrderState) : OrderState → Prop
  | .working => True
  | .partiallyFilled => (∃ s ∈ childStates, s = .filled ∨ s = .partiallyFilled) ∨
      ∀ s ∈ childStates, s = .cancelled
  | .filled => ∀ s ∈ childStates, s = .filled
  | .cancelled => ∀ s ∈ childStates, s = .cancelled
  | .draft | .pendingCompliance | .approved | .rejected | .sent => False

instance (childStates : List OrderState) : (state : OrderState) →
    Decidable (state.Accepts childStates)
  | .working => inferInstanceAs (Decidable True)
  | .partiallyFilled => inferInstanceAs (Decidable (_ ∨ _))
  | .filled | .cancelled => inferInstanceAs (Decidable (∀ s ∈ childStates, _))
  | .draft | .pendingCompliance | .approved | .rejected | .sent => inferInstanceAs (Decidable False)

theorem deriveParentState_filled {childStates : List OrderState}
    (derived : deriveParentState childStates = .filled) : ∀ s ∈ childStates, s = .filled := by
  unfold deriveParentState at derived
  split at derived
  · cases derived
  · split at derived
    · assumption
    · split at derived
      · cases derived
      · split at derived <;> cases derived

theorem OrderState.Accepts.derived {childStates : List OrderState} {state : OrderState}
    (accepts : state.Accepts childStates) (nonempty : childStates ≠ []) :
    deriveParentState childStates = state ∨ deriveParentState childStates ∈ state.transitions := by
  unfold deriveParentState
  rw [if_neg nonempty]
  by_cases filled : ∀ s ∈ childStates, s = .filled
  · rw [if_pos filled]
    cases state with
    | working | partiallyFilled => exact .inr (by decide)
    | filled => exact .inl rfl
    | cancelled =>
      obtain ⟨s, rest, rfl⟩ := List.exists_cons_of_ne_nil nonempty
      have clash := (filled s (List.mem_cons_self ..)).symm.trans (accepts s (List.mem_cons_self ..))
      cases clash
    | draft | pendingCompliance | approved | rejected | sent => exact accepts.elim
  · rw [if_neg filled]
    by_cases cancelled : ∀ s ∈ childStates, s = .cancelled
    · rw [if_pos cancelled]
      cases state with
      | working | partiallyFilled => exact .inr (by decide)
      | filled => exact absurd accepts filled
      | cancelled => exact .inl rfl
      | draft | pendingCompliance | approved | rejected | sent => exact accepts.elim
    · rw [if_neg cancelled]
      cases state with
      | working =>
        split
        · exact .inr (by decide)
        · exact .inl rfl
      | partiallyFilled =>
        rw [if_pos (accepts.resolve_right cancelled)]
        exact .inl rfl
      | filled => exact absurd accepts filled
      | cancelled => exact absurd accepts cancelled
      | draft | pendingCompliance | approved | rejected | sent => exact accepts.elim

theorem parentUpdate_eq_some {parent : OrderRecord} {children : List OrderRecord} {u : Update}
    (updated : parentUpdate parent children = some u) :
    u.state = deriveParentState (children.map (·.state)) ∧
      u.filledQuantity = some (filledOf children) ∧ u.avgFillPrice = averageOf children := by
  unfold parentUpdate at updated
  split at updated
  · cases updated
  · simp only [costOf_priced] at updated
    split at updated
    · cases updated
    · cases updated
      exact ⟨rfl, rfl, rfl⟩

theorem parentUpdate_of_accepts {parent : OrderRecord} {children : List OrderRecord}
    (nonempty : children ≠ []) (accepts : parent.state.Accepts (children.map (·.state))) :
    ∃ u, parentUpdate parent children = some u := by
  have derived := accepts.derived (by simpa using nonempty)
  unfold parentUpdate
  rw [if_neg nonempty]
  dsimp only
  rw [if_neg]
  · exact ⟨_, rfl⟩
  · rintro ⟨other, refused⟩
    rcases derived with same | allowed
    · exact other same
    · exact refused allowed

/-! ## Calls that have yet to write the parent -/

def FillStep.Recomputes : FillStep → Prop
  | .reread | .publishTrade _ | .publishFilled _ | .readParent _ | .readChildren _ _
  | .updateParent _ _ _ => True
  | .update | .rereadParent _ _ | .returned _ | .raised _ => False

instance : (step : FillStep) → Decidable step.Recomputes
  | .reread | .publishTrade _ | .publishFilled _ | .readParent _ | .readChildren _ _
  | .updateParent _ _ _ => inferInstanceAs (Decidable True)
  | .update | .rereadParent _ _ | .returned _ | .raised _ => inferInstanceAs (Decidable False)

/-- The order that the call inserts a child of. -/
def Process.slicing : Process → Option OrderRecord
  | .slice _ (.insert parent) => some parent
  | _ => none

section Parent

variable (fundSlug : String) (id : UUID)

/-- The call has filled a child of the parent, and the parent does not count it yet. -/
def Process.Recomputes (p : Process) : Prop :=
  ∃ held ∈ p.storing, held.1.fundSlug = fundSlug ∧ held.1.order.parentOrderId = some id ∧
    held.2.Recomputes

instance (p : Process) : Decidable (p.Recomputes fundSlug id) :=
  inferInstanceAs (Decidable (∃ held ∈ p.storing, _))

/-- The totals of the parent are those of its children, the average as its column keeps
it, and it is FILLED only when they reach its quantity. -/
def FollowsChildren (w : World) : Prop :=
  ∃ parent, w.order fundSlug id = some parent ∧
    parent.filledQuantity = filledOf (w.childrenOf fundSlug id) ∧
    (∀ average ∈ averageOf (w.childrenOf fundSlug id), parent.avgFillPrice = some (numeric 8 average)) ∧
    (parent.state = .filled → parent.quantity ≤ parent.filledQuantity)

instance (w : World) : Decidable (FollowsChildren fundSlug id w) :=
  match found : w.order fundSlug id with
  | none => isFalse (by simp [FollowsChildren, found])
  | some parent =>
    decidable_of_iff (parent.filledQuantity = filledOf (w.childrenOf fundSlug id) ∧
      (∀ average ∈ averageOf (w.childrenOf fundSlug id), parent.avgFillPrice = some (numeric 8 average)) ∧
      (parent.state = .filled → parent.quantity ≤ parent.filledQuantity))
      (by simp [FollowsChildren, found])

/-- The calls are for children: no fill is one of the parent itself, and what is
sliced is not a slice. -/
def ForChildren (p : Process) : Prop :=
  (∀ f ∈ p.unwritten, f.fundSlug = fundSlug → f.order.id ≠ id) ∧
    ∀ parent ∈ p.slicing, parent.parentOrderId = none

instance (p : Process) : Decidable (ForChildren fundSlug id p) :=
  inferInstanceAs (Decidable (_ ∧ _))

/-- What has to hold of the parent and the children at the statements that
recompute the parent. -/
def FillStep.Settles (w : World) (others : List Process) : FillStep → Prop
  | .readChildren _ parent => parent.id = id →
      parent.state.Accepts ((w.childrenOf fundSlug id).map (·.state)) ∧
      ((∀ c ∈ w.childrenOf fundSlug id, c.state = .filled) →
        parent.quantity ≤ ((w.childrenOf fundSlug id).map (·.quantity)).sum)
  | .updateParent _ parent u => parent.id = id →
      (∃ q ∈ others, q.Recomputes fundSlug id) ∨
      (u.filledQuantity = some (filledOf (w.childrenOf fundSlug id)) ∧
        u.avgFillPrice = averageOf (w.childrenOf fundSlug id))
  | _ => True

instance (w : World) (others : List Process) : (step : FillStep) →
    Decidable (step.Settles fundSlug id w others)
  | .readChildren _ _ | .updateParent _ _ _ => inferInstanceAs (Decidable (_ → _))
  | .update | .reread | .publishTrade _ | .publishFilled _ | .readParent _ | .rereadParent _ _
  | .returned _ | .raised _ => inferInstanceAs (Decidable True)

/-- The parent is open for what its children make of it, they cover its quantity
once all of them are filled, and none is filled between the read of the children
and the write of the parent. -/
def Settles (w : World) (others : List Process) (p : Process) : Prop :=
  ∀ held ∈ p.storing, held.1.fundSlug = fundSlug → held.2.Settles fundSlug id w others

end Parent

/-! ## What the calls know -/

section Informed

variable (fundSlug : String) (id : UUID) (w : World)

/-- What the steps after a fill hold of the orders they have read. -/
def FillStep.Informed (f : Fill) : FillStep → Prop
  | .publishTrade order | .publishFilled order | .readParent order =>
    order.parentOrderId = f.order.parentOrderId
  | .readChildren _ parent =>
    f.order.parentOrderId = some parent.id ∧ w.Knows f.fundSlug parent
  | .updateParent _ parent u =>
    f.order.parentOrderId = some parent.id ∧ w.Knows f.fundSlug parent ∧
      (f.fundSlug = fundSlug → parent.id = id → u.state = .filled →
        ∃ filled, u.filledQuantity = some filled ∧ parent.quantity ≤ filled)
  | .update | .reread | .rereadParent _ _ | .returned _ | .raised _ => True

def FillStage.Informed (f : Fill) : FillStage → Prop
  | .insert => w.Knows f.fundSlug f.order
  | .stored _ step => w.Knows f.fundSlug f.order ∧ step.Informed fundSlug id w f
  | .raised _ => True

def Process.Informed : Process → Prop
  | .report _ (.filling f stage) | .submission _ (.filling f stage) | .slice _ (.filling f stage) =>
    stage.Informed fundSlug id w f
  | .submission s (.submit order) | .submission s (.acknowledge order _) => w.Knows s.fundSlug order
  | .slice s (.insert parent) => parent.id = s.parentOrderId ∧ w.Knows s.fundSlug parent
  | .slice s (.submit child) | .slice s (.acknowledge child _) => w.Knows s.fundSlug child
  | _ => True

/-- The rows of the parent and of its children fit together. -/
structure Sound : Prop where
  parent : ∃ o, w.order fundSlug id = some o ∧ o.parentOrderId = none
  unique : ∀ o ∈ (w.schemas fundSlug).orders, w.order fundSlug o.id = some o
  flat : ∀ o ∈ (w.schemas fundSlug).orders, ∀ up, o.parentOrderId = some up →
    ∃ row, w.order fundSlug up = some row ∧ row.parentOrderId = none
  children : ∀ c ∈ w.childrenOf fundSlug id, c.state = .filled → c.quantity ≤ c.filledQuantity
  filled : ∀ o, w.order fundSlug id = some o → o.state = .filled → o.quantity ≤ o.filledQuantity

end Informed

variable {fundSlugs : List String} {fundSlug : String} {id : UUID} {w w' : World}
  {p p' : Process} {input : Input}

theorem FillStep.Informed.mono {f : Fill} {step : FillStep}
    (informed : step.Informed fundSlug id w f) (keeps : w.Keeps w') :
    step.Informed fundSlug id w' f := by
  cases step with
  | readChildren order parent => exact ⟨informed.1, informed.2.mono keeps⟩
  | updateParent order parent u => exact ⟨informed.1, informed.2.1.mono keeps, informed.2.2⟩
  | publishTrade order | publishFilled order | readParent order => exact informed
  | update | reread | rereadParent order parent | returned order | raised exc => trivial

theorem FillStage.Informed.mono {f : Fill} {stage : FillStage}
    (informed : stage.Informed fundSlug id w f) (keeps : w.Keeps w') :
    stage.Informed fundSlug id w' f := by
  cases stage with
  | insert => exact World.Knows.mono informed keeps
  | stored tradeId step => exact ⟨informed.1.mono keeps, informed.2.mono keeps⟩
  | raised exc => trivial

theorem Process.Informed.mono (informed : p.Informed fundSlug id w) (keeps : w.Keeps w') :
    p.Informed fundSlug id w' := by
  unfold Process.Informed at informed ⊢
  split
  · exact FillStage.Informed.mono informed keeps
  · exact FillStage.Informed.mono informed keeps
  · exact FillStage.Informed.mono informed keeps
  · exact World.Knows.mono informed keeps
  · exact World.Knows.mono informed keeps
  · exact ⟨informed.1, World.Knows.mono informed.2 keeps⟩
  · exact World.Knows.mono informed keeps
  · exact World.Knows.mono informed keeps
  · trivial

/-- FILLED children have filled what they are for. -/
theorem Sound.covered (sound : Sound fundSlug id w)
    (filled : ∀ c ∈ w.childrenOf fundSlug id, c.state = .filled) :
    ((w.childrenOf fundSlug id).map (·.quantity)).sum ≤ filledOf (w.childrenOf fundSlug id) :=
  List.sum_le_sum fun c member => sound.children c member (filled c member)

theorem advanceStep_informed {f : Fill} {tradeId : UUID} {step step' : FillStep}
    {others : List Process} (sound : Sound fundSlug id w) (knows : w.Knows f.fundSlug f.order)
    (informed : step.Informed fundSlug id w f)
    (settles : f.fundSlug = fundSlug → step.Settles fundSlug id w others)
    (advanced : advanceStep w f tradeId step = some (w', step')) :
    step'.Informed fundSlug id w f := by
  cases step with
  | update =>
    simp only [advanceStep] at advanced
    split at advanced <;> cases advanced <;> trivial
  | reread =>
    obtain ⟨row, stored, parent, -⟩ := knows
    simp only [advanceStep, stored] at advanced
    cases advanced
    exact parent
  | publishTrade order =>
    cases advanced
    exact informed
  | publishFilled order =>
    simp only [advanceStep, Option.some.injEq, Prod.mk.injEq] at advanced
    obtain ⟨-, rfl⟩ := advanced
    split
    · exact informed
    · trivial
  | readParent order =>
    simp only [advanceStep] at advanced
    split at advanced
    · cases advanced
      trivial
    · rename_i parent found
      cases advanced
      obtain ⟨up, link, read⟩ := Option.bind_eq_some_iff.mp found
      refine ⟨?_, World.knows_of_order read⟩
      rw [← show order.parentOrderId = f.order.parentOrderId from informed, link,
        World.id_of_order read]
  | readChildren order parent =>
    simp only [advanceStep] at advanced
    split at advanced
    · cases advanced
      trivial
    · rename_i u updated
      cases advanced
      refine ⟨informed.1, informed.2, ?_⟩
      rintro rfl rfl state
      obtain ⟨derived, total, -⟩ := parentUpdate_eq_some updated
      refine ⟨_, total, ?_⟩
      have filled : ∀ c ∈ w.childrenOf f.fundSlug parent.id, c.state = .filled := by
        intro c member
        exact deriveParentState_filled (derived.symm.trans state) c.state
          (List.mem_map_of_mem member)
      exact ((settles rfl rfl).2 filled).trans (sound.covered filled)
  | updateParent order parent u =>
    cases advanced
    trivial
  | rereadParent order parent =>
    simp only [advanceStep] at advanced
    split at advanced <;> cases advanced <;> trivial
  | returned order | raised exc => cases advanced

theorem advanceFill_informed {f : Fill} {draw : UUID} {now : Datetime} {stage stage' : FillStage}
    {others : List Process} (sound : Sound fundSlug id w)
    (filling : p.filling = some (f, stage)) (informed : stage.Informed fundSlug id w f)
    (settles : Settles fundSlug id w others p)
    (advanced : advanceFill w f draw now stage = some (w', stage')) :
    stage'.Informed fundSlug id w f := by
  cases stage with
  | insert =>
    simp only [advanceFill] at advanced
    split at advanced
    · cases advanced
      trivial
    · cases advanced
      exact ⟨informed, trivial⟩
  | stored tradeId step =>
    simp only [advanceFill, Option.map_eq_some_iff, Prod.mk.injEq] at advanced
    obtain ⟨⟨next, step'⟩, moved, rfl, rfl⟩ := advanced
    have held : p.storing = some (f, step) := by simp [Process.storing, filling]
    exact ⟨informed.1, advanceStep_informed sound informed.1 informed.2 (settles _ held) moved⟩
  | raised exc => cases advanced

theorem Fill.start_informed {f : Fill} (knows : w.Knows f.fundSlug f.order) :
    f.start.Informed fundSlug id w f := by
  unfold Fill.start
  split
  · trivial
  · exact knows

theorem Report.advance_informed {r : Report} {stage stage' : ReportStage} {others : List Process}
    (sound : Sound fundSlug id w) (informed : (Process.report r stage).Informed fundSlug id w)
    (settles : Settles fundSlug id w others (.report r stage))
    (moved : r.advance w input stage = some (w', stage')) :
    (Process.report r stage').Informed fundSlug id w := by
  cases stage with
  | locating pending =>
    cases pending with
    | nil => cases moved
    | cons slug pending =>
      simp only [Report.advance] at moved
      split at moved
      · cases moved
        trivial
      · split at moved
        · cases moved
          trivial
        · rename_i order found
          split at moved
          · cases moved
            exact Fill.start_informed (World.knows_of_order found)
          · cases moved
            trivial
  | filling f stage =>
    simp only [Report.advance, Option.map_eq_some_iff, Prod.mk.injEq] at moved
    obtain ⟨⟨last, stage''⟩, filled, rfl, rfl⟩ := moved
    exact advanceFill_informed sound rfl informed settles filled
  | ignored | raised exc => cases moved

theorem Submission.advance_informed {s : Submission} {stage stage' : SubmissionStage} {others : List Process}
    (sound : Sound fundSlug id w) (informed : (Process.submission s stage).Informed fundSlug id w)
    (settles : Settles fundSlug id w others (.submission s stage))
    (moved : s.advance w input stage = some (w', stage')) :
    (Process.submission s stage').Informed fundSlug id w := by
  cases stage with
  | rereadSent =>
    simp only [Submission.advance] at moved
    split at moved
    · cases moved
      trivial
    · rename_i order found
      cases moved
      exact World.knows_of_order found
  | submit order =>
    cases moved
    exact informed
  | acknowledge order ack =>
    cases ack with
    | acknowledged =>
      cases moved
      trivial
    | filled avg quantity =>
      cases moved
      exact Fill.start_informed informed
    | rejected =>
      simp only [Submission.advance] at moved
      split at moved <;> cases moved <;> trivial
  | filling f stage =>
    simp only [Submission.advance, Option.map_eq_some_iff, Prod.mk.injEq] at moved
    obtain ⟨⟨last, stage''⟩, filled, rfl, rfl⟩ := moved
    exact advanceFill_informed sound rfl informed settles filled
  | transition order | rereadRejected =>
    simp only [Submission.advance] at moved
    split at moved <;> cases moved <;> trivial
  | returned order | raised exc => cases moved

theorem Slice.advance_informed {s : Slice} {stage stage' : SliceStage} {others : List Process}
    (sound : Sound fundSlug id w) (informed : (Process.slice s stage).Informed fundSlug id w)
    (settles : Settles fundSlug id w others (.slice s stage))
    (moved : s.advance w input stage = some (w', stage')) :
    (Process.slice s stage').Informed fundSlug id w := by
  cases stage with
  | readParent =>
    simp only [Slice.advance] at moved
    split at moved
    · cases moved
      trivial
    · rename_i parent found
      cases moved
      exact ⟨World.id_of_order found, World.knows_of_order found⟩
  | insert parent =>
    simp only [Slice.advance] at moved
    split at moved
    · split at moved <;> cases moved <;> trivial
    · cases moved
      trivial
  | rereadSent childId =>
    simp only [Slice.advance] at moved
    split at moved
    · cases moved
      trivial
    · rename_i child found
      cases moved
      exact World.knows_of_order found
  | submit child =>
    cases moved
    exact informed
  | acknowledge child ack =>
    cases ack with
    | filled avg quantity =>
      cases moved
      exact Fill.start_informed informed
    | acknowledged | rejected =>
      cases moved
      trivial
  | filling f stage =>
    simp only [Slice.advance, Option.map_eq_some_iff, Prod.mk.injEq] at moved
    obtain ⟨⟨last, stage''⟩, filled, rfl, rfl⟩ := moved
    exact advanceFill_informed sound rfl informed settles filled
  | refresh childId | approve child | rereadApproved childId | send child =>
    simp only [Slice.advance] at moved
    split at moved <;> cases moved <;> trivial
  | returned child | raised exc => cases moved

/-- What a call has read before the turn or reads in it. -/
theorem Process.advance_informed {others : List Process} (sound : Orders.Sound fundSlug id w)
    (informed : p.Informed fundSlug id w) (settles : Settles fundSlug id w others p)
    (advanced : p.advance fundSlugs w input = some (w', p')) : p'.Informed fundSlug id w := by
  cases p with
  | execution r =>
    simp only [Process.advance] at advanced
    split at advanced
    · cases advanced
      trivial
    · cases advanced
  | report r stage =>
    simp only [Process.advance, Option.map_eq_some_iff, Prod.mk.injEq] at advanced
    obtain ⟨⟨next, stage'⟩, moved, rfl, rfl⟩ := advanced
    exact Report.advance_informed sound informed settles moved
  | cancel c stage =>
    simp only [Process.advance, Option.map_eq_some_iff, Prod.mk.injEq] at advanced
    obtain ⟨⟨next, stage'⟩, moved, rfl, rfl⟩ := advanced
    trivial
  | submission s stage =>
    simp only [Process.advance, Option.map_eq_some_iff, Prod.mk.injEq] at advanced
    obtain ⟨⟨next, stage'⟩, moved, rfl, rfl⟩ := advanced
    exact Submission.advance_informed sound informed settles moved
  | slice s stage =>
    simp only [Process.advance, Option.map_eq_some_iff, Prod.mk.injEq] at advanced
    obtain ⟨⟨next, stage'⟩, moved, rfl, rfl⟩ := advanced
    exact Slice.advance_informed sound informed settles moved

/-! ## The rows -/

theorem World.mem_of_order {o : OrderRecord} (found : w.order fundSlug id = some o) :
    o ∈ (w.schemas fundSlug).orders :=
  List.mem_of_find?_eq_some found

theorem Fill.update_filled {f : Fill} {u : Update} (updated : f.update = .ok u) :
    u.filledQuantity = some f.newFilled ∧ (u.state = .filled → f.order.quantity ≤ f.newFilled) := by
  cases priced : f.avgPrice with
  | error exc => simp [Fill.update, priced, Bind.bind, Except.bind] at updated
  | ok avg =>
    cases applied : applyTransition f.order.state f.targetState with
    | error exc => simp [Fill.update, priced, applied, Bind.bind, Except.bind] at updated
    | ok state =>
      obtain ⟨-, rfl⟩ := applyTransition_eq_ok applied
      simp only [Fill.update, priced, applied, Bind.bind, Except.bind, Pure.pure, Except.pure,
        Except.ok.injEq] at updated
      subst updated
      refine ⟨rfl, fun filled => ?_⟩
      by_contra short
      simp [Fill.targetState, short] at filled

/-- What has been read of an order is so of the child with its identifier. -/
theorem Sound.child_known (sound : Sound fundSlug id w) {c o : OrderRecord}
    (member : c ∈ w.childrenOf fundSlug id) (knows : w.Knows fundSlug o) (same : c.id = o.id) :
    o.parentOrderId = some id ∧ c.quantity = o.quantity := by
  obtain ⟨stored, child⟩ := World.mem_childrenOf.mp member
  obtain ⟨row, found, parent, quantity⟩ := knows
  have row_eq : row = c := by
    have own := sound.unique c stored
    rw [same, found] at own
    exact Option.some.inj own
  subst row_eq
  exact ⟨parent ▸ child, quantity⟩

/-- The parent of an order that has been read is not a child. -/
theorem Sound.parent_not_child (sound : Sound fundSlug id w) {o : OrderRecord} {up : UUID}
    (knows : w.Knows fundSlug o) (link : o.parentOrderId = some up) :
    ∀ c ∈ w.childrenOf fundSlug id, c.id ≠ up := by
  rintro c member rfl
  obtain ⟨row, found, parent, -⟩ := knows
  obtain ⟨top, read, root⟩ := sound.flat row (World.mem_of_order found) c.id (parent.trans link)
  obtain ⟨stored, child⟩ := World.mem_childrenOf.mp member
  rw [sound.unique c stored] at read
  rw [← Option.some.inj read, child] at root
  cases root

theorem Sound.congr (sound : Sound fundSlug id w)
    (same : (w'.schemas fundSlug).orders = (w.schemas fundSlug).orders) :
    Sound fundSlug id w' where
  parent := by
    rw [World.order_congr same]
    exact sound.parent
  unique := by
    intro o member
    rw [World.order_congr same]
    exact sound.unique o (same ▸ member)
  flat := by
    intro o member up link
    rw [World.order_congr same]
    exact sound.flat o (same ▸ member) up link
  children := by
    rw [World.childrenOf_congr same]
    exact sound.children
  filled := by
    rw [World.order_congr same]
    exact sound.filled

theorem Sound.insert (sound : Sound fundSlug id w) {child : OrderRecord}
    (inserted : w.insert fundSlug child = .ok w') (draft : child.state ≠ .filled)
    (rooted : ∀ up, child.parentOrderId = some up →
      ∃ row, w.order fundSlug up = some row ∧ row.parentOrderId = none) :
    Sound fundSlug id w' := by
  obtain ⟨new, rows⟩ := World.insert_cases inserted
  have kept : ∀ {key row}, w.order fundSlug key = some row → w'.order fundSlug key = some row := by
    intro key row found
    rw [World.order_insert inserted, found, Option.some_or]
  have rows : ∀ {o}, o ∈ (w'.schemas fundSlug).orders →
      o ∈ (w.schemas fundSlug).orders ∨ o = child := by
    intro o member
    simpa [rows fundSlug] using member
  refine ⟨?_, fun o member => ?_, fun o member up link => ?_, fun c member => ?_, fun o found => ?_⟩
  · obtain ⟨o, found, root⟩ := sound.parent
    exact ⟨o, kept found, root⟩
  · rcases rows member with old | rfl
    · exact kept (sound.unique o old)
    · rw [World.order_insert inserted, new]
      simp
  · have above : ∃ row, w.order fundSlug up = some row ∧ row.parentOrderId = none := by
      rcases rows member with old | rfl
      · exact sound.flat o old up link
      · exact rooted up link
    obtain ⟨row, found, root⟩ := above
    exact ⟨row, kept found, root⟩
  · obtain ⟨stored, own⟩ := World.mem_childrenOf.mp member
    rcases rows stored with old | rfl
    · exact sound.children c (World.mem_childrenOf.mpr ⟨old, own⟩)
    · exact fun filled => absurd filled draft
  · obtain ⟨parent, stored, -⟩ := sound.parent
    have same : parent = o := Option.some.inj ((kept stored).symm.trans found)
    exact sound.filled o (same ▸ stored)

theorem Sound.updateState (sound : Sound fundSlug id w) {key : UUID} {u : Update}
    (child : ∀ c ∈ w.childrenOf fundSlug id, c.id = key → u.state = .filled →
      c.quantity ≤ (u.set c).filledQuantity)
    (parent : ∀ o, w.order fundSlug id = some o → id = key → u.state = .filled →
      o.quantity ≤ (u.set o).filledQuantity) :
    Sound fundSlug id (w.updateState fundSlug key u) := by
  have keeps : w.Keeps (w.updateState fundSlug key u) := World.Keeps.updateState u
  have member_iff : ∀ {o}, o ∈ ((w.updateState fundSlug key u).schemas fundSlug).orders →
      ∃ row ∈ (w.schemas fundSlug).orders,
        o = (if fundSlug = fundSlug ∧ row.id = key then u.set row else row) := by
    intro o member
    rw [World.orders_updateState, List.mem_map] at member
    obtain ⟨row, stored, rfl⟩ := member
    exact ⟨row, stored, rfl⟩
  refine ⟨?_, fun o member => ?_, fun o member up link => ?_, fun c member => ?_, fun o found => ?_⟩
  · obtain ⟨o, found, root⟩ := sound.parent
    obtain ⟨o', found', up, -⟩ := keeps fundSlug id o found
    exact ⟨o', found', up.trans root⟩
  · obtain ⟨row, stored, rfl⟩ := member_iff member
    have same : (if fundSlug = fundSlug ∧ row.id = key then u.set row else row).id = row.id := by
      split <;> rfl
    rw [same, World.order_updateState, sound.unique row stored]
    rfl
  · obtain ⟨row, stored, rfl⟩ := member_iff member
    have same : (if fundSlug = fundSlug ∧ row.id = key then u.set row else row).parentOrderId =
        row.parentOrderId := by
      split <;> rfl
    obtain ⟨top, found, root⟩ := sound.flat row stored up (same ▸ link)
    obtain ⟨top', found', up', -⟩ := keeps fundSlug up top found
    exact ⟨top', found', up'.trans root⟩
  · rw [World.childrenOf_updateState, List.mem_map] at member
    obtain ⟨row, stored, rfl⟩ := member
    split
    · rename_i hit
      exact child row stored hit.2
    · exact sound.children row stored
  · rw [World.order_updateState, Option.map_eq_some_iff] at found
    obtain ⟨row, stored, rfl⟩ := found
    split
    · rename_i hit
      exact parent row stored hit.2
    · exact sound.filled row stored

theorem Process.Informed.stored {f : Fill} {step : FillStep} (informed : p.Informed fundSlug id w)
    (held : p.storing = some (f, step)) :
    w.Knows f.fundSlug f.order ∧ step.Informed fundSlug id w f := by
  obtain ⟨⟨f', stage⟩, filling, stored⟩ := Option.bind_eq_some_iff.mp held
  cases stage with
  | insert | raised exc => cases stored
  | stored tradeId step' =>
    cases stored
    unfold Process.filling at filling
    split at filling <;> cases filling <;> exact informed

theorem Process.unwritten_of_storing {f : Fill} (held : p.storing = some (f, .update)) :
    p.unwritten = some f := by
  obtain ⟨⟨f', stage⟩, filling, stored⟩ := Option.bind_eq_some_iff.mp held
  cases stage with
  | insert | raised exc => cases stored
  | stored tradeId step =>
    cases stored
    simp [Process.unwritten, filling, FillStage.unwritten]

theorem Turned.sound (sound : Sound fundSlug id w) (informed : p.Informed fundSlug id w)
    (children : ForChildren fundSlug id p) (turned : Turned w w' p) : Sound fundSlug id w' := by
  cases turned with
  | rows same => exact sound.congr (same fundSlug)
  | insert s parent draw new stage inserted =>
    subst stage
    by_cases slug : s.fundSlug = fundSlug
    · subst slug
      refine sound.insert inserted (by simp [childOf]) ?_
      rintro up link
      cases link
      obtain ⟨own, row, found, root, -⟩ := informed
      exact ⟨row, own ▸ found, root.trans (children.2 parent rfl)⟩
    · refine sound.congr ?_
      rw [(World.insert_cases inserted).2, if_neg slug, List.append_nil]
  | state slug key u keeps unfilled written =>
    subst written
    by_cases same : slug = fundSlug
    · subst same
      exact sound.updateState (fun _ _ _ filled => absurd filled unfilled)
        (fun _ _ _ filled => absurd filled unfilled)
    · exact sound.congr (by simp [World.orders_updateState, same])
  | fill f u held updated written =>
    subst written
    by_cases same : f.fundSlug = fundSlug
    · subst same
      obtain ⟨total, reached⟩ := Fill.update_filled updated
      refine sound.updateState (fun c member own filled => ?_) (fun o found own => ?_)
      · rw [(sound.child_known member (informed.stored held).1 own).2]
        simpa [Update.set, total] using reached filled
      · exact absurd own.symm (children.1 f (Process.unwritten_of_storing held) rfl)
    · exact sound.congr (by simp [World.orders_updateState, same])
  | parent f order parent u held written =>
    subst written
    by_cases same : f.fundSlug = fundSlug
    · subst same
      obtain ⟨knows, link, known, reached⟩ := informed.stored held
      refine sound.updateState (fun c member own => ?_) (fun o found own filled => ?_)
      · exact absurd own (sound.parent_not_child knows link c member)
      · obtain ⟨total, written, enough⟩ := reached rfl own.symm filled
        obtain ⟨row, stored, -, quantity⟩ := known
        rw [← own, found] at stored
        have row_eq := Option.some.inj stored
        subst row_eq
        simpa [Update.set, written, quantity] using enough
    · exact sound.congr (by simp [World.orders_updateState, same])

/-! ## The totals of the parent -/

/-- The totals of the parent are those of its children. -/
def CountsChildren (fundSlug : String) (id : UUID) (w : World) : Prop :=
  ∃ parent, w.order fundSlug id = some parent ∧
    parent.filledQuantity = filledOf (w.childrenOf fundSlug id) ∧
    ∀ average ∈ averageOf (w.childrenOf fundSlug id), parent.avgFillPrice = some (numeric 8 average)

theorem Sound.follows (sound : Sound fundSlug id w) (counts : CountsChildren fundSlug id w) :
    FollowsChildren fundSlug id w := by
  obtain ⟨parent, found, filled, average⟩ := counts
  exact ⟨parent, found, filled, average, sound.filled parent found⟩

theorem CountsChildren.congr (counts : CountsChildren fundSlug id w)
    (same : (w'.schemas fundSlug).orders = (w.schemas fundSlug).orders) :
    CountsChildren fundSlug id w' := by
  rw [CountsChildren, World.order_congr same, World.childrenOf_congr same]
  exact counts

theorem CountsChildren.insert (counts : CountsChildren fundSlug id w) {slug : String}
    {child : OrderRecord} (inserted : w.insert slug child = .ok w')
    (unfilled : child.filledQuantity = 0) : CountsChildren fundSlug id w' := by
  obtain ⟨parent, found, filled, average⟩ := counts
  have children : w'.childrenOf fundSlug id = w.childrenOf fundSlug id ++
      if slug = fundSlug ∧ child.parentOrderId = some id then [child] else [] :=
    World.childrenOf_insert inserted
  have totals : filledOf (w'.childrenOf fundSlug id) = filledOf (w.childrenOf fundSlug id) ∧
      averageOf (w'.childrenOf fundSlug id) = averageOf (w.childrenOf fundSlug id) := by
    rw [children]
    split
    · exact totals_append unfilled
    · rw [List.append_nil]
      exact ⟨rfl, rfl⟩
  refine ⟨parent, by rw [World.order_insert inserted, found, Option.some_or], ?_, ?_⟩
  · rw [totals.1, filled]
  · rw [totals.2]
    exact average

theorem CountsChildren.updateState (counts : CountsChildren fundSlug id w) {key : UUID} {u : Update}
    (child : ∀ c ∈ w.childrenOf fundSlug id, c.id = key → (u.set c).totals = c.totals)
    (parent : id = key → u.KeepsTotals) :
    CountsChildren fundSlug id (w.updateState fundSlug key u) := by
  obtain ⟨row, found, filled, average⟩ := counts
  have same : ∀ c ∈ w.childrenOf fundSlug id,
      (if fundSlug = fundSlug ∧ c.id = key then u.set c else c).totals = c.totals := by
    intro c member
    split
    · rename_i hit
      exact child c member hit.2
    · rfl
  refine ⟨_, by rw [World.order_updateState, found, Option.map_some], ?_, ?_⟩ <;>
    rw [World.childrenOf_updateState]
  · rw [filledOf_map same, ← filled]
    split
    · rename_i hit
      exact (parent hit.2).filledQuantity row
    · rfl
  · rw [averageOf_map same]
    intro value among
    split
    · rename_i hit
      simpa [Update.set, (parent hit.2).2] using average value among
    · exact average value among

/-- A turn of a call that owes the parent nothing leaves the totals right, or
fills a child. -/
theorem Turned.counts (sound : Sound fundSlug id w) (informed : p.Informed fundSlug id w)
    (children : ForChildren fundSlug id p) (settled : ¬ p.Recomputes fundSlug id)
    (counts : CountsChildren fundSlug id w) (turned : Turned w w' p) :
    CountsChildren fundSlug id w' ∨ ∃ f u, p.storing = some (f, .update) ∧ f.update = .ok u ∧
      f.fundSlug = fundSlug ∧ f.order.parentOrderId = some id := by
  cases turned with
  | rows same => exact .inl (counts.congr (same fundSlug))
  | insert s parent draw new stage inserted => exact .inl (counts.insert inserted rfl)
  | state slug key u keeps unfilled written =>
    subst written
    refine .inl ?_
    by_cases same : slug = fundSlug
    · subst same
      exact counts.updateState (fun c _ _ => keeps.totals c) fun _ => keeps
    · exact counts.congr (by simp [World.orders_updateState, same])
  | fill f u held updated written =>
    subst written
    by_cases same : f.fundSlug = fundSlug
    · by_cases own : f.order.parentOrderId = some id
      · exact .inr ⟨f, u, held, updated, same, own⟩
      · subst same
        refine .inl (counts.updateState (fun c member hit => ?_) fun hit => ?_)
        · exact absurd (sound.child_known member (informed.stored held).1 hit).1 own
        · exact absurd hit.symm (children.1 f (Process.unwritten_of_storing held) rfl)
    · exact .inl (counts.congr (by simp [World.orders_updateState, same]))
  | parent f order parent u held written =>
    subst written
    refine .inl ?_
    by_cases same : f.fundSlug = fundSlug
    · subst same
      obtain ⟨knows, link, -⟩ := informed.stored held
      refine counts.updateState (fun c member hit => ?_) fun hit => ?_
      · exact absurd hit (sound.parent_not_child knows link c member)
      · exact absurd ⟨_, held, rfl, hit ▸ link, trivial⟩ settled
    · exact counts.congr (by simp [World.orders_updateState, same])

/-- The write of the parent makes its totals right again. -/
theorem counts_of_updateParent (sound : Sound fundSlug id w) {o : OrderRecord} {u : Update}
    (knows : w.Knows fundSlug o) (link : o.parentOrderId = some id)
    (filled : u.filledQuantity = some (filledOf (w.childrenOf fundSlug id)))
    (average : u.avgFillPrice = averageOf (w.childrenOf fundSlug id)) :
    CountsChildren fundSlug id (w.updateState fundSlug id u) := by
  obtain ⟨parent, found, -⟩ := sound.parent
  have children : (w.updateState fundSlug id u).childrenOf fundSlug id =
      w.childrenOf fundSlug id := by
    rw [World.childrenOf_updateState]
    refine (List.map_congr_left fun c member => ?_).trans (List.map_id' _)
    exact if_neg fun hit => sound.parent_not_child knows link c member hit.2
  refine ⟨u.set parent, by rw [World.order_updateState_own, found]; rfl, ?_, ?_⟩ <;> rw [children]
  · simp [Update.set, filled]
  · intro value among
    rw [← average] at among
    simp [Update.set, Option.mem_def.mp among]

/-- A call that still has to write the parent comes a statement closer, or has
written it. -/
theorem Process.Recomputes.advance {others : List Process} (sound : Orders.Sound fundSlug id w)
    (informed : p.Informed fundSlug id w) (settles : Settles fundSlug id w others p)
    (alone : ∀ q ∈ others, ¬ q.Recomputes fundSlug id) (recomputes : p.Recomputes fundSlug id)
    (advanced : p.advance fundSlugs w input = some (w', p')) :
    CountsChildren fundSlug id w' ∨ p'.Recomputes fundSlug id := by
  obtain ⟨⟨f, step⟩, held, slug, link, left⟩ := recomputes
  obtain ⟨knows, read⟩ := informed.stored held
  have settles := settles _ held slug
  obtain ⟨tradeId, step', stepped, held'⟩ := Process.storing_advance held advanced
  dsimp only at slug link left
  subst slug
  have next : step'.Recomputes → p'.Recomputes f.fundSlug id :=
    fun left' => ⟨_, held', rfl, link, left'⟩
  cases step with
  | reread =>
    obtain ⟨row, found, -⟩ := knows
    simp only [advanceStep, found] at stepped
    cases stepped
    exact .inr (next trivial)
  | publishTrade order =>
    cases stepped
    exact .inr (next trivial)
  | publishFilled order =>
    have child : order.parentOrderId = some id := Eq.trans read link
    simp only [advanceStep, child, Option.isSome_some, if_true] at stepped
    cases stepped
    exact .inr (next trivial)
  | readParent order =>
    have child : order.parentOrderId = some id := Eq.trans read link
    obtain ⟨parent, found, -⟩ := sound.parent
    simp only [advanceStep, child, Option.bind_some, found] at stepped
    cases stepped
    exact .inr (next trivial)
  | readChildren order parent =>
    have own : parent.id = id := Option.some.inj (read.1.symm.trans link)
    subst own
    obtain ⟨row, found, up, -⟩ := knows
    have nonempty : (w.schemas f.fundSlug).getChildren parent.id ≠ [] :=
      List.ne_nil_of_mem (World.mem_childrenOf.mpr ⟨World.mem_of_order found, up.trans link⟩)
    obtain ⟨u, updated⟩ := parentUpdate_of_accepts nonempty (settles rfl).1
    simp only [advanceStep, updated] at stepped
    cases stepped
    exact .inr (next trivial)
  | updateParent order parent u =>
    have own : parent.id = id := Option.some.inj (read.1.symm.trans link)
    subst own
    cases stepped
    rcases settles rfl with ⟨q, among, recomputes⟩ | ⟨filled, average⟩
    · exact absurd recomputes (alone q among)
    · exact .inl (counts_of_updateParent sound knows link filled average)
  | update | rereadParent order parent | returned order | raised exc => exact left.elim

/-- The totals of the parent are right, or a call still has to write them. -/
structure Followed (fundSlug : String) (id : UUID) (s : Processes.State World Process) : Prop where
  holds : Processes.Holds (Sound fundSlug id) (fun w p => p.Informed fundSlug id w)
    (fun _ _ => True) s
  counts : CountsChildren fundSlug id s.shared ∨ ∃ p ∈ s.processes, p.Recomputes fundSlug id

section Runs

variable (fundSlug : String) (id : UUID)

def Following (w : World) (others : List Process) (p : Process) (_ : Input) : Prop :=
  ForChildren fundSlug id p ∧ Settles fundSlug id w others p

instance (w : World) (others : List Process) (p : Process) (input : Input) :
    Decidable (Following fundSlug id w others p input) :=
  haveI : Decidable (Settles fundSlug id w others p) :=
    inferInstanceAs (Decidable (∀ held ∈ p.storing, _))
  inferInstanceAs (Decidable (_ ∧ _))

variable {fundSlug id} {s next : Processes.State World Process} {turn : Processes.Turn Input}

theorem step_counts (followed : Followed fundSlug id s)
    (met : Processes.When (Following fundSlug id) s turn)
    (stepped : (orders fundSlugs).system.step s turn = some next) :
    CountsChildren fundSlug id next.shared ∨
      ∃ p ∈ next.processes, p.Recomputes fundSlug id := by
  obtain ⟨before, p, after, w', p', split, found, rest, advanced, rfl⟩ :=
    Processes.step_cases _ stepped
  have own : p ∈ s.processes := by simp [split]
  obtain ⟨children, settles⟩ := met p found
  rw [rest] at settles
  have informed := followed.holds.each p own
  have sound := followed.holds.shared
  by_cases others : ∃ q ∈ before ++ after, q.Recomputes fundSlug id
  · obtain ⟨q, among, recomputes⟩ := others
    refine .inr ⟨q, ?_, recomputes⟩
    simp only [List.mem_append, List.mem_cons] at among ⊢
    rcases among with left | right
    · exact .inl left
    · exact .inr (.inr right)
  · push Not at others
    have mine : p' ∈ before ++ p' :: after := by simp
    by_cases recomputes : p.Recomputes fundSlug id
    · exact (Process.Recomputes.advance sound informed settles others recomputes advanced).imp_right
        fun left => ⟨p', mine, left⟩
    · have counts : CountsChildren fundSlug id s.shared := by
        refine followed.counts.resolve_right ?_
        rintro ⟨q, member, left⟩
        simp only [split, List.mem_append, List.mem_cons] at member
        rcases member with before | rfl | after
        · exact others q (List.mem_append_left _ before) left
        · exact recomputes left
        · exact others q (List.mem_append_right _ after) left
      rcases (Process.advance_turned advanced).counts sound informed children recomputes counts with
        kept | ⟨f, u, held, updated, slug, link⟩
      · exact .inl kept
      · obtain ⟨tradeId, step', moved, held'⟩ := Process.storing_advance held advanced
        simp only [advanceStep, updated] at moved
        cases moved
        exact .inr ⟨p', mine, _, held', slug, link, trivial⟩

theorem step_followed (followed : Followed fundSlug id s)
    (met : Processes.When (Following fundSlug id) s turn)
    (stepped : (orders fundSlugs).system.step s turn = some next) : Followed fundSlug id next := by
  refine ⟨?_, step_counts followed met stepped⟩
  refine Processes.step_keeps (fun _ _ _ => trivial) ?_ followed.holds met stepped
  intro w w' others p p' input sound informed others_informed met advanced
  have turned := Process.advance_turned advanced
  refine ⟨turned.sound sound informed met.1, ?_, fun q among => ?_⟩
  · exact (Process.advance_informed sound informed met.2 advanced).mono turned.keeps
  · exact ⟨(others_informed q among).1.mono turned.keeps, trivial⟩

/-- An algo parent as it starts to work: nothing is sliced, nothing filled. The
identifiers are a primary key and the parents a foreign one; no child is a parent. -/
structure Started (fundSlug : String) (id : UUID) (w : World) : Prop where
  parent : ∃ o, w.order fundSlug id = some o ∧ o.state = .working ∧ o.parentOrderId = none ∧
    o.filledQuantity = 0
  childless : w.childrenOf fundSlug id = []
  unique : ∀ o ∈ (w.schemas fundSlug).orders, w.order fundSlug o.id = some o
  flat : ∀ o ∈ (w.schemas fundSlug).orders, ∀ up, o.parentOrderId = some up →
    ∃ row, w.order fundSlug up = some row ∧ row.parentOrderId = none

/-- The call has not read anything yet. -/
def Process.Unread : Process → Prop
  | .execution _ | .report _ (.locating _) | .cancel _ .read | .submission _ (.transition _)
  | .slice _ .readParent => True
  | _ => False

theorem Started.followed (started : Started fundSlug id s.shared)
    (unread : ∀ p ∈ s.processes, p.Unread) : Followed fundSlug id s := by
  obtain ⟨⟨o, found, working, root, zero⟩, childless, unique, flat⟩ := started
  refine ⟨⟨⟨⟨o, found, root⟩, unique, flat, ?_, ?_⟩, fun p member => ?_, ?_⟩, .inl ⟨o, found, ?_, ?_⟩⟩
  · simp [childless]
  · intro row stored filled
    rw [found] at stored
    cases stored
    rw [working] at filled
    cases filled
  · have start := unread p member
    unfold Process.Unread at start
    split at start
    · trivial
    · trivial
    · trivial
    · trivial
    · trivial
    · exact start.elim
  · exact List.pairwise_of_forall fun _ _ => trivial
  · simp [childless, filledOf, zero]
  · simp [childless, averageOf, filledOf]

end Runs

/-- As long as the parent takes what its children make of it, the children cover
it once all of them are filled and their fills do not cross at it, every call
that has filled a child leaves the parent with the totals of the children. -/
theorem follows_of_following (fundSlugs : List String) {fundSlug : String} {id : UUID}
    {s final : Processes.State World Process} (started : Started fundSlug id s.shared)
    (unread : ∀ p ∈ s.processes, p.Unread) {turns : List (Processes.Turn Input)}
    (along : (orders fundSlugs).system.Along (Processes.When (Following fundSlug id)) s turns)
    (ran : (orders fundSlugs).system.run s turns = some final)
    (written : ∀ p ∈ final.processes, ¬ p.Recomputes fundSlug id) :
    FollowsChildren fundSlug id final.shared := by
  have kept : ∀ s turn next, Followed fundSlug id s →
      Processes.When (Following fundSlug id) s turn →
      (orders fundSlugs).system.step s turn = some next → Followed fundSlug id next :=
    fun s turn next followed met stepped => step_followed followed met stepped
  have followed := System.invariant_along kept along ran (started.followed unread)
  refine followed.holds.shared.follows (followed.counts.resolve_right ?_)
  rintro ⟨p, member, left⟩
  exact written p member left

/-- Two slices of five for an order over ten, and the reports for their orders. -/
def twoSlices (first second : UUID) (quantity : Decimal) : Processes.State World Process :=
  ⟨holding { anOrder .working with isParent := true },
    [.slice ⟨"alpha", .ofNat 1, 5⟩ .readParent,
      .slice ⟨"alpha", .ofNat 1, 5⟩ .readParent,
      .report ⟨first.str, 100, 5, none, none⟩ (Report.start ["alpha"]),
      .report ⟨second.str, 110, quantity, none, none⟩ (Report.start ["alpha"])]⟩

theorem twoSlices_started (first second : UUID) (quantity : Decimal) :
    Started "alpha" ⟨1, by decide⟩ (twoSlices first second quantity).shared ∧
      ∀ p ∈ (twoSlices first second quantity).processes, p.Unread := by
  have parent : (twoSlices first second quantity).shared.order "alpha" ⟨1, by decide⟩ =
      some { anOrder .working with isParent := true } := rfl
  refine ⟨⟨⟨_, parent, rfl, rfl, rfl⟩, rfl, ?_, ?_⟩, ?_⟩
  · intro o member
    rw [List.mem_singleton.mp member]
    rfl
  · intro o member up link
    rw [List.mem_singleton.mp member] at link
    cases link
  · intro p member
    simp only [twoSlices, List.mem_cons, List.not_mem_nil, or_false] at member
    rcases member with rfl | rfl | rfl | rfl <;> trivial

/-- Both slices are orders before the first of them fills. -/
theorem follows_of_sliced_first :
    ∃ final, (orders ["alpha"]).system.run (twoSlices ⟨101, by decide⟩ ⟨110, by decide⟩ 5)
        (schedule (List.replicate 9 0 ++ List.replicate 9 1 ++ List.replicate 10 2 ++
          List.replicate 10 3)) = some final ∧
      (final.shared.order "alpha" ⟨1, by decide⟩).map (·.filledQuantity) = some 10 ∧
      FollowsChildren "alpha" ⟨1, by decide⟩ final.shared := by
  have along : (orders ["alpha"]).system.Along
      (Processes.When (Following "alpha" ⟨1, by decide⟩))
      (twoSlices ⟨101, by decide⟩ ⟨110, by decide⟩ 5)
      (schedule (List.replicate 9 0 ++ List.replicate 9 1 ++ List.replicate 10 2 ++
        List.replicate 10 3)) := by
    decide +kernel
  have ran : ((orders ["alpha"]).system.run (twoSlices ⟨101, by decide⟩ ⟨110, by decide⟩ 5)
      (schedule (List.replicate 9 0 ++ List.replicate 9 1 ++ List.replicate 10 2 ++
        List.replicate 10 3))).map (fun final =>
          (decide (∀ p ∈ final.processes, ¬ p.Recomputes "alpha" ⟨1, by decide⟩),
            (final.shared.order "alpha" ⟨1, by decide⟩).map (·.filledQuantity))) =
      some (true, some 10) := by
    decide +kernel
  obtain ⟨final, reached, values⟩ := Option.map_eq_some_iff.mp ran
  simp only [Prod.mk.injEq, decide_eq_true_eq] at values
  obtain ⟨started, unread⟩ := twoSlices_started ⟨101, by decide⟩ ⟨110, by decide⟩ 5
  exact ⟨final, reached, values.2,
    follows_of_following ["alpha"] started unread along reached values.1⟩

/-- The first slice fills before the second is an order: the parent is FILLED with
half of its quantity, and does not take what the second slice fills. -/
theorem filled_slice_fills_parent :
    Started "alpha" ⟨1, by decide⟩ (twoSlices ⟨101, by decide⟩ ⟨120, by decide⟩ 3).shared ∧
      ∃ final, (orders ["alpha"]).system.run (twoSlices ⟨101, by decide⟩ ⟨120, by decide⟩ 3)
          (schedule (List.replicate 9 0 ++ List.replicate 10 2 ++ List.replicate 9 1 ++
            List.replicate 8 3)) = some final ∧
        final.processes.all Process.finished ∧
        (final.shared.order "alpha" ⟨1, by decide⟩).map (fun o => (o.state, o.filledQuantity)) =
          some (.filled, 5) ∧
        filledOf (final.shared.childrenOf "alpha" ⟨1, by decide⟩) = 8 ∧
        ¬ FollowsChildren "alpha" ⟨1, by decide⟩ final.shared := by
  have ran : ((orders ["alpha"]).system.run (twoSlices ⟨101, by decide⟩ ⟨120, by decide⟩ 3)
      (schedule (List.replicate 9 0 ++ List.replicate 10 2 ++ List.replicate 9 1 ++
        List.replicate 8 3))).map (fun final => (final.processes.all Process.finished,
          (final.shared.order "alpha" ⟨1, by decide⟩).map (fun o => (o.state, o.filledQuantity)),
          filledOf (final.shared.childrenOf "alpha" ⟨1, by decide⟩),
          decide (FollowsChildren "alpha" ⟨1, by decide⟩ final.shared))) =
      some (true, some (.filled, 5), 8, false) := by
    decide +kernel
  obtain ⟨final, reached, values⟩ := Option.map_eq_some_iff.mp ran
  simp only [Prod.mk.injEq, decide_eq_false_iff_not] at values
  exact ⟨(twoSlices_started _ _ _).1, final, reached, values⟩

end MiniHedge.Orders
