import MiniHedge.Orders.Conservation

/-! Rows of an algo parent and of its children.

Every turn leaves the rows of the orders, adds a child, writes a state, or
writes totals: those of an order with a new fill, or those of a parent from its
children. The parent of an order and its quantity are never written, so that
what a call has read of them stays true.
-/

set_option autoImplicit false

namespace MiniHedge.Orders

open MiniHedge.Python MiniHedge.Positions MiniHedge.Library

namespace World

def childrenOf (w : World) (fundSlug : String) (id : UUID) : List OrderRecord :=
  (w.schemas fundSlug).getChildren id

variable {w w' : World} {fundSlug slug : String} {id key : UUID}

theorem mem_childrenOf {o : OrderRecord} : o ∈ w.childrenOf fundSlug id ↔
    o ∈ (w.schemas fundSlug).orders ∧ o.parentOrderId = some id := by
  simp [childrenOf, Schema.getChildren]

theorem orders_updateState (u : Update) : ((w.updateState slug key u).schemas fundSlug).orders =
    (w.schemas fundSlug).orders.map fun o => if slug = fundSlug ∧ o.id = key then u.set o else o := by
  by_cases same : slug = fundSlug
  · subst same
    simp [updateState, set, Schema.updateState]
  · simp [updateState, set, Function.update_of_ne (Ne.symm same), same]

theorem childrenOf_updateState (u : Update) : (w.updateState slug key u).childrenOf fundSlug id =
    (w.childrenOf fundSlug id).map fun o => if slug = fundSlug ∧ o.id = key then u.set o else o := by
  simp only [childrenOf, Schema.getChildren, orders_updateState, List.filter_map]
  congr 1
  refine List.filter_congr fun o _ => ?_
  simp only [Function.comp_apply]
  split <;> rfl

theorem order_updateState (u : Update) : (w.updateState slug key u).order fundSlug id =
    (w.order fundSlug id).map fun o => if slug = fundSlug ∧ id = key then u.set o else o := by
  by_cases hit : slug = fundSlug ∧ id = key
  · obtain ⟨rfl, rfl⟩ := hit
    simp [order_updateState_own]
  · simp only [if_neg hit, Option.map_id']
    exact order_updateState_other u fun same => hit ⟨same.1, same.2.symm⟩

theorem insert_cases {o : OrderRecord} (inserted : w.insert slug o = .ok w') :
    w.order slug o.id = none ∧ ∀ fundSlug, (w'.schemas fundSlug).orders =
      (w.schemas fundSlug).orders ++ if slug = fundSlug then [o] else [] := by
  simp only [insert, Schema.insert] at inserted
  split at inserted
  · cases inserted
  · rename_i new
    cases inserted
    refine ⟨by simpa [order, Schema.getById] using new, fun fundSlug => ?_⟩
    by_cases same : slug = fundSlug
    · subst same
      simp [set]
    · simp [set, Function.update_of_ne (Ne.symm same), same]

theorem childrenOf_insert {o : OrderRecord} (inserted : w.insert slug o = .ok w') :
    w'.childrenOf fundSlug id = w.childrenOf fundSlug id ++
      if slug = fundSlug ∧ o.parentOrderId = some id then [o] else [] := by
  simp only [childrenOf, Schema.getChildren, (insert_cases inserted).2 fundSlug, List.filter_append]
  by_cases same : slug = fundSlug <;> by_cases child : o.parentOrderId = some id <;>
    simp [same, child]

theorem order_congr (same : (w'.schemas fundSlug).orders = (w.schemas fundSlug).orders) :
    w'.order fundSlug id = w.order fundSlug id := by
  simp only [order, Schema.getById, same]

theorem childrenOf_congr (same : (w'.schemas fundSlug).orders = (w.schemas fundSlug).orders) :
    w'.childrenOf fundSlug id = w.childrenOf fundSlug id := by
  simp only [childrenOf, Schema.getChildren, same]

/-- The stored order has the parent and the quantity that have been read. -/
def Knows (w : World) (fundSlug : String) (o : OrderRecord) : Prop :=
  ∃ row, w.order fundSlug o.id = some row ∧ row.parentOrderId = o.parentOrderId ∧
    row.quantity = o.quantity

theorem knows_of_order {o : OrderRecord} (found : w.order fundSlug id = some o) :
    w.Knows fundSlug o :=
  ⟨o, by rwa [id_of_order found], rfl, rfl⟩

/-- Orders keep their parent and their quantity. -/
def Keeps (w w' : World) : Prop :=
  ∀ fundSlug id row, w.order fundSlug id = some row → ∃ row', w'.order fundSlug id = some row' ∧
    row'.parentOrderId = row.parentOrderId ∧ row'.quantity = row.quantity

theorem Knows.mono {o : OrderRecord} (knows : w.Knows fundSlug o) (keeps : w.Keeps w') :
    w'.Knows fundSlug o := by
  obtain ⟨row, found, parent, quantity⟩ := knows
  obtain ⟨row', found', parent', quantity'⟩ := keeps fundSlug o.id row found
  exact ⟨row', found', parent'.trans parent, quantity'.trans quantity⟩

theorem Keeps.congr (same : ∀ fundSlug, (w'.schemas fundSlug).orders = (w.schemas fundSlug).orders) :
    w.Keeps w' := by
  intro fundSlug id row found
  exact ⟨row, (order_congr (same fundSlug)).trans found, rfl, rfl⟩

theorem Keeps.updateState (u : Update) : w.Keeps (w.updateState slug key u) := by
  intro fundSlug id row found
  refine ⟨_, by rw [order_updateState, found, Option.map_some], ?_, ?_⟩ <;> split <;> rfl

theorem Keeps.insert {o : OrderRecord} (inserted : w.insert slug o = .ok w') : w.Keeps w' := by
  intro fundSlug id row found
  exact ⟨row, by rw [order_insert inserted, found, Option.some_or], rfl, rfl⟩

end World

/-! ## The stored fill of a call -/

/-- The fill that the call has stored, and what it does next. -/
def Process.storing (p : Process) : Option (Fill × FillStep) :=
  p.filling.bind fun (f, stage) =>
    match stage with
    | .stored _ step => some (f, step)
    | .insert | .raised _ => none

/-- What a turn does to the rows of the orders. -/
inductive Turned (w w' : World) (p : Process) : Prop
  | rows (same : ∀ fundSlug, (w'.schemas fundSlug).orders = (w.schemas fundSlug).orders)
  | insert (s : Slice) (parent : OrderRecord) (draw : UUID) (new : s.parentOrderId ≠ draw)
      (stage : p = .slice s (.insert parent))
      (inserted : w.insert s.fundSlug (childOf parent s draw new) = .ok w')
  | state (slug : String) (key : UUID) (u : Update) (keeps : u.KeepsTotals)
      (unfilled : u.state ≠ .filled) (written : w' = w.updateState slug key u)
  | fill (f : Fill) (u : Update) (held : p.storing = some (f, .update))
      (updated : f.update = .ok u) (written : w' = w.updateState f.fundSlug f.order.id u)
  | parent (f : Fill) (order parent : OrderRecord) (u : Update)
      (held : p.storing = some (f, .updateParent order parent u))
      (written : w' = w.updateState f.fundSlug parent.id u)

theorem Turned.untouched {w : World} {p : Process} : Turned w w p := .rows fun _ => rfl

variable {w w' : World} {input : Input}

theorem advanceFill_turned {f : Fill} {draw : UUID} {now : Datetime} {stage stage' : FillStage}
    {p : Process} (filling : p.filling = some (f, stage))
    (advanced : advanceFill w f draw now stage = some (w', stage')) : Turned w w' p := by
  cases stage with
  | insert =>
    simp only [advanceFill] at advanced
    split at advanced
    · cases advanced
      exact .untouched
    · rename_i next inserted
      cases advanced
      obtain ⟨-, rfl⟩ := World.insertFill_cases inserted
      refine .rows fun fundSlug => ?_
      by_cases same : fundSlug = f.fundSlug
      · subst same
        simp [World.set]
      · simp [World.set, Function.update_of_ne same]
  | stored tradeId step =>
    have held : p.storing = some (f, step) := by simp [Process.storing, filling]
    simp only [advanceFill, Option.map_eq_some_iff, Prod.mk.injEq] at advanced
    obtain ⟨⟨next, step'⟩, moved, rfl, rfl⟩ := advanced
    cases step with
    | update =>
      simp only [advanceStep] at moved
      split at moved
      · cases moved
        exact .untouched
      · rename_i u updated
        cases moved
        exact .fill f u held updated rfl
    | updateParent order parent u =>
      cases moved
      exact .parent f order parent u held rfl
    | publishTrade order | publishFilled order =>
      cases moved
      exact .rows fun _ => rfl
    | reread | readParent order | readChildren order parent | rereadParent order parent =>
      simp only [advanceStep] at moved
      split at moved <;> cases moved <;> exact .untouched
    | returned order | raised exc => cases moved
  | raised exc => cases advanced

theorem Report.advance_turned {r : Report} {stage stage' : ReportStage}
    (advanced : r.advance w input stage = some (w', stage')) :
    Turned w w' (.report r stage) := by
  cases stage with
  | locating pending =>
    cases pending with
    | nil => cases advanced
    | cons fundSlug pending =>
      simp only [Report.advance] at advanced
      split at advanced
      · cases advanced
        exact .untouched
      · split at advanced
        · cases advanced
          exact .untouched
        · split at advanced <;> cases advanced <;> exact .untouched
  | filling f stage =>
    simp only [Report.advance, Option.map_eq_some_iff, Prod.mk.injEq] at advanced
    obtain ⟨⟨next, stage'⟩, moved, rfl, rfl⟩ := advanced
    exact advanceFill_turned rfl moved
  | ignored | raised exc => cases advanced

/-- A transition that is written by itself keeps the totals. -/
theorem Turned.transition {p : Process} {slug : String} {key : UUID} {current target state : OrderState}
    (applied : applyTransition current target = .ok state) (unfilled : target ≠ .filled)
    {u : Update} (written : u.state = state) (keeps : u.KeepsTotals) :
    Turned w (w.updateState slug key u) p := by
  obtain ⟨-, rfl⟩ := applyTransition_eq_ok applied
  exact .state slug key u keeps (written ▸ unfilled) rfl

theorem Cancel.advance_turned {c : Cancel} {stage stage' : CancelStage}
    (advanced : c.advance w stage = some (w', stage')) : Turned w w' (.cancel c stage) := by
  cases stage with
  | cancelChildren order pending =>
    cases pending with
    | nil =>
      simp only [Cancel.advance] at advanced
      split at advanced
      · cases advanced
        exact .untouched
      · rename_i state applied
        cases advanced
        exact .transition applied (by decide) rfl ⟨rfl, rfl⟩
    | cons child pending =>
      simp only [Cancel.advance] at advanced
      split at advanced
      · cases advanced
        exact .untouched
      · rename_i state applied
        cases advanced
        exact .transition applied (by decide) rfl ⟨rfl, rfl⟩
  | read | reread =>
    simp only [Cancel.advance] at advanced
    split at advanced <;> cases advanced <;> exact .untouched
  | readChildren order | rereadChild order pending =>
    cases advanced
    exact .untouched
  | returned order | raised exc => cases advanced

theorem World.orders_submit (w : World) (o : OrderRecord) (ack : Ack) (fundSlug : String) :
    ((w.submit o ack).schemas fundSlug).orders = (w.schemas fundSlug).orders := by
  unfold World.submit
  split <;> rfl

theorem Submission.advance_turned {s : Submission} {stage stage' : SubmissionStage}
    (advanced : s.advance w input stage = some (w', stage')) :
    Turned w w' (.submission s stage) := by
  cases stage with
  | transition order =>
    simp only [Submission.advance] at advanced
    split at advanced
    · cases advanced
      exact .untouched
    · rename_i state applied
      cases advanced
      exact .transition applied (by decide) rfl ⟨rfl, rfl⟩
  | submit order =>
    cases advanced
    exact .rows (w.orders_submit order input.ack)
  | acknowledge order ack =>
    cases ack with
    | acknowledged | filled avg quantity =>
      cases advanced
      exact .untouched
    | rejected =>
      simp only [Submission.advance] at advanced
      split at advanced
      · cases advanced
        exact .untouched
      · rename_i state applied
        cases advanced
        exact .transition applied (by decide) rfl ⟨rfl, rfl⟩
  | filling f stage =>
    simp only [Submission.advance, Option.map_eq_some_iff, Prod.mk.injEq] at advanced
    obtain ⟨⟨next, stage'⟩, moved, rfl, rfl⟩ := advanced
    exact advanceFill_turned rfl moved
  | rereadSent | rereadRejected =>
    simp only [Submission.advance] at advanced
    split at advanced <;> cases advanced <;> exact .untouched
  | returned order | raised exc => cases advanced

theorem Slice.advance_turned {s : Slice} {stage stage' : SliceStage}
    (advanced : s.advance w input stage = some (w', stage')) : Turned w w' (.slice s stage) := by
  cases stage with
  | insert parent =>
    simp only [Slice.advance] at advanced
    split at advanced
    · rename_i new
      split at advanced
      · cases advanced
        exact .untouched
      · rename_i next inserted
        cases advanced
        exact .insert s parent input.draw new rfl inserted
    · cases advanced
      exact .untouched
  | approve child =>
    simp only [Slice.advance] at advanced
    split at advanced
    · cases advanced
      exact .untouched
    · cases advanced
      exact .state s.fundSlug child.id _ ⟨rfl, rfl⟩ (by decide) rfl
  | send child =>
    simp only [Slice.advance] at advanced
    split at advanced
    · cases advanced
      exact .untouched
    · rename_i state applied
      cases advanced
      exact .transition applied (by decide) rfl ⟨rfl, rfl⟩
  | submit child =>
    cases advanced
    exact .rows (w.orders_submit child input.ack)
  | acknowledge child ack =>
    cases ack <;> cases advanced <;> exact .untouched
  | filling f stage =>
    simp only [Slice.advance, Option.map_eq_some_iff, Prod.mk.injEq] at advanced
    obtain ⟨⟨next, stage'⟩, moved, rfl, rfl⟩ := advanced
    exact advanceFill_turned rfl moved
  | readParent | refresh childId | rereadApproved childId | rereadSent childId =>
    simp only [Slice.advance] at advanced
    split at advanced <;> cases advanced <;> exact .untouched
  | returned child | raised exc => cases advanced

theorem Process.advance_turned {fundSlugs : List String} {p p' : Process}
    (advanced : p.advance fundSlugs w input = some (w', p')) : Turned w w' p := by
  cases p with
  | execution r =>
    simp only [Process.advance] at advanced
    split at advanced
    · cases advanced
      exact .untouched
    · cases advanced
  | report r stage =>
    simp only [Process.advance, Option.map_eq_some_iff, Prod.mk.injEq] at advanced
    obtain ⟨⟨next, stage'⟩, moved, rfl, rfl⟩ := advanced
    exact Report.advance_turned moved
  | cancel c stage =>
    simp only [Process.advance, Option.map_eq_some_iff, Prod.mk.injEq] at advanced
    obtain ⟨⟨next, stage'⟩, moved, rfl, rfl⟩ := advanced
    exact Cancel.advance_turned moved
  | submission s stage =>
    simp only [Process.advance, Option.map_eq_some_iff, Prod.mk.injEq] at advanced
    obtain ⟨⟨next, stage'⟩, moved, rfl, rfl⟩ := advanced
    exact Submission.advance_turned moved
  | slice s stage =>
    simp only [Process.advance, Option.map_eq_some_iff, Prod.mk.injEq] at advanced
    obtain ⟨⟨next, stage'⟩, moved, rfl, rfl⟩ := advanced
    exact Slice.advance_turned moved

theorem Turned.keeps {p : Process} (turned : Turned w w' p) : w.Keeps w' := by
  cases turned with
  | rows same => exact World.Keeps.congr same
  | insert s parent draw new stage inserted => exact World.Keeps.insert inserted
  | state slug key u keeps unfilled written => exact written ▸ World.Keeps.updateState u
  | fill f u held updated written => exact written ▸ World.Keeps.updateState u
  | parent f order parent u held written => exact written ▸ World.Keeps.updateState u

/-- A call whose fill is stored goes on with the next statement of it. -/
theorem Process.storing_advance {fundSlugs : List String} {p p' : Process} {f : Fill}
    {step : FillStep} (held : p.storing = some (f, step))
    (advanced : p.advance fundSlugs w input = some (w', p')) :
    ∃ tradeId step', advanceStep w f tradeId step = some (w', step') ∧
      p'.storing = some (f, step') := by
  obtain ⟨⟨f', stage⟩, filling, stored⟩ := Option.bind_eq_some_iff.mp held
  cases stage with
  | insert | raised exc => cases stored
  | stored tradeId step =>
    cases stored
    unfold Process.filling at filling
    split at filling <;> cases filling <;>
      simp only [Process.advance, Report.advance, Submission.advance, Slice.advance, advanceFill,
        Option.map_eq_some_iff, Prod.mk.injEq] at advanced
    all_goals
      obtain ⟨moved, ⟨stage', ⟨step', stepped, rfl⟩, rfl, rfl⟩, rfl, rfl⟩ := advanced
      exact ⟨tradeId, _, stepped, rfl⟩

end MiniHedge.Orders
