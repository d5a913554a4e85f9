import MiniHedge.Orders.Redelivery
import MiniHedge.Orders.Parent

/-! `_process_fill` with no other call in between.

Either no row of an order changes and nothing is published, or the totals of the
order, its two events and the totals of its parent are written one after the
other.
-/

set_option autoImplicit false

namespace MiniHedge.Orders

open MiniHedge.Python MiniHedge.Positions MiniHedge.Library

/-- Fills as processes of their own. -/
def fillProcesses : Processes World (Fill × FillStage) Input where
  advance w _ p input :=
    (advanceFill w p.1 input.draw input.now p.2).map fun moved => (moved.1, p.1, moved.2)

def processFill (w : World) (f : Fill) (input : Input) : World × FillStage :=
  let done := fillProcesses.alone f.start.turnsLeft w (f, f.start) input
  (done.1, done.2.2)

/-- `_update_parent_from_children`. -/
def World.updateParent (w : World) (fundSlug : String) (child : OrderRecord) : World :=
  match child.parentOrderId.bind (w.order fundSlug) with
  | none => w
  | some parent =>
    match parentUpdate parent (w.childrenOf fundSlug parent.id) with
    | none => w
    | some u => w.updateState fundSlug parent.id u

/-- The statements after the row of the order has been written. -/
def World.reportFill (w : World) (f : Fill) (draw : UUID) (o : OrderRecord) : World :=
  ((w.publish (tradeExecuted f.fundSlug o draw f.quantity f.price)).publish
    (orderFilled f.fundSlug o f.quantity f.price)).updateParent f.fundSlug o

variable {w w' : World} {f : Fill} {input : Input}

theorem World.updateParent_orphan {o : OrderRecord} (orphan : o.parentOrderId = none)
    (fundSlug : String) : w.updateParent fundSlug o = w := by
  simp [World.updateParent, orphan]

theorem World.updateParent_taken {fundSlug : String} {o parent : OrderRecord} {u : Update}
    (read : o.parentOrderId.bind (w.order fundSlug) = some parent)
    (derived : parentUpdate parent (w.childrenOf fundSlug parent.id) = some u) :
    w.updateParent fundSlug o = w.updateState fundSlug parent.id u := by
  simp [World.updateParent, read, derived]

theorem World.orders_insertFill {fundSlug : String} {fill : OrderFillRecord}
    (inserted : w.insertFill fundSlug fill = .ok w') (slug : String) :
    (w'.schemas slug).orders = (w.schemas slug).orders := by
  obtain ⟨-, rfl⟩ := World.insertFill_cases inserted
  by_cases own : slug = fundSlug
  · subst own
    simp [World.set]
  · simp [World.set, Function.update_of_ne own]

theorem World.ids_updateState (w : World) (slug : String) (key : UUID) (u : Update)
    (fundSlug : String) : ((w.updateState slug key u).schemas fundSlug).orders.map (·.id) =
      (w.schemas fundSlug).orders.map (·.id) := by
  rw [World.orders_updateState, List.map_map]
  refine List.map_congr_left fun o _ => ?_
  simp only [Function.comp_apply]
  split <;> rfl

theorem Fill.update_sets {u : Update} (updated : f.update = .ok u) (o : OrderRecord) :
    (u.set o).filledQuantity = f.order.filledQuantity + f.quantity ∧ u.state = f.targetState := by
  cases priced : f.avgPrice with
  | error exc => simp [Fill.update, priced, Bind.bind, Except.bind] at updated
  | ok avg =>
    simp only [Fill.update, priced, Bind.bind, Except.bind] at updated
    split at updated
    · cases updated
    · rename_i state applied
      cases updated
      exact ⟨rfl, (applyTransition_eq_ok applied).2⟩

theorem World.published_updateParent (w : World) (fundSlug : String) (o : OrderRecord) :
    (w.updateParent fundSlug o).published = w.published := by
  unfold World.updateParent
  split
  · rfl
  · split <;> rfl

theorem World.published_reportFill (w : World) (f : Fill) (draw : UUID) (o : OrderRecord) :
    (w.reportFill f draw o).published = w.published ++
      [tradeExecuted f.fundSlug o draw f.quantity f.price,
        orderFilled f.fundSlug o f.quantity f.price] := by
  rw [World.reportFill, World.published_updateParent]
  simp [World.publish]

theorem World.schemas_updateParent_publish (w : World) (m : Message) (fundSlug : String)
    (o : OrderRecord) :
    ((w.publish m).updateParent fundSlug o).schemas = (w.updateParent fundSlug o).schemas := by
  have order : (w.publish m).order fundSlug = w.order fundSlug := rfl
  unfold World.updateParent
  rw [order]
  cases o.parentOrderId.bind (w.order fundSlug) with
  | none => rfl
  | some parent =>
    have children : (w.publish m).childrenOf fundSlug parent.id = w.childrenOf fundSlug parent.id :=
      rfl
    simp only [children]
    cases parentUpdate parent (w.childrenOf fundSlug parent.id) <;> rfl

/-- The events leave the tables to the recomputation of the parent. -/
theorem World.schemas_reportFill (w : World) (f : Fill) (draw : UUID) (o : OrderRecord) :
    (w.reportFill f draw o).schemas = (w.updateParent f.fundSlug o).schemas := by
  rw [World.reportFill, World.schemas_updateParent_publish, World.schemas_updateParent_publish]

/-- One statement after the fill is stored. -/
theorem alone_stored {draw : UUID} {step step' : FillStep}
    (moved : advanceStep w f draw step = some (w', step')) (limit : Nat) :
    fillProcesses.alone (limit + 1) w (f, .stored draw step) input =
      fillProcesses.alone limit w' (f, .stored draw step') input := by
  refine Processes.alone_step ?_ limit
  simp [fillProcesses, advanceFill, moved]

theorem alone_finished {stage : FillStage} (finished : stage.finished) (limit : Nat) :
    fillProcesses.alone limit w (f, stage) input = (w, f, stage) := by
  refine Processes.alone_done ?_ limit
  simp [fillProcesses, advanceFill_eq_none.mpr finished]

/-- The turns from the second event on write the parent from its children. -/
theorem alone_readParent (draw : UUID) (order : OrderRecord) :
    (fillProcesses.alone 4 w (f, .stored draw (.readParent order)) input).1 =
      w.updateParent f.fundSlug order := by
  cases read : order.parentOrderId.bind (w.order f.fundSlug) with
  | none =>
    have returned : advanceStep w f draw (.readParent order) = some (w, .returned order) := by
      simp [advanceStep, read]
    rw [alone_stored returned, alone_finished rfl]
    simp [World.updateParent, read]
  | some parent =>
    have found : advanceStep w f draw (.readParent order) =
        some (w, .readChildren order parent) := by
      simp [advanceStep, read]
    rw [alone_stored found]
    cases derived : parentUpdate parent (w.childrenOf f.fundSlug parent.id) with
    | none =>
      have returned : advanceStep w f draw (.readChildren order parent) =
          some (w, .returned order) := by
        rw [World.childrenOf] at derived
        simp [advanceStep, derived]
      rw [alone_stored returned, alone_finished rfl]
      simp [World.updateParent, read, derived]
    | some u =>
      have next : advanceStep w f draw (.readChildren order parent) =
          some (w, .updateParent order parent u) := by
        rw [World.childrenOf] at derived
        simp [advanceStep, derived]
      have write : advanceStep w f draw (.updateParent order parent u) =
          some (w.updateState f.fundSlug parent.id u, .rereadParent order parent) := rfl
      rw [alone_stored next, alone_stored write]
      -- what the parent is read again for is returned or raised
      obtain ⟨last, reread, done⟩ : ∃ step, advanceStep (w.updateState f.fundSlug parent.id u) f draw
          (.rereadParent order parent) = some (w.updateState f.fundSlug parent.id u, step) ∧
          (FillStage.stored draw step).finished := by
        simp only [advanceStep]
        split
        · exact ⟨_, rfl, rfl⟩
        · exact ⟨_, rfl, rfl⟩
      rw [alone_stored reread, alone_finished done]
      simp [World.updateParent, read, derived]

/-- What `_process_fill` does to the orders and the events, from the row it is given. -/
theorem processFill_cases (input : Input)
    (read : w.order f.fundSlug f.order.id = some f.order) :
    ((∀ slug, ((processFill w f input).1.schemas slug).orders = (w.schemas slug).orders) ∧
      (processFill w f input).1.published = w.published) ∨
    ∃ u stored, f.update = .ok u ∧
      w.insertFill f.fundSlug (f.record input.draw input.now) = .ok stored ∧
      (processFill w f input).1 = (stored.updateState f.fundSlug f.order.id u).reportFill f
        input.draw (u.set f.order) := by
  by_cases fits : f.quantity ≤ f.order.remaining
  · rw [processFill, Fill.start_fits fits]
    simp only [show FillStage.turnsLeft .insert = 8 + 1 from rfl]
    cases inserted : w.insertFill f.fundSlug (f.record input.draw input.now) with
    | error exc =>
      have raised : fillProcesses.advance w [] (f, .insert) input = some (w, f, .raised exc) := by
        simp [fillProcesses, advanceFill, inserted]
      rw [Processes.alone_step raised, alone_finished rfl]
      exact .inl ⟨fun _ => rfl, rfl⟩
    | ok stored =>
      have written : fillProcesses.advance w [] (f, .insert) input =
          some (stored, f, .stored input.draw .update) := by
        simp [fillProcesses, advanceFill, inserted]
      rw [Processes.alone_step written]
      cases updated : f.update with
      | error exc =>
        have raised : advanceStep stored f input.draw .update = some (stored, .raised exc) := by
          simp [advanceStep, updated]
        rw [alone_stored raised, alone_finished rfl]
        refine .inl ⟨World.orders_insertFill inserted, ?_⟩
        obtain ⟨-, rfl⟩ := World.insertFill_cases inserted
        rfl
      | ok u =>
        have row : (stored.updateState f.fundSlug f.order.id u).order f.fundSlug f.order.id =
            some (u.set f.order) := by
          rw [World.order_updateState_own, World.order_insertFill inserted, read]
          rfl
        have updating : advanceStep stored f input.draw .update =
            some (stored.updateState f.fundSlug f.order.id u, .reread) := by
          simp [advanceStep, updated]
        have reread : advanceStep (stored.updateState f.fundSlug f.order.id u) f input.draw .reread =
            some (stored.updateState f.fundSlug f.order.id u, .publishTrade (u.set f.order)) := by
          simp [advanceStep, row]
        refine .inr ⟨u, stored, rfl, rfl, ?_⟩
        rw [alone_stored updating, alone_stored reread, alone_stored rfl, alone_stored rfl,
          World.reportFill]
        split
        · exact alone_readParent input.draw (u.set f.order)
        · rename_i orphan
          rw [alone_finished rfl, World.updateParent_orphan (by simpa using orphan)]
  · obtain ⟨exc, start⟩ := Fill.start_over fits
    rw [processFill, start]
    exact .inl ⟨fun _ => rfl, rfl⟩

end MiniHedge.Orders
