import MiniHedge.Orders.Service

/-! Calls for one order.

A call for an order reads and writes the row of that order; the other rows it
writes are those of the order's parent and of its children, which are other
orders, since no order is its own parent.
-/

set_option autoImplicit false

namespace MiniHedge.Orders

open MiniHedge.Python MiniHedge.Positions MiniHedge.Library

section

variable (id : UUID)

/-- The rows held by a fill of the order; its parent is another one. -/
def FillStep.Own : FillStep → Prop
  | .publishTrade order | .publishFilled order | .readParent order | .returned order =>
    order.id = id
  | .readChildren order parent | .updateParent order parent _ | .rereadParent order parent =>
    order.id = id ∧ parent.id ≠ id
  | .update | .reread | .raised _ => True

def FillStage.Own : FillStage → Prop
  | .insert | .raised _ => True
  | .stored _ next => next.Own id

def Fill.Own (f : Fill) (stage : FillStage) : Prop := f.order.id = id ∧ stage.Own id

def ReportStage.Own : ReportStage → Prop
  | .filling fill stage => fill.Own id stage
  | .locating _ | .ignored | .raised _ => True

def CancelStage.Own : CancelStage → Prop
  | .readChildren order | .returned order => order.id = id
  | .cancelChildren order pending | .rereadChild order pending =>
    order.id = id ∧ ∀ child ∈ pending, child.id ≠ id
  | .read | .reread | .raised _ => True

def SubmissionStage.Own : SubmissionStage → Prop
  | .transition order | .submit order | .acknowledge order _ | .returned order => order.id = id
  | .filling fill stage => fill.Own id stage
  | .rereadSent | .rereadRejected | .raised _ => True

/-- The calls for the order, apart from those that create its children. -/
def Process.Own : Process → Prop
  | .execution r => UUID.parse r.clientOrderId = some id
  | .report r stage => UUID.parse r.clientOrderId = some id ∧ stage.Own id
  | .cancel c stage => c.orderId = id ∧ stage.Own id
  | .submission s stage => s.orderId = id ∧ stage.Own id
  | .slice _ _ => False

end

theorem Fill.start_own (id : UUID) (f : Fill) : f.start.Own id := by
  unfold Fill.start
  split <;> trivial

variable {id : UUID} {w w' : World} {input : Input}

theorem advanceStep_own {f : Fill} {tradeId : UUID} {step step' : FillStep}
    (order : f.order.id = id) (own : step.Own id)
    (advanced : advanceStep w f tradeId step = some (w', step')) : step'.Own id := by
  cases step with
  | update =>
    simp only [advanceStep] at advanced
    split at advanced <;> cases advanced <;> trivial
  | reread =>
    simp only [advanceStep] at advanced
    split at advanced
    · cases advanced
      trivial
    · rename_i row found
      cases advanced
      exact (World.id_of_order found).trans order
  | publishTrade row =>
    cases advanced
    exact own
  | publishFilled row =>
    simp only [advanceStep, Option.some.injEq, Prod.mk.injEq] at advanced
    obtain ⟨-, rfl⟩ := advanced
    split <;> exact own
  | readParent row =>
    simp only [advanceStep] at advanced
    split at advanced
    · cases advanced
      exact own
    · rename_i parent found
      cases advanced
      refine ⟨own, fun same => row.notOwnParent ?_⟩
      obtain ⟨parentId, link, read⟩ := Option.bind_eq_some_iff.mp found
      rw [link, ← World.id_of_order read, same]
      exact congrArg some own.symm
  | readChildren row parent =>
    simp only [advanceStep] at advanced
    split at advanced
    · cases advanced
      exact own.1
    · cases advanced
      exact own
  | updateParent row parent u =>
    cases advanced
    exact own
  | rereadParent row parent =>
    simp only [advanceStep] at advanced
    split at advanced
    · cases advanced
      trivial
    · cases advanced
      exact own.1
  | returned row => cases advanced
  | raised exc => cases advanced

theorem advanceFill_own {f : Fill} {draw : UUID} {now : Datetime} {stage stage' : FillStage}
    (own : f.Own id stage) (advanced : advanceFill w f draw now stage = some (w', stage')) :
    f.Own id stage' := by
  obtain ⟨order, held⟩ := own
  refine ⟨order, ?_⟩
  cases stage with
  | insert =>
    simp only [advanceFill] at advanced
    split at advanced <;> cases advanced <;> trivial
  | stored tradeId step =>
    simp only [advanceFill, Option.map_eq_some_iff, Prod.mk.injEq] at advanced
    obtain ⟨⟨next, step'⟩, moved, rfl, rfl⟩ := advanced
    exact advanceStep_own order held moved
  | raised exc => cases advanced

theorem Report.advance_own {r : Report} {stage stage' : ReportStage}
    (parsed : UUID.parse r.clientOrderId = some id) (own : stage.Own id)
    (advanced : r.advance w input stage = some (w', stage')) : stage'.Own id := by
  cases stage with
  | locating pending =>
    cases pending with
    | nil => cases advanced
    | cons fundSlug pending =>
      simp only [Report.advance, parsed] at advanced
      split at advanced
      · cases advanced
        trivial
      · rename_i order found
        split at advanced
        · cases advanced
          exact ⟨World.id_of_order found, Fill.start_own id _⟩
        · cases advanced
          trivial
  | filling fill stage =>
    simp only [Report.advance, Option.map_eq_some_iff, Prod.mk.injEq] at advanced
    obtain ⟨⟨next, stage'⟩, moved, rfl, rfl⟩ := advanced
    exact advanceFill_own own moved
  | ignored => cases advanced
  | raised exc => cases advanced

theorem Cancel.advance_own {c : Cancel} {stage stage' : CancelStage} (asked : c.orderId = id)
    (own : stage.Own id) (advanced : c.advance w stage = some (w', stage')) : stage'.Own id := by
  cases stage with
  | read =>
    simp only [Cancel.advance] at advanced
    split at advanced
    · cases advanced
      trivial
    · rename_i order found
      simp only [Option.some.injEq, Prod.mk.injEq] at advanced
      obtain ⟨-, rfl⟩ := advanced
      have read : order.id = id := (World.id_of_order found).trans asked
      split
      · exact read
      · exact ⟨read, by simp⟩
  | readChildren order =>
    cases advanced
    refine ⟨own, fun child member same => child.notOwnParent ?_⟩
    rw [Schema.parentOrderId_of_getChildren (List.mem_filter.mp member).1, asked, same]
  | cancelChildren order pending =>
    obtain ⟨read, others⟩ := own
    cases pending with
    | nil =>
      simp only [Cancel.advance] at advanced
      split at advanced <;> cases advanced <;> trivial
    | cons child pending =>
      have rest : ∀ child ∈ pending, child.id ≠ id :=
        fun other member => others other (List.mem_cons_of_mem child member)
      simp only [Cancel.advance] at advanced
      split at advanced <;> cases advanced <;> exact ⟨read, rest⟩
  | rereadChild order pending =>
    cases advanced
    exact own
  | reread =>
    simp only [Cancel.advance] at advanced
    split at advanced
    · cases advanced
      trivial
    · rename_i order found
      cases advanced
      exact (World.id_of_order found).trans asked
  | returned order => cases advanced
  | raised exc => cases advanced

theorem Submission.advance_own {s : Submission} {stage stage' : SubmissionStage}
    (asked : s.orderId = id) (own : stage.Own id)
    (advanced : s.advance w input stage = some (w', stage')) : stage'.Own id := by
  cases stage with
  | transition order =>
    simp only [Submission.advance] at advanced
    split at advanced <;> cases advanced <;> trivial
  | rereadSent =>
    simp only [Submission.advance] at advanced
    split at advanced
    · cases advanced
      trivial
    · rename_i order found
      cases advanced
      exact (World.id_of_order found).trans asked
  | submit order =>
    cases advanced
    exact own
  | acknowledge order ack =>
    cases ack with
    | acknowledged =>
      cases advanced
      exact own
    | filled avg quantity =>
      cases advanced
      exact ⟨own, Fill.start_own id _⟩
    | rejected =>
      simp only [Submission.advance] at advanced
      split at advanced <;> cases advanced <;> trivial
  | filling fill stage =>
    simp only [Submission.advance, Option.map_eq_some_iff, Prod.mk.injEq] at advanced
    obtain ⟨⟨next, stage'⟩, moved, rfl, rfl⟩ := advanced
    exact advanceFill_own own moved
  | rereadRejected =>
    simp only [Submission.advance] at advanced
    split at advanced
    · cases advanced
      trivial
    · rename_i order found
      cases advanced
      exact (World.id_of_order found).trans asked
  | returned order => cases advanced
  | raised exc => cases advanced

theorem Process.Own.advance {fundSlugs : List String} {p p' : Process} (own : p.Own id)
    (advanced : p.advance fundSlugs w input = some (w', p')) : p'.Own id := by
  cases p with
  | execution r =>
    simp only [Process.advance] at advanced
    split at advanced
    · cases advanced
      exact ⟨own, trivial⟩
    · cases advanced
  | report r stage =>
    simp only [Process.advance, Option.map_eq_some_iff, Prod.mk.injEq] at advanced
    obtain ⟨⟨next, stage'⟩, moved, rfl, rfl⟩ := advanced
    exact ⟨own.1, Report.advance_own own.1 own.2 moved⟩
  | cancel c stage =>
    simp only [Process.advance, Option.map_eq_some_iff, Prod.mk.injEq] at advanced
    obtain ⟨⟨next, stage'⟩, moved, rfl, rfl⟩ := advanced
    exact ⟨own.1, Cancel.advance_own own.1 own.2 moved⟩
  | submission s stage =>
    simp only [Process.advance, Option.map_eq_some_iff, Prod.mk.injEq] at advanced
    obtain ⟨⟨next, stage'⟩, moved, rfl, rfl⟩ := advanced
    exact ⟨own.1, Submission.advance_own own.1 own.2 moved⟩
  | slice s stage => exact own.elim

/-! ## What a turn does to the order -/

/-- The fill that is stored while the totals do not count it yet. -/
def FillStage.unwritten (f : Fill) : FillStage → Option Fill
  | .stored _ .update => some f
  | _ => none

def Process.unwritten (p : Process) : Option Fill :=
  p.filling.bind fun (f, stage) => stage.unwritten f

/-- The order, as the call has read it, whose state the call writes next. -/
def Process.writing : Process → Option (String × OrderRecord)
  | .cancel c (.cancelChildren order []) => some (c.fundSlug, order)
  | .submission s (.transition order) | .submission s (.acknowledge order .rejected) =>
    some (s.fundSlug, order)
  | p => p.unwritten.map fun f => (f.fundSlug, f.order)

/-- A turn leaves the order alone, stores a fill of it, or writes its row: the
state after a transition that was checked on the order as it was read, with the
totals when a fill is written. -/
inductive OwnTurn (id : UUID) (w w' : World) (unwritten : Option Fill)
    (writing : Option (String × OrderRecord)) (unwritten' : Option Fill) : Prop
  | quiet (orders : ∀ fundSlug, w'.order fundSlug id = w.order fundSlug id)
      (fills : ∀ fundSlug, w'.fillsOf fundSlug id = w.fillsOf fundSlug id)
      (same : unwritten' = unwritten)
  | failed (f : Fill) (exc : Exc) (before : unwritten = some f) (failed : f.update = .error exc)
      (untouched : w' = w)
  | insert (f : Fill) (draw : UUID) (now : Datetime) (order : f.order.id = id)
      (before : unwritten = none) (after : unwritten' = some f)
      (inserted : w.insertFill f.fundSlug (f.record draw now) = .ok w')
  | write (fundSlug : String) (o : OrderRecord) (u : Update) (read : writing = some (fundSlug, o))
      (valid : u.state ∈ o.state.transitions) (written : w' = w.updateState fundSlug id u)
      (totals : unwritten = none ∧ u.KeepsTotals ∨
        ∃ f, unwritten = some f ∧ f.fundSlug = fundSlug ∧ f.order = o ∧ f.update = .ok u)
      (after : unwritten' = none)

theorem OwnTurn.untouched {unwritten : Option Fill} {writing : Option (String × OrderRecord)} :
    OwnTurn id w w unwritten writing unwritten :=
  .quiet (fun _ => rfl) (fun _ => rfl) rfl

theorem advanceStep_turn {f : Fill} {tradeId : UUID} {step step' : FillStep}
    (order : f.order.id = id) (own : step.Own id)
    (advanced : advanceStep w f tradeId step = some (w', step')) :
    OwnTurn id w w' ((FillStage.stored tradeId step).unwritten f)
      (((FillStage.stored tradeId step).unwritten f).map fun f => (f.fundSlug, f.order))
      ((FillStage.stored tradeId step').unwritten f) := by
  cases step with
  | update =>
    simp only [advanceStep] at advanced
    split at advanced
    · rename_i exc failed
      cases advanced
      exact .failed f exc rfl failed rfl
    · rename_i u updated
      cases advanced
      exact .write f.fundSlug f.order u rfl (Fill.update_state updated) (by rw [order])
        (.inr ⟨f, rfl, rfl, rfl, updated⟩) rfl
  | reread =>
    simp only [advanceStep] at advanced
    split at advanced <;> cases advanced <;> exact .untouched
  | publishTrade row =>
    cases advanced
    exact .quiet (fun _ => rfl) (fun _ => rfl) rfl
  | publishFilled row =>
    simp only [advanceStep, Option.some.injEq, Prod.mk.injEq] at advanced
    obtain ⟨rfl, rfl⟩ := advanced
    refine .quiet (fun _ => rfl) (fun _ => rfl) ?_
    split <;> rfl
  | readParent row =>
    simp only [advanceStep] at advanced
    split at advanced <;> cases advanced <;> exact .untouched
  | readChildren row parent =>
    simp only [advanceStep] at advanced
    split at advanced <;> cases advanced <;> exact .untouched
  | updateParent row parent u =>
    cases advanced
    refine .quiet (fun fundSlug => ?_) (fun fundSlug => ?_) rfl
    · exact World.order_updateState_other u fun hit => own.2 hit.2
    · exact World.fillsOf_updateState _ _ _ _ _
  | rereadParent row parent =>
    simp only [advanceStep] at advanced
    split at advanced <;> cases advanced <;> exact .untouched
  | returned row => cases advanced
  | raised exc => cases advanced

theorem advanceFill_turn {f : Fill} {draw : UUID} {now : Datetime} {stage stage' : FillStage}
    (own : f.Own id stage) (advanced : advanceFill w f draw now stage = some (w', stage')) :
    OwnTurn id w w' (stage.unwritten f)
      ((stage.unwritten f).map fun f => (f.fundSlug, f.order)) (stage'.unwritten f) := by
  cases stage with
  | insert =>
    simp only [advanceFill] at advanced
    split at advanced
    · cases advanced
      exact .untouched
    · rename_i next inserted
      cases advanced
      exact .insert f draw now own.1 rfl rfl inserted
  | stored tradeId step =>
    simp only [advanceFill, Option.map_eq_some_iff, Prod.mk.injEq] at advanced
    obtain ⟨⟨next, step'⟩, moved, rfl, rfl⟩ := advanced
    exact advanceStep_turn own.1 own.2 moved
  | raised exc => cases advanced

theorem Fill.start_unwritten (f : Fill) : f.start.unwritten f = none := by
  unfold Fill.start
  split <;> rfl

theorem Report.advance_turn {r : Report} {stage stage' : ReportStage} (own : stage.Own id)
    (advanced : r.advance w input stage = some (w', stage')) :
    OwnTurn id w w' (Process.report r stage).unwritten (Process.report r stage).writing
      (Process.report r stage').unwritten := by
  cases stage with
  | locating pending =>
    cases pending with
    | nil => cases advanced
    | cons fundSlug pending =>
      simp only [Report.advance] at advanced
      split at advanced
      · cases advanced
        exact .untouched
      · split at advanced
        · cases advanced
          exact .untouched
        · split at advanced
          · cases advanced
            exact .quiet (fun _ => rfl) (fun _ => rfl) (Fill.start_unwritten _)
          · cases advanced
            exact .untouched
  | filling fill stage =>
    simp only [Report.advance, Option.map_eq_some_iff, Prod.mk.injEq] at advanced
    obtain ⟨⟨next, stage'⟩, moved, rfl, rfl⟩ := advanced
    exact advanceFill_turn own moved
  | ignored => cases advanced
  | raised exc => cases advanced

theorem Cancel.advance_turn {c : Cancel} {stage stage' : CancelStage} (asked : c.orderId = id)
    (own : stage.Own id) (advanced : c.advance w stage = some (w', stage')) :
    OwnTurn id w w' none (Process.cancel c stage).writing none := by
  cases stage with
  | read =>
    simp only [Cancel.advance] at advanced
    split at advanced <;> cases advanced <;> exact .untouched
  | readChildren order =>
    cases advanced
    exact .untouched
  | cancelChildren order pending =>
    cases pending with
    | nil =>
      simp only [Cancel.advance] at advanced
      split at advanced
      · cases advanced
        exact .untouched
      · rename_i state applied
        cases advanced
        obtain ⟨valid, rfl⟩ := applyTransition_eq_ok applied
        exact .write c.fundSlug order _ rfl valid (by rw [asked]) (.inl ⟨rfl, rfl, rfl⟩) rfl
    | cons child pending =>
      simp only [Cancel.advance] at advanced
      split at advanced
      · cases advanced
        exact .untouched
      · cases advanced
        have other : child.id ≠ id := own.2 child (List.mem_cons_self ..)
        exact .quiet (fun _ => World.order_updateState_other _ fun hit => other hit.2)
          (fun _ => World.fillsOf_updateState _ _ _ _ _) rfl
  | rereadChild order pending =>
    cases advanced
    exact .untouched
  | reread =>
    simp only [Cancel.advance] at advanced
    split at advanced <;> cases advanced <;> exact .untouched
  | returned order => cases advanced
  | raised exc => cases advanced

theorem World.submit_reads (w : World) (o : OrderRecord) (ack : Ack) (fundSlug : String)
    (id : UUID) : (w.submit o ack).order fundSlug id = w.order fundSlug id ∧
      (w.submit o ack).fillsOf fundSlug id = w.fillsOf fundSlug id := by
  unfold World.submit
  split <;> exact ⟨rfl, rfl⟩

theorem Submission.advance_turn {s : Submission} {stage stage' : SubmissionStage}
    (asked : s.orderId = id) (own : stage.Own id)
    (advanced : s.advance w input stage = some (w', stage')) :
    OwnTurn id w w' (Process.submission s stage).unwritten (Process.submission s stage).writing
      (Process.submission s stage').unwritten := by
  cases stage with
  | transition order =>
    simp only [Submission.advance] at advanced
    split at advanced
    · cases advanced
      exact .untouched
    · rename_i state applied
      cases advanced
      obtain ⟨valid, rfl⟩ := applyTransition_eq_ok applied
      exact .write s.fundSlug order _ rfl valid (by rw [asked]) (.inl ⟨rfl, rfl, rfl⟩) rfl
  | rereadSent =>
    simp only [Submission.advance] at advanced
    split at advanced <;> cases advanced <;> exact .untouched
  | submit order =>
    cases advanced
    exact .quiet (fun fundSlug => (w.submit_reads order input.ack fundSlug id).1)
      (fun fundSlug => (w.submit_reads order input.ack fundSlug id).2) rfl
  | acknowledge order ack =>
    cases ack with
    | acknowledged =>
      cases advanced
      exact .untouched
    | filled avg quantity =>
      cases advanced
      exact .quiet (fun _ => rfl) (fun _ => rfl) (Fill.start_unwritten _)
    | rejected =>
      simp only [Submission.advance] at advanced
      split at advanced
      · cases advanced
        exact .untouched
      · rename_i state applied
        cases advanced
        obtain ⟨valid, rfl⟩ := applyTransition_eq_ok applied
        exact .write s.fundSlug order _ rfl valid (by rw [asked]) (.inl ⟨rfl, rfl, rfl⟩) rfl
  | filling fill stage =>
    simp only [Submission.advance, Option.map_eq_some_iff, Prod.mk.injEq] at advanced
    obtain ⟨⟨next, stage'⟩, moved, rfl, rfl⟩ := advanced
    exact advanceFill_turn own moved
  | rereadRejected =>
    simp only [Submission.advance] at advanced
    split at advanced <;> cases advanced <;> exact .untouched
  | returned order => cases advanced
  | raised exc => cases advanced

theorem Process.Own.turn {fundSlugs : List String} {p p' : Process} (own : p.Own id)
    (advanced : p.advance fundSlugs w input = some (w', p')) :
    OwnTurn id w w' p.unwritten p.writing p'.unwritten := by
  cases p with
  | execution r =>
    simp only [Process.advance] at advanced
    split at advanced
    · cases advanced
      exact .untouched
    · cases advanced
  | report r stage =>
    simp only [Process.advance, Option.map_eq_some_iff, Prod.mk.injEq] at advanced
    obtain ⟨⟨next, stage'⟩, moved, rfl, rfl⟩ := advanced
    exact Report.advance_turn own.2 moved
  | cancel c stage =>
    simp only [Process.advance, Option.map_eq_some_iff, Prod.mk.injEq] at advanced
    obtain ⟨⟨next, stage'⟩, moved, rfl, rfl⟩ := advanced
    exact Cancel.advance_turn own.1 own.2 moved
  | submission s stage =>
    simp only [Process.advance, Option.map_eq_some_iff, Prod.mk.injEq] at advanced
    obtain ⟨⟨next, stage'⟩, moved, rfl, rfl⟩ := advanced
    exact Submission.advance_turn own.1 own.2 moved
  | slice s stage => exact own.elim

theorem Call.process_own (fundSlugs : List String) {call : Call}
    (asked : call.orderId = some id) : (call.process fundSlugs).Own id := by
  cases call with
  | processExecutionReport r => exact ⟨asked, trivial⟩
  | cancelOrder c => exact ⟨Option.some.inj asked, trivial⟩

theorem serve_own {fundSlugs : List String} {calls : List Call}
    (asked : ∀ call ∈ calls, call.orderId = some id) :
    ∀ p ∈ (serve fundSlugs w calls).processes, p.Own id := by
  intro p member
  obtain ⟨call, among, rfl⟩ := List.mem_map.mp member
  exact Call.process_own fundSlugs (asked call among)

theorem step_own {fundSlugs : List String} {s next : Processes.State World Process}
    {turn : Processes.Turn Input} (own : ∀ p ∈ s.processes, p.Own id)
    (stepped : (orders fundSlugs).system.step s turn = some next) :
    ∀ p ∈ next.processes, p.Own id :=
  Processes.step_each (fun _ _ _ _ _ _ held advanced => Process.Own.advance held advanced) own
    stepped

end MiniHedge.Orders
