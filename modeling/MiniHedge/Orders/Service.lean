import MiniHedge.Library.Interleaving
import MiniHedge.Orders.ProcessFill

/-! The calls of the order service as processes on the tables.

Every turn is one statement with its commit, one published event or one answer
of the broker; between two turns of a call the others may take theirs. An
execution is the broker's: it is possible once the broker has accepted the
order, and turns into the report that the adapter hands to the service.
-/

set_option autoImplicit false

namespace MiniHedge.Orders

open MiniHedge.Python MiniHedge.Positions MiniHedge.Library

/-- What the broker answers to a submission. -/
inductive Ack where
  | acknowledged
  | filled (avgFillPrice : Option Decimal) (filledQuantity : Decimal)
  | rejected
  deriving DecidableEq, Repr

/-- What a turn takes from outside: a `uuid4`, the clock, the broker's answer. -/
structure Input where
  draw : UUID
  now : Datetime
  ack : Ack := .acknowledged
  deriving DecidableEq, Repr

/-! ## `process_execution_report` -/

structure Report where
  clientOrderId : String
  fillPrice : Decimal
  fillQuantity : Decimal
  filledAt : Option Datetime := none
  brokerId : Option String := none
  deriving DecidableEq, Repr

def Fill.start (f : Fill) : FillStage :=
  match f.check with
  | .error exc => .raised exc
  | .ok _ => .insert

theorem Fill.start_fits {f : Fill} (fits : f.quantity ≤ f.order.remaining) : f.start = .insert := by
  unfold Fill.start
  rw [Fill.check_ok fits]

theorem Fill.start_over {f : Fill} (excess : ¬ f.quantity ≤ f.order.remaining) :
    ∃ exc, f.start = .raised exc := by
  unfold Fill.start
  split
  · exact ⟨_, rfl⟩
  · rename_i checked
    exact absurd (Fill.check_ok_iff.mp checked) excess

inductive ReportStage where
  | locating (pending : List String)
  | filling (fill : Fill) (stage : FillStage)
  | ignored
  | raised (exc : Exc)
  deriving DecidableEq

namespace Report

/-- `_locate_order_across_funds` tries every schema three times. -/
def start (fundSlugs : List String) : ReportStage :=
  .locating (List.replicate 3 fundSlugs).flatten

def fill (r : Report) (fundSlug : String) (o : OrderRecord) : Fill where
  order := o
  price := r.fillPrice
  quantity := r.fillQuantity
  fundSlug := fundSlug
  brokerId := r.brokerId
  filledAt := r.filledAt

def advance (w : World) (r : Report) (input : Input) : ReportStage → Option (World × ReportStage)
  | .locating [] => none
  | .locating (fundSlug :: pending) =>
    match UUID.parse r.clientOrderId with
    | none => some (w, .raised (.valueError "badly formed hexadecimal UUID string"))
    | some id =>
      match w.order fundSlug id with
      | none => some (w, .locating pending)
      | some o =>
        if o.state.TakesFill then some (w, .filling (r.fill fundSlug o) (r.fill fundSlug o).start)
        else some (w, .ignored)
  | .filling fill stage =>
    (advanceFill w fill input.draw input.now stage).map fun moved => (moved.1, .filling fill moved.2)
  | .ignored | .raised _ => none

end Report

/-! ## `cancel_order` -/

structure Cancel where
  fundSlug : String
  orderId : UUID
  deriving DecidableEq, Repr

inductive CancelStage where
  | read
  | readChildren (order : OrderRecord)
  | cancelChildren (order : OrderRecord) (pending : List OrderRecord)
  | rereadChild (order : OrderRecord) (pending : List OrderRecord)
  | reread
  | returned (order : OrderRecord)
  | raised (exc : Exc)
  deriving DecidableEq

def Cancel.advance (w : World) (c : Cancel) : CancelStage → Option (World × CancelStage)
  | .read =>
    match w.order c.fundSlug c.orderId with
    | none => some (w, .raised (.lookupError s!"Order {c.orderId.str} not found"))
    | some order => some (w, if order.isParent then .readChildren order else .cancelChildren order [])
  | .readChildren order =>
    some (w, .cancelChildren order ((w.schemas c.fundSlug).getActiveChildren c.orderId))
  | .cancelChildren order (child :: pending) =>
    -- whatever goes wrong with one child is logged, and the next is tried
    match applyTransition child.state .cancelled with
    | .error _ => some (w, .cancelChildren order pending)
    | .ok state => some (w.updateState c.fundSlug child.id { state }, .rereadChild order pending)
  | .rereadChild order pending => some (w, .cancelChildren order pending)
  | .cancelChildren order [] =>
    match applyTransition order.state .cancelled with
    | .error exc => some (w, .raised exc)
    | .ok state => some (w.updateState c.fundSlug c.orderId { state }, .reread)
  | .reread =>
    match w.order c.fundSlug c.orderId with
    | none => some (w, .raised (notFoundAfterUpdate c.orderId))
    | some order => some (w, .returned order)
  | .returned _ | .raised _ => none

/-! ## `create_order`, once compliance has approved it -/

structure Submission where
  fundSlug : String
  orderId : UUID
  brokerId : Option String := none
  deriving DecidableEq, Repr

inductive SubmissionStage where
  | transition (order : OrderRecord)
  | rereadSent
  | submit (order : OrderRecord)
  | acknowledge (order : OrderRecord) (ack : Ack)
  | filling (fill : Fill) (stage : FillStage)
  | rereadRejected
  | returned (order : OrderRecord)
  | raised (exc : Exc)
  deriving DecidableEq

/-- `status_report.avg_fill_price or Decimal("0")`, and the filled quantity. -/
def syncFill (o : OrderRecord) (fundSlug : String) (brokerId : Option String)
    (avgFillPrice : Option Decimal) (filledQuantity : Decimal) : Fill where
  order := o
  price := avgFillPrice.getD 0
  quantity := filledQuantity
  fundSlug := fundSlug
  brokerId := brokerId

def World.submit (w : World) (o : OrderRecord) (ack : Ack) : World :=
  if ack = .rejected then w else w.accept o.id.str

def Submission.advance (w : World) (s : Submission) (input : Input) :
    SubmissionStage → Option (World × SubmissionStage)
  | .transition order =>
    match applyTransition order.state .sent with
    | .error exc => some (w, .raised exc)
    | .ok state =>
      some (w.updateState s.fundSlug s.orderId { state, brokerId := s.brokerId }, .rereadSent)
  | .rereadSent =>
    match w.order s.fundSlug s.orderId with
    | none => some (w, .raised (notFoundAfterUpdate s.orderId))
    | some order => some (w, .submit order)
  | .submit order => some (w.submit order input.ack, .acknowledge order input.ack)
  | .acknowledge order .acknowledged => some (w, .returned order)
  | .acknowledge order (.filled avg quantity) =>
    let fill := syncFill order s.fundSlug s.brokerId avg quantity
    some (w, .filling fill fill.start)
  | .acknowledge order .rejected =>
    match applyTransition order.state .cancelled with
    | .error exc => some (w, .raised exc)
    | .ok state =>
      let reason := "Broker rejected: rejected"
      some (w.updateState s.fundSlug s.orderId { state, rejectionReason := some reason },
        .rereadRejected)
  | .filling fill stage =>
    (advanceFill w fill input.draw input.now stage).map fun moved => (moved.1, .filling fill moved.2)
  | .rereadRejected =>
    match w.order s.fundSlug s.orderId with
    | none => some (w, .raised (notFoundAfterUpdate s.orderId))
    | some order => some (w, .returned order)
  | .returned _ | .raised _ => none

/-! ## `create_child_order` -/

structure Slice where
  fundSlug : String
  parentOrderId : UUID
  quantity : Decimal
  deriving DecidableEq, Repr

inductive SliceStage where
  | readParent
  | insert (parent : OrderRecord)
  | refresh (childId : UUID)
  | approve (child : OrderRecord)
  | rereadApproved (childId : UUID)
  | send (child : OrderRecord)
  | rereadSent (childId : UUID)
  | submit (child : OrderRecord)
  | acknowledge (child : OrderRecord) (ack : Ack)
  | filling (fill : Fill) (stage : FillStage)
  | returned (child : OrderRecord)
  | raised (exc : Exc)
  deriving DecidableEq

/-- The child of a parent under a new identifier; it inherits the approval. -/
def childOf (parent : OrderRecord) (s : Slice) (draw : UUID) (new : s.parentOrderId ≠ draw) :
    OrderRecord where
  id := draw
  portfolioId := parent.portfolioId
  instrumentId := parent.instrumentId
  side := parent.side
  quantity := s.quantity
  state := .draft
  parentOrderId := some s.parentOrderId
  notOwnParent := by simpa using new

def Slice.advance (w : World) (s : Slice) (input : Input) :
    SliceStage → Option (World × SliceStage)
  | .readParent =>
    match w.order s.fundSlug s.parentOrderId with
    | none => some (w, .raised (.lookupError s!"Parent order {s.parentOrderId.str} not found"))
    | some parent => some (w, .insert parent)
  | .insert parent =>
    if new : s.parentOrderId ≠ input.draw then
      match w.insert s.fundSlug (childOf parent s input.draw new) with
      | .error exc => some (w, .raised exc)
      | .ok w' => some (w', .refresh input.draw)
    else some (w, .raised .integrityError)
  | .refresh childId =>
    match w.order s.fundSlug childId with
    | none => some (w, .raised (notFoundAfterUpdate childId))
    | some child => some (w, .approve child)
  | .approve child =>
    -- pending compliance is passed through without being stored
    match applyTransition child.state .pendingCompliance with
    | .error exc => some (w, .raised exc)
    | .ok _ =>
      some (w.updateState s.fundSlug child.id { state := .approved }, .rereadApproved child.id)
  | .rereadApproved childId =>
    match w.order s.fundSlug childId with
    | none => some (w, .raised (notFoundAfterUpdate childId))
    | some child => some (w, .send child)
  | .send child =>
    match applyTransition child.state .sent with
    | .error exc => some (w, .raised exc)
    | .ok state => some (w.updateState s.fundSlug child.id { state }, .rereadSent child.id)
  | .rereadSent childId =>
    match w.order s.fundSlug childId with
    | none => some (w, .raised (notFoundAfterUpdate childId))
    | some child => some (w, .submit child)
  | .submit child => some (w.submit child input.ack, .acknowledge child input.ack)
  | .acknowledge child (.filled avg quantity) =>
    let fill := syncFill child s.fundSlug none avg quantity
    some (w, .filling fill fill.start)
  | .acknowledge child .acknowledged | .acknowledge child .rejected => some (w, .returned child)
  | .filling fill stage =>
    (advanceFill w fill input.draw input.now stage).map fun moved => (moved.1, .filling fill moved.2)
  | .returned _ | .raised _ => none

/-! ## All of them -/

inductive Process where
  | execution (r : Report)
  | report (r : Report) (stage : ReportStage)
  | cancel (c : Cancel) (stage : CancelStage)
  | submission (s : Submission) (stage : SubmissionStage)
  | slice (s : Slice) (stage : SliceStage)
  deriving DecidableEq

namespace Process

variable (fundSlugs : List String)

def advance (w : World) (input : Input) : Process → Option (World × Process)
  | .execution r =>
    if r.clientOrderId ∈ w.accepted then some (w, .report r (Report.start fundSlugs)) else none
  | .report r stage => (r.advance w input stage).map fun moved => (moved.1, .report r moved.2)
  | .cancel c stage => (c.advance w stage).map fun moved => (moved.1, .cancel c moved.2)
  | .submission s stage =>
    (s.advance w input stage).map fun moved => (moved.1, .submission s moved.2)
  | .slice s stage => (s.advance w input stage).map fun moved => (moved.1, .slice s moved.2)

/-- The fill that the call processes. -/
def filling : Process → Option (Fill × FillStage)
  | .report _ (.filling fill stage) | .submission _ (.filling fill stage)
  | .slice _ (.filling fill stage) => some (fill, stage)
  | _ => none

end Process

/-! Calls that have returned or raised. -/

def FillStage.finished : FillStage → Bool
  | .stored _ (.returned _) | .stored _ (.raised _) | .raised _ => true
  | _ => false

def Process.finished : Process → Bool
  | .report _ (.locating []) | .report _ .ignored | .report _ (.raised _) => true
  | .cancel _ (.returned _) | .cancel _ (.raised _) => true
  | .submission _ (.returned _) | .submission _ (.raised _) => true
  | .slice _ (.returned _) | .slice _ (.raised _) => true
  | .report _ (.filling _ stage) | .submission _ (.filling _ stage) | .slice _ (.filling _ stage) =>
    stage.finished
  | _ => false

theorem advanceFill_eq_none {w : World} {f : Fill} {draw : UUID} {now : Datetime}
    {stage : FillStage} : advanceFill w f draw now stage = none ↔ stage.finished := by
  cases stage with
  | insert =>
    simp only [advanceFill, FillStage.finished]
    split <;> simp
  | stored tradeId step =>
    cases step <;> simp only [advanceFill, advanceStep, FillStage.finished, Option.map_eq_none_iff] <;>
      (try split) <;> simp
  | raised exc => simp [advanceFill, FillStage.finished]

theorem Report.advance_eq_none {w : World} {r : Report} {input : Input} {stage : ReportStage} :
    r.advance w input stage = none ↔ (Process.report r stage).finished := by
  cases stage with
  | locating pending =>
    cases pending with
    | nil => simp [Report.advance, Process.finished]
    | cons fundSlug pending =>
      simp only [Report.advance, Process.finished]
      split
      · simp
      · split
        · simp
        · split <;> simp
  | filling fill stage =>
    simp [Report.advance, Process.finished, Option.map_eq_none_iff, advanceFill_eq_none]
  | ignored => simp [Report.advance, Process.finished]
  | raised exc => simp [Report.advance, Process.finished]

theorem Cancel.advance_eq_none {w : World} {c : Cancel} {stage : CancelStage} :
    c.advance w stage = none ↔ (Process.cancel c stage).finished := by
  cases stage with
  | cancelChildren order pending =>
    cases pending <;> simp only [Cancel.advance, Process.finished] <;> split <;> simp
  | read | reread =>
    simp only [Cancel.advance, Process.finished]
    split <;> simp
  | readChildren order | rereadChild order pending | returned order | raised exc =>
    simp [Cancel.advance, Process.finished]

/-- A call is finished when no turn is left to it. -/
theorem Call.finished_iff {fundSlugs : List String} {w : World} {input : Input} {p : Process}
    (call : (∃ r stage, p = .report r stage) ∨ ∃ c stage, p = .cancel c stage) :
    p.finished ↔ p.advance fundSlugs w input = none := by
  rcases call with ⟨r, stage, rfl⟩ | ⟨c, stage, rfl⟩
  · simp [Process.advance, Option.map_eq_none_iff, Report.advance_eq_none]
  · simp [Process.advance, Option.map_eq_none_iff, Cancel.advance_eq_none]

def orders (fundSlugs : List String) : Processes World Process Input where
  advance w _ p input := p.advance fundSlugs w input

/-- The calls that reach an order once it is created. -/
inductive Call where
  | processExecutionReport (r : Report)
  | cancelOrder (c : Cancel)
  deriving DecidableEq, Repr

namespace Call

def process (fundSlugs : List String) : Call → Process
  | .processExecutionReport r => .report r (Report.start fundSlugs)
  | .cancelOrder c => .cancel c .read

/-- The order that a call is for. -/
def orderId : Call → Option UUID
  | .processExecutionReport r => UUID.parse r.clientOrderId
  | .cancelOrder c => some c.orderId

end Call

def serve (fundSlugs : List String) (w : World) (calls : List Call) :
    Processes.State World Process :=
  ⟨w, calls.map (Call.process fundSlugs)⟩

end MiniHedge.Orders
