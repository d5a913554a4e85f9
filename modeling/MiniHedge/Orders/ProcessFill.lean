import MiniHedge.Orders.Tables
import MiniHedge.Python.Context

/-! `_process_fill`, statement by statement.

The over-fill check, the totals and the transition are computed from the order
as the caller has read it; the fill is stored and the totals are written by
statements of their own, each with its own commit, and the events follow. A
fill of a child order recomputes the parent at the end.

Scorecards, audit entries, cost analysis and the wake-up of an iceberg runner
write nothing of what is modelled here, and their failures are not the fill's.
-/

set_option autoImplicit false

namespace MiniHedge.Orders

open MiniHedge.Python MiniHedge.Positions

/-- The arguments of `_process_fill`. -/
structure Fill where
  order : OrderRecord
  price : Decimal
  quantity : Decimal
  fundSlug : String
  brokerId : Option String := none
  filledAt : Option Datetime := none
  deriving DecidableEq

namespace Fill

variable (f : Fill)

def check : Except Exc Unit :=
  if f.order.remaining < f.quantity then
    .error (.valueError
      s!"Fill quantity {f.quantity} exceeds remaining {f.order.remaining} on order {f.order.id.str}")
  else .ok ()

def record (tradeId : UUID) (now : Datetime) : OrderFillRecord where
  id := tradeId
  orderId := f.order.id
  quantity := f.quantity
  price := f.price
  brokerId := (truthy f.brokerId).or f.order.brokerId
  filledAt := f.filledAt.getD now

def newFilled : Decimal := f.order.filledQuantity + f.quantity

def targetState : OrderState :=
  if f.order.quantity ≤ f.newFilled then .filled else .partiallyFilled

/-- What has been paid at an average and by the fill, to the digits of the context. -/
def paid (avg : Decimal) : Decimal :=
  Context.default.add (Context.default.multiply avg f.order.filledQuantity)
    (Context.default.multiply f.price f.quantity)

def avgPrice : Except Exc Decimal :=
  match f.order.avgFillPrice with
  | some avg =>
    if 0 < f.order.filledQuantity then (divide (f.paid avg) f.newFilled).map significant
    else .ok f.price
  | none => .ok f.price

/-- What the `UPDATE` after the fill sets. -/
def update : Except Exc Update := do
  let avg ← f.avgPrice
  let state ← applyTransition f.order.state f.targetState
  return { state, filledQuantity := some f.newFilled, avgFillPrice := some avg }

/-- The average can be continued: nothing is filled yet, or the fill does not
take a known average back to a zero quantity. -/
def Averageable : Prop :=
  f.order.filledQuantity = 0 ∨
    0 < f.order.filledQuantity ∧ f.order.avgFillPrice.isSome ∧ f.newFilled ≠ 0

instance : Decidable f.Averageable := inferInstanceAs (Decidable (_ ∨ _))

/-- The price has the digits that the context keeps, and where an average is continued,
what has been paid has them too. -/
def Precise : Prop :=
  Fits f.price ∧ (0 < f.order.filledQuantity →
    Fits f.order.cost ∧ Fits (f.price * f.quantity) ∧ Fits (f.order.cost + f.price * f.quantity))

instance : Decidable f.Precise := inferInstanceAs (Decidable (_ ∧ (_ → _)))

variable {f}

theorem check_ok (fits : f.quantity ≤ f.order.remaining) : f.check = .ok () :=
  if_neg (not_lt.mpr fits)

theorem check_ok_iff : f.check = .ok () ↔ f.quantity ≤ f.order.remaining := by
  unfold check
  split <;> rename_i excess
  · simp [excess]
  · simpa using excess

theorem targetState_fill : f.targetState = .filled ∨ f.targetState = .partiallyFilled := by
  unfold targetState
  split
  · exact .inl rfl
  · exact .inr rfl

theorem avgPrice_total (safe : 0 < f.order.filledQuantity → f.newFilled ≠ 0) :
    ∃ avg, f.avgPrice = .ok avg := by
  unfold avgPrice
  split
  · split
    · rename_i positive
      rw [divide_ok (safe positive)]
      exact ⟨_, rfl⟩
    · exact ⟨_, rfl⟩
  · exact ⟨_, rfl⟩

/-- The average is what has been paid for a share, to the digits of the context. -/
theorem avgPrice_eq {avg : Decimal} (averageable : f.Averageable) (precise : f.Precise)
    (priced : f.avgPrice = .ok avg) (filled : f.newFilled ≠ 0) :
    avg = significant ((f.order.cost + f.quantity * f.price) / f.newFilled) := by
  rcases averageable with zero | ⟨positive, known, -⟩
  · have own : avg = f.price := by
      simp only [avgPrice, zero, lt_irrefl, if_false] at priced
      split at priced <;> exact (Except.ok.inj priced).symm
    have only : f.newFilled = f.quantity := by rw [newFilled, zero, zero_add]
    rw [only] at filled
    rw [own, OrderRecord.cost, zero, mul_zero, zero_add, only, mul_div_cancel_left₀ _ filled,
      precise.1.significant_eq]
  · obtain ⟨old, had⟩ := Option.isSome_iff_exists.mp known
    obtain ⟨before, own, both⟩ := precise.2 positive
    have cost : f.order.cost = old * f.order.filledQuantity := by
      rw [OrderRecord.cost, had, Option.getD_some]
    have paid : f.paid old = f.order.cost + f.quantity * f.price := by
      have sum : f.paid old =
          significant (significant f.order.cost + significant (f.price * f.quantity)) := by
        rw [cost]
        rfl
      rw [sum, before.significant_eq, own.significant_eq, both.significant_eq, mul_comm f.price]
    simp only [avgPrice, had, if_pos positive, paid, divide_ok filled] at priced
    exact (Except.ok.inj priced).symm

/-- What an update leaves of the filled quantity and the average. -/
theorem update_totals {u : Update} (updated : f.update = .ok u) (row : OrderRecord) :
    (u.set row).filledQuantity = f.newFilled ∧
      ∃ avg, f.avgPrice = .ok avg ∧ (u.set row).avgFillPrice = some (numeric 8 avg) := by
  cases priced : f.avgPrice with
  | error exc => simp [update, priced, Bind.bind, Except.bind] at updated
  | ok avg =>
    simp only [update, priced, Bind.bind, Except.bind] at updated
    split at updated
    · cases updated
    · cases updated
      exact ⟨rfl, avg, rfl, rfl⟩

theorem update_state {u : Update} (updated : f.update = .ok u) :
    u.state ∈ f.order.state.transitions := by
  cases priced : f.avgPrice with
  | error exc => simp [update, priced, Bind.bind, Except.bind] at updated
  | ok avg =>
    cases applied : applyTransition f.order.state f.targetState with
    | error exc => simp [update, priced, applied, Bind.bind, Except.bind] at updated
    | ok state =>
      obtain ⟨valid, rfl⟩ := applyTransition_eq_ok applied
      simp only [update, priced, applied, Bind.bind, Except.bind, Pure.pure, Except.pure,
        Except.ok.injEq] at updated
      rw [← updated]
      exact valid

theorem update_ok (takes : f.order.state.TakesFill)
    (safe : 0 < f.order.filledQuantity → f.newFilled ≠ 0) : ∃ u, f.update = .ok u := by
  obtain ⟨avg, priced⟩ := avgPrice_total safe
  simp [update, priced, takes.transition targetState_fill, Bind.bind, Except.bind, Pure.pure,
    Except.pure]

end Fill

/-! ## The parent of a child order -/

/-- `_update_parent_from_children`, from the rows it has read; `none` where it
returns without writing. -/
def parentUpdate (parent : OrderRecord) (children : List OrderRecord) : Option Update :=
  if children = [] then none
  else
    let newState := deriveParentState (children.map (·.state))
    let totalFilled := (children.map (·.filledQuantity)).sum
    let totalCost := ((children.filter fun c =>
      c.avgFillPrice ≠ none ∧ 0 < c.filledQuantity).map OrderRecord.cost).sum
    if newState ≠ parent.state ∧ newState ∉ parent.state.transitions then none
    else some {
      state := newState
      filledQuantity := some totalFilled
      avgFillPrice := if 0 < totalFilled then some (totalCost / totalFilled) else none }

/-! ## The statements -/

/-- What comes next once the fill is stored. -/
inductive FillStep where
  | update
  | reread
  | publishTrade (order : OrderRecord)
  | publishFilled (order : OrderRecord)
  | readParent (order : OrderRecord)
  | readChildren (order parent : OrderRecord)
  | updateParent (order parent : OrderRecord) (u : Update)
  | rereadParent (order parent : OrderRecord)
  | returned (order : OrderRecord)
  | raised (exc : Exc)
  deriving DecidableEq

inductive FillStage where
  | insert
  | stored (tradeId : UUID) (next : FillStep)
  | raised (exc : Exc)
  deriving DecidableEq

def notFoundAfterUpdate (id : UUID) : Exc :=
  .runtimeError s!"Order {id.str} not found after update"

def advanceStep (w : World) (f : Fill) (tradeId : UUID) : FillStep → Option (World × FillStep)
  | .update =>
    match f.update with
    | .error exc => some (w, .raised exc)
    | .ok u => some (w.updateState f.fundSlug f.order.id u, .reread)
  | .reread =>
    match w.order f.fundSlug f.order.id with
    | none => some (w, .raised (notFoundAfterUpdate f.order.id))
    | some order => some (w, .publishTrade order)
  | .publishTrade order =>
    some (w.publish (tradeExecuted f.fundSlug order tradeId f.quantity f.price),
      .publishFilled order)
  | .publishFilled order =>
    some (w.publish (orderFilled f.fundSlug order f.quantity f.price),
      if order.parentOrderId.isSome then .readParent order else .returned order)
  | .readParent order =>
    match order.parentOrderId.bind (w.order f.fundSlug) with
    | none => some (w, .returned order)
    | some parent => some (w, .readChildren order parent)
  | .readChildren order parent =>
    match parentUpdate parent ((w.schemas f.fundSlug).getChildren parent.id) with
    | none => some (w, .returned order)
    | some u => some (w, .updateParent order parent u)
  | .updateParent order parent u =>
    some (w.updateState f.fundSlug parent.id u, .rereadParent order parent)
  | .rereadParent order parent =>
    match w.order f.fundSlug parent.id with
    | none => some (w, .raised (notFoundAfterUpdate parent.id))
    | some _ => some (w, .returned order)
  | .returned _ | .raised _ => none

/-- `draw` is the `uuid4` and `now` the clock of the turn. -/
def advanceFill (w : World) (f : Fill) (draw : UUID) (now : Datetime) :
    FillStage → Option (World × FillStage)
  | .insert =>
    match w.insertFill f.fundSlug (f.record draw now) with
    | .error exc => some (w, .raised exc)
    | .ok w' => some (w', .stored draw .update)
  | .stored tradeId next =>
    (advanceStep w f tradeId next).map fun moved => (moved.1, .stored tradeId moved.2)
  | .raised _ => none

end MiniHedge.Orders
