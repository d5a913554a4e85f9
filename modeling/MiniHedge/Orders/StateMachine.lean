import MiniHedge.Python.Values

/-! The order state machine. -/

set_option autoImplicit false

namespace MiniHedge.Orders

open MiniHedge.Python

inductive OrderSide where
  | buy
  | sell
  deriving DecidableEq, Repr

def OrderSide.value : OrderSide → String
  | .buy => "buy"
  | .sell => "sell"

inductive OrderState where
  | draft
  | pendingCompliance
  | approved
  | rejected
  | sent
  | working
  | partiallyFilled
  | filled
  | cancelled
  deriving DecidableEq, Repr

namespace OrderState

def value : OrderState → String
  | draft => "draft"
  | pendingCompliance => "pending_compliance"
  | approved => "approved"
  | rejected => "rejected"
  | sent => "sent"
  | working => "working"
  | partiallyFilled => "partially_filled"
  | filled => "filled"
  | cancelled => "cancelled"

/-- `get_valid_transitions`. -/
def transitions : OrderState → List OrderState
  | draft => [pendingCompliance, cancelled]
  | pendingCompliance => [approved, rejected]
  | approved => [sent, working, cancelled]
  | rejected => []
  | working => [partiallyFilled, filled, cancelled]
  | sent => [partiallyFilled, filled, cancelled]
  | partiallyFilled => [partiallyFilled, filled, cancelled]
  | filled => []
  | cancelled => []

/-- The states that are marked as terminal. -/
def Terminal (state : OrderState) : Prop := state = rejected ∨ state = filled ∨ state = cancelled

instance (state : OrderState) : Decidable state.Terminal :=
  inferInstanceAs (Decidable (_ ∨ _ ∨ _))

theorem terminal_iff (state : OrderState) : state.Terminal ↔ state.transitions = [] := by
  cases state <;> decide

/-- The states in which `process_execution_report` takes a fill. -/
def TakesFill (state : OrderState) : Prop := state = sent ∨ state = partiallyFilled

instance (state : OrderState) : Decidable state.TakesFill := inferInstanceAs (Decidable (_ ∨ _))

end OrderState

def invalidTransition (current target : OrderState) : Exc :=
  .exception "InvalidTransitionError" s!"Cannot transition from {current.value} to {target.value}"

def applyTransition (current target : OrderState) : Except Exc OrderState :=
  if target ∈ current.transitions then .ok target else .error (invalidTransition current target)

theorem applyTransition_ok {current target : OrderState} (valid : target ∈ current.transitions) :
    applyTransition current target = .ok target :=
  if_pos valid

theorem applyTransition_eq_ok {current target state : OrderState}
    (applied : applyTransition current target = .ok state) :
    target ∈ current.transitions ∧ state = target := by
  unfold applyTransition at applied
  split at applied
  · rename_i valid
    exact ⟨valid, (Except.ok.inj applied).symm⟩
  · cases applied

theorem OrderState.TakesFill.transition {current target : OrderState} (takes : current.TakesFill)
    (fill : target = .filled ∨ target = .partiallyFilled) :
    applyTransition current target = .ok target := by
  refine applyTransition_ok ?_
  rcases takes with rfl | rfl <;> rcases fill with rfl | rfl <;> decide

def deriveParentState (childStates : List OrderState) : OrderState :=
  if childStates = [] then .working
  else if ∀ s ∈ childStates, s = .filled then .filled
  else if ∀ s ∈ childStates, s = .cancelled then .cancelled
  else if ∃ s ∈ childStates, s = .filled ∨ s = .partiallyFilled then .partiallyFilled
  else .working

end MiniHedge.Orders
