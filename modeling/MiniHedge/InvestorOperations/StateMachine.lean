import MiniHedge.Python.Values
import Mathlib.Data.List.Chain

/-! The states of requests to subscribe and to redeem, and the moves between them. -/

set_option autoImplicit false

namespace MiniHedge.InvestorOperations

open MiniHedge.Python

/-- `InvalidTransitionError`. -/
def invalidTransition (current target : String) : Exc :=
  .exception "InvalidTransitionError" s!"Cannot transition from {current} to {target}"

section Transitions

variable {S : Type} [DecidableEq S] (transitions : S → List S) (value : S → String)

/-- A move that the table allows. -/
def applyTransition (current target : S) : Except Exc S :=
  if target ∈ transitions current then .ok target
  else .error (invalidTransition (value current) (value target))

/-- Moves of the table, one after the other. -/
def Walk (start : S) (moves : List S) : Prop :=
  (start :: moves).IsChain fun current target => target ∈ transitions current

instance (start : S) (moves : List S) : Decidable (Walk transitions start moves) :=
  inferInstanceAs (Decidable (List.IsChain _ _))

variable {transitions value}

theorem applyTransition_eq_ok {current target reached : S} :
    applyTransition transitions value current target = .ok reached ↔
      target ∈ transitions current ∧ reached = target := by
  unfold applyTransition
  split
  · rename_i allowed
    simp [allowed, eq_comm]
  · rename_i refused
    simp [refused]

end Transitions

/-! ## Subscriptions -/

inductive SubscriptionState where
  | draft
  | pendingKyc
  | kycApproved
  | kycRejected
  | pendingOpsReview
  | pendingGpApproval
  | approved
  | rejected
  | pendingWire
  | wireConfirmed
  | queuedForNav
  | executed
  | cancelled
  deriving DecidableEq, Repr

namespace SubscriptionState

def value : SubscriptionState → String
  | .draft => "draft"
  | .pendingKyc => "pending_kyc"
  | .kycApproved => "kyc_approved"
  | .kycRejected => "kyc_rejected"
  | .pendingOpsReview => "pending_ops_review"
  | .pendingGpApproval => "pending_gp_approval"
  | .approved => "approved"
  | .rejected => "rejected"
  | .pendingWire => "pending_wire"
  | .wireConfirmed => "wire_confirmed"
  | .queuedForNav => "queued_for_nav"
  | .executed => "executed"
  | .cancelled => "cancelled"

/-- `_SUB_TRANSITIONS`. -/
def transitions : SubscriptionState → List SubscriptionState
  | .draft => [.pendingKyc, .cancelled]
  | .pendingKyc => [.kycApproved, .kycRejected, .cancelled]
  | .kycApproved => [.pendingOpsReview, .cancelled]
  | .kycRejected => []
  | .pendingOpsReview => [.pendingGpApproval, .cancelled]
  | .pendingGpApproval => [.approved, .rejected, .cancelled]
  | .approved => [.pendingWire, .cancelled]
  | .rejected => []
  | .pendingWire => [.wireConfirmed, .cancelled]
  | .wireConfirmed => [.queuedForNav, .cancelled]
  | .queuedForNav => [.executed, .cancelled]
  | .executed => []
  | .cancelled => []

/-- No move leaves the state. -/
def Terminal (s : SubscriptionState) : Prop := s.transitions = []

instance : DecidablePred Terminal := fun s => inferInstanceAs (Decidable (s.transitions = []))

end SubscriptionState

def applySubscriptionTransition : SubscriptionState → SubscriptionState →
    Except Exc SubscriptionState :=
  applyTransition SubscriptionState.transitions SubscriptionState.value

/-! ## Redemptions -/

inductive RedemptionState where
  | draft
  | pendingValidation
  | validated
  | validationFailed
  | pendingGateCheck
  | gateApplied
  | queuedForNav
  | navCalculated
  | pendingPayment
  | paymentSent
  | executed
  | cancelled
  deriving DecidableEq, Repr

namespace RedemptionState

def value : RedemptionState → String
  | .draft => "draft"
  | .pendingValidation => "pending_validation"
  | .validated => "validated"
  | .validationFailed => "validation_failed"
  | .pendingGateCheck => "pending_gate_check"
  | .gateApplied => "gate_applied"
  | .queuedForNav => "queued_for_nav"
  | .navCalculated => "nav_calculated"
  | .pendingPayment => "pending_payment"
  | .paymentSent => "payment_sent"
  | .executed => "executed"
  | .cancelled => "cancelled"

/-- `_RED_TRANSITIONS`. -/
def transitions : RedemptionState → List RedemptionState
  | .draft => [.pendingValidation, .cancelled]
  | .pendingValidation => [.validated, .validationFailed, .cancelled]
  | .validated => [.pendingGateCheck, .cancelled]
  | .validationFailed => []
  | .pendingGateCheck => [.gateApplied, .queuedForNav, .cancelled]
  | .gateApplied => [.queuedForNav, .cancelled]
  | .queuedForNav => [.navCalculated, .cancelled]
  | .navCalculated => [.pendingPayment, .cancelled]
  | .pendingPayment => [.paymentSent, .cancelled]
  | .paymentSent => [.executed]
  | .executed => []
  | .cancelled => []

end RedemptionState

def applyRedemptionTransition : RedemptionState → RedemptionState → Except Exc RedemptionState :=
  applyTransition RedemptionState.transitions RedemptionState.value

end MiniHedge.InvestorOperations
