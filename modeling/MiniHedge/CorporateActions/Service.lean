import MiniHedge.Python.Context
import MiniHedge.Python.Values
import MiniHedge.Positions.TradeHandler

/-! Corporate actions, the adjustments they make to a position, and the service that
processes an action once and publishes them. The processor computes in a context; that
of the service is exact here. -/

set_option autoImplicit false

namespace MiniHedge.CorporateActions

open MiniHedge.Python MiniHedge.Positions

inductive ActionType where
  | dividend
  | stockSplit
  | reverseSplit
  | spinoff
  | merger
  deriving DecidableEq, Repr

def ActionType.value : ActionType → String
  | .dividend => "dividend"
  | .stockSplit => "stock_split"
  | .reverseSplit => "reverse_split"
  | .spinoff => "spinoff"
  | .merger => "merger"

/-- `ActionType(text)`. -/
def ActionType.ofValue (text : String) : Except Exc ActionType :=
  match [dividend, stockSplit, reverseSplit, spinoff, merger].find? (fun t => t.value = text) with
  | some t => .ok t
  | none => .error (.valueError s!"'{text}' is not a valid ActionType")

@[simp] theorem ActionType.ofValue_value (t : ActionType) : ofValue t.value = .ok t := by
  cases t <;> rfl

/-- An action as the feed gives it; its identifier and its type are texts. -/
structure CorporateAction where
  actionId : String
  instrumentId : String
  actionType : String
  amount : Option Decimal := none
  currency : String := "USD"
  deriving DecidableEq, Repr

structure PositionAdjustment where
  instrumentId : String
  quantityDelta : Decimal
  costBasisAdjustment : Decimal
  cashAmount : Decimal
  deriving DecidableEq, Repr

namespace CorporateAction

/-- `action.amount or default`: a zero counts as absent. -/
def amountOr (action : CorporateAction) (default : Decimal) : Decimal :=
  (action.amount.filter (· ≠ 0)).getD default

/-- `action.amount if action.amount and action.amount > 0 else Decimal(1)`. -/
def ratio (action : CorporateAction) : Decimal :=
  (action.amount.filter (0 < ·)).getD 1

theorem ratio_pos (action : CorporateAction) : 0 < action.ratio := by
  cases given : action.amount.filter (0 < ·) with
  | none => simp [ratio, given]
  | some amount =>
    have positive : 0 < amount := by simpa using (Option.filter_eq_some_iff.mp given).2
    simpa [ratio, given] using positive

end CorporateAction

section Processor

variable (ctx : Context)

def dividend (action : CorporateAction) (quantity : Decimal) : List PositionAdjustment :=
  [{ instrumentId := action.instrumentId
     quantityDelta := 0
     costBasisAdjustment := 0
     cashAmount := ctx.multiply quantity (action.amountOr 0) }]

/-- The division is by a positive ratio. -/
def stockSplit (action : CorporateAction) (quantity costBasis : Decimal) :
    List PositionAdjustment :=
  [{ instrumentId := action.instrumentId
     quantityDelta := ctx.multiply quantity (ctx.subtract action.ratio 1)
     costBasisAdjustment := ctx.multiply costBasis (ctx.subtract (ctx.divide 1 action.ratio) 1)
     cashAmount := 0 }]

def reverseSplit (action : CorporateAction) (quantity costBasis : Decimal) :
    List PositionAdjustment :=
  [{ instrumentId := action.instrumentId
     quantityDelta := ctx.multiply quantity (ctx.subtract (ctx.divide 1 action.ratio) 1)
     costBasisAdjustment := ctx.multiply costBasis (ctx.subtract action.ratio 1)
     cashAmount := 0 }]

def defaultSpinoffAllocation : Decimal := 1 / 5

def childInstrument (action : CorporateAction) : String := action.instrumentId ++ "-SPINOFF"

def spinoff (action : CorporateAction) (quantity costBasis : Decimal) : List PositionAdjustment :=
  let allocatedBasis := ctx.multiply costBasis (action.amountOr defaultSpinoffAllocation)
  [{ instrumentId := action.instrumentId
     quantityDelta := 0
     costBasisAdjustment := -allocatedBasis
     cashAmount := 0 },
   { instrumentId := childInstrument action
     quantityDelta := quantity
     costBasisAdjustment := allocatedBasis
     cashAmount := 0 }]

def merger (action : CorporateAction) (quantity costBasis : Decimal) : List PositionAdjustment :=
  [{ instrumentId := action.instrumentId
     quantityDelta := -quantity
     costBasisAdjustment := -costBasis
     cashAmount := ctx.multiply quantity (action.amountOr 0) }]

def computeAdjustments (action : CorporateAction) (quantity costBasis : Decimal) :
    Except Exc (List PositionAdjustment) := do
  let actionType ← ActionType.ofValue action.actionType
  if quantity = 0 then return []
  match actionType with
  | .dividend => return dividend ctx action quantity
  | .stockSplit => return stockSplit ctx action quantity costBasis
  | .reverseSplit => return reverseSplit ctx action quantity costBasis
  | .spinoff => return spinoff ctx action quantity costBasis
  | .merger => return merger ctx action quantity costBasis

/-- What the processor returns for a type it supports and a position that is not flat. -/
def adjustmentsOf (t : ActionType) (action : CorporateAction) (quantity costBasis : Decimal) :
    List PositionAdjustment :=
  match t with
  | .dividend => dividend ctx action quantity
  | .stockSplit => stockSplit ctx action quantity costBasis
  | .reverseSplit => reverseSplit ctx action quantity costBasis
  | .spinoff => spinoff ctx action quantity costBasis
  | .merger => merger ctx action quantity costBasis

theorem computeAdjustments_typed {t : ActionType} {action : CorporateAction}
    (typed : action.actionType = t.value) (quantity costBasis : Decimal) :
    computeAdjustments ctx action quantity costBasis =
      .ok (if quantity = 0 then [] else adjustmentsOf ctx t action quantity costBasis) := by
  simp only [computeAdjustments, typed, ActionType.ofValue_value, Bind.bind, Except.bind]
  split
  · rfl
  · cases t <;> rfl

end Processor

/-! ## The service -/

inductive ProcessingStatus where
  | pending
  | processed
  | failed
  | skipped
  deriving DecidableEq, Repr

def ProcessingStatus.value : ProcessingStatus → String
  | .pending => "pending"
  | .processed => "processed"
  | .failed => "failed"
  | .skipped => "skipped"

structure ProcessedCorporateActionRecord where
  actionId : String
  instrumentId : String
  actionType : String
  status : ProcessingStatus
  adjustments : Option (List PositionAdjustment) := none
  errorMessage : Option String := none
  deriving DecidableEq, Repr

def record (action : CorporateAction) (status : ProcessingStatus) :
    ProcessedCorporateActionRecord where
  actionId := action.actionId
  instrumentId := action.instrumentId
  actionType := action.actionType
  status := status

def failure (action : CorporateAction) (message : String) : ProcessedCorporateActionRecord :=
  { record action .failed with errorMessage := some message }

def statusOf (adjustments : List PositionAdjustment) : ProcessingStatus :=
  if adjustments = [] then .skipped else .processed

def success (action : CorporateAction) (adjustments : List PositionAdjustment) :
    ProcessedCorporateActionRecord :=
  { record action (statusOf adjustments) with
    adjustments := if adjustments = [] then none else some adjustments }

section Messages

variable (fundSlug portfolioId : String) (draw : UUID) (action : CorporateAction)
  (actionType : ActionType) (adj : PositionAdjustment)

/-- The event for a change of quantity, under the `uuid4` drawn for its trade. -/
def quantityEvent : BaseEvent where
  eventType := "corporate_action." ++ actionType.value
  data := [("portfolio_id", .text portfolioId), ("instrument_id", .text adj.instrumentId),
    ("side", .text (if 0 < adj.quantityDelta then "buy" else "sell")),
    ("quantity", .decimal |adj.quantityDelta|), ("price", .decimal 0),
    ("trade_id", .text draw.str), ("currency", .text action.currency),
    ("source", .text "corporate_action"), ("action_id", .text action.actionId)]
  fundSlug := some fundSlug

def cashEvent : BaseEvent where
  eventType := "corporate_action." ++ actionType.value ++ ".cash"
  data := [("portfolio_id", .text portfolioId), ("instrument_id", .text adj.instrumentId),
    ("amount", .decimal adj.cashAmount), ("currency", .text action.currency),
    ("source", .text "corporate_action"), ("action_id", .text action.actionId)]
  fundSlug := some fundSlug

def adjustmentMessages : List Message :=
  (if adj.quantityDelta ≠ 0 then
    [⟨fundTopic fundSlug "trades.executed",
      quantityEvent fundSlug portfolioId draw action actionType adj⟩] else []) ++
  (if adj.cashAmount ≠ 0 then
    [⟨fundTopic fundSlug "cash.settlement.created",
      cashEvent fundSlug portfolioId action actionType adj⟩] else [])

end Messages

def processedMessage (fundSlug : String) (action : CorporateAction) (status : ProcessingStatus) :
    Message where
  topic := fundTopic fundSlug "corporate_actions.processed"
  event := {
    eventType := "corporate_actions.processed"
    data := [("action_id", .text action.actionId), ("instrument_id", .text action.instrumentId),
      ("action_type", .text action.actionType), ("status", .text status.value)]
    fundSlug := some fundSlug }

/-- `_process_single`; `position` is what the position service answers and
`draws` the identifiers drawn for the adjustments. -/
def processSingle (processed : List ProcessedCorporateActionRecord)
    (position : UUID → String → Option CurrentPositionRecord) (fundSlug portfolioId : String)
    (draws : Nat → UUID) (action : CorporateAction) :
    Except Exc (List ProcessedCorporateActionRecord × List Message) := do
  if processed.any (·.actionId = action.actionId) then return (processed, [])
  let portfolio ← (Field.text portfolioId).asUuid
  let held := position portfolio action.instrumentId
  let quantity := (held.map (·.quantity)).getD 0
  let costBasis := (held.map (·.costBasis)).getD 0
  match ActionType.ofValue action.actionType with
  | .error _ =>
    return (processed ++ [failure action s!"Unknown action type: {action.actionType}"], [])
  | .ok actionType =>
    match computeAdjustments .exact action quantity costBasis with
    | .error raised => return (processed ++ [failure action raised.text], [])
    | .ok adjustments =>
      let messages := adjustments.zipIdx.flatMap fun (adj, i) =>
        adjustmentMessages fundSlug portfolioId (draws i) action actionType adj
      return (processed ++ [success action adjustments],
        messages ++ [processedMessage fundSlug action (statusOf adjustments)])

/-- An action of a supported type that is not recorded yet is recorded, with the
messages of its adjustments. -/
theorem processSingle_typed {processed : List ProcessedCorporateActionRecord}
    (position : UUID → String → Option CurrentPositionRecord) (fundSlug : String)
    (portfolioId : UUID) (draws : Nat → UUID) {action : CorporateAction} {t : ActionType}
    {adjustments : List PositionAdjustment} (typed : action.actionType = t.value)
    (new : ∀ r ∈ processed, r.actionId ≠ action.actionId)
    (computed : computeAdjustments .exact action
      (((position portfolioId action.instrumentId).map (·.quantity)).getD 0)
      (((position portfolioId action.instrumentId).map (·.costBasis)).getD 0) = .ok adjustments) :
    processSingle processed position fundSlug portfolioId.str draws action =
      .ok (processed ++ [success action adjustments],
        (adjustments.zipIdx.flatMap fun (adj, i) =>
          adjustmentMessages fundSlug portfolioId.str (draws i) action t adj) ++
            [processedMessage fundSlug action (statusOf adjustments)]) := by
  have unknown : processed.any (·.actionId = action.actionId) = false := by
    simpa using new
  simp only [processSingle, unknown, Bool.false_eq_true, if_false, Field.asUuid_str, typed,
    ActionType.ofValue_value, computed, Bind.bind, Except.bind, Pure.pure, Except.pure]

end MiniHedge.CorporateActions
