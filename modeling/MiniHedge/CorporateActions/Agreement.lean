import MiniHedge.CorporateActions.Service
import MiniHedge.Positions.Consistent

/-! What an adjustment is when it arrives at the position.

The service publishes the size of a change of quantity; the handler reads it as
the ratio of a split, or as the amount of a dividend. Cash and basis are not
published to the handler at all.
-/

set_option autoImplicit false

namespace MiniHedge.CorporateActions

open MiniHedge.Python MiniHedge.Positions

/-- The events on the fund's `trades.executed` topic. -/
def tradesExecuted (fundSlug : String) (messages : List Message) : List BaseEvent :=
  (messages.filter (·.topic = fundTopic fundSlug "trades.executed")).map Message.event

/-- The handler consumes the events one after the other. -/
def consume (clock : Clock) (fresh : UUID) (db : Database) (events : List BaseEvent) : Database :=
  events.foldl (fun db event => handle db (.event clock fresh event)) db

/-- Every adjusted position has moved by its adjustment. -/
def Adjusted (before after : Database) (portfolioId : UUID)
    (adjustments : List PositionAdjustment) : Prop :=
  ∀ adj ∈ adjustments, holdingOf after portfolioId adj.instrumentId =
    { quantity := (holdingOf before portfolioId adj.instrumentId).quantity + adj.quantityDelta
      costBasis := (holdingOf before portfolioId adj.instrumentId).costBasis +
        adj.costBasisAdjustment
      realizedPnl := (holdingOf before portfolioId adj.instrumentId).realizedPnl + adj.cashAmount }

/-- The handler accepts the action: the fund is named, the currency fits its
column, the identifier is a UUID, and the action was not applied before. -/
def Accepts (db : Database) (fundSlug : String) (portfolioId : UUID) (action : CorporateAction) :
    Prop :=
  fundSlug ≠ "" ∧ action.currency.length ≤ 3 ∧ ∃ id ∈ UUID.parse action.actionId,
    db.hasIdempotencyKey
      (CorporateActionFields.key ⟨portfolioId, action.instrumentId, id, action.currency, 0⟩) = false

/-- The factor by which a split multiplies a quantity. -/
def CorporateAction.factor (action : CorporateAction) : ActionType → Decimal
  | .stockSplit => action.ratio
  | .reverseSplit => 1 / action.ratio
  | .dividend | .spinoff | .merger => 1

/-- What must hold for the adjustment to arrive as it was computed. -/
def ArrivesUnchanged (db : Database) (fundSlug : String) (portfolioId : UUID) (t : ActionType)
    (action : CorporateAction) : Prop :=
  let held := holdingOf db portfolioId action.instrumentId
  held.quantity = 0 ∨
    match t with
    | .dividend => action.amountOr 0 = 0
    | .stockSplit | .reverseSplit => action.factor t = 1 ∨
        Accepts db fundSlug portfolioId action ∧ held.costBasis = 0 ∧
          |held.quantity * (action.factor t - 1)| = action.factor t
    | .spinoff | .merger => False

/-! ## What the handler reads -/

section Consume

variable {db : Database} (clock : Clock) (fresh portfolioId draw : UUID) (fundSlug : String)
  (action : CorporateAction) (t : ActionType) (adj : PositionAdjustment)

theorem corporateActionFields_quantityEvent :
    corporateActionFields fresh
        (quantityEvent fundSlug portfolioId.str draw action t adj).data =
      match UUID.parse action.actionId with
      | none => .error (.valueError "badly formed hexadecimal UUID string")
      | some id =>
        .ok ⟨portfolioId, adj.instrumentId, id, action.currency, |adj.quantityDelta|⟩ := by
  unfold quantityEvent
  simp only [corporateActionFields, Dict.uuid, Dict.text, Dict.textOr, Dict.decimalOr,
    Dict.getItem, Dict.get, List.lookup_cons, String.reduceBEq]
  cases parsed : UUID.parse action.actionId <;>
    simp [Field.asUuid, parsed, Bind.bind, Except.bind, Pure.pure, Except.pure]

/-- The command that the handler makes of the event. -/
def commandOf (clock : Clock) (portfolioId : UUID) (action : CorporateAction) (t : ActionType)
    (adj : PositionAdjustment) (id : UUID) : Command :=
  CorporateActionFields.command
    ⟨portfolioId, adj.instrumentId, id, action.currency, |adj.quantityDelta|⟩ clock.now
    ("corporate_action." ++ t.value)

theorem handle_quantityEvent :
    handle db (.event clock fresh (quantityEvent fundSlug portfolioId.str draw action t adj)) =
      if fundSlug = "" then db
      else match UUID.parse action.actionId with
        | none => db
        | some id =>
          match submit db clock.starts (commandOf clock portfolioId action t adj id) with
          | .error _ => db
          | .ok (next, _) => next := by
  have source : (quantityEvent fundSlug portfolioId.str draw action t adj).data.get "source" =
      some (.text "corporate_action") := by
    unfold quantityEvent
    simp only [Dict.get, List.lookup_cons, String.reduceBEq]
  have named : (quantityEvent fundSlug portfolioId.str draw action t adj).fundSlug =
      some fundSlug := rfl
  by_cases silent : fundSlug = ""
  · have none : truthy (some fundSlug) = none := by simp [truthy, silent]
    simp only [handle, handleTradeEvent, named, none, if_true, if_pos silent, Pure.pure, Except.pure]
  · have some' : ¬ truthy (some fundSlug) = none := by simp [truthy, silent]
    simp only [handle, handleTradeEvent, named, some', source, if_true, if_false, if_neg silent,
      applyCorporateAction, corporateActionFields_quantityEvent, Bind.bind, Except.bind]
    cases parsed : UUID.parse action.actionId with
    | none => rfl
    | some id =>
      simp only
      have command : submit db clock.starts (CorporateActionFields.command
          ⟨portfolioId, adj.instrumentId, id, action.currency, |adj.quantityDelta|⟩ clock.now
          (quantityEvent fundSlug portfolioId.str draw action t adj).eventType) =
            submit db clock.starts (commandOf clock portfolioId action t adj id) := rfl
      rw [command]
      cases submit db clock.starts (commandOf clock portfolioId action t adj id) with
      | error raised => rfl
      | ok result =>
        obtain ⟨next, downstream⟩ := result
        cases downstream <;> rfl

variable {t}

/-- Nothing changes, or the event acts on the holding of its position. -/
theorem handle_quantityEvent_cases (consistent : Consistent db) :
    handle db (.event clock fresh (quantityEvent fundSlug portfolioId.str draw action t adj)) = db ∨
      fundSlug ≠ "" ∧ action.currency.length ≤ 3 ∧ ∃ id ∈ UUID.parse action.actionId,
        (commandOf clock portfolioId action t adj id).duplicate db = false ∧
        ∃ a : PositionAggregate, a.holding = holdingOf db portfolioId adj.instrumentId ∧
          holdingOf (handle db (.event clock fresh
              (quantityEvent fundSlug portfolioId.str draw action t adj))) portfolioId
              adj.instrumentId =
            (a.after (commandOf clock portfolioId action t adj id).event).holding := by
  rw [handle_quantityEvent]
  by_cases silent : fundSlug = ""
  · rw [if_pos silent]
    exact .inl rfl
  · rw [if_neg silent]
    cases parsed : UUID.parse action.actionId with
    | none => exact .inl rfl
    | some id =>
      have own : (commandOf clock portfolioId action t adj id).For portfolioId adj.instrumentId :=
        CorporateActionFields.command_for _ _ _
      simp only
      cases submitted : submit db clock.starts (commandOf clock portfolioId action t adj id) with
      | error raised => exact .inl rfl
      | ok result =>
        obtain ⟨next, downstream⟩ := result
        rcases submit_holding consistent own submitted with
          ⟨-, same⟩ | ⟨new, currency, a, before, after⟩
        · exact .inl same
        · exact .inr ⟨silent, currency, id, rfl, new, a, before, after⟩

theorem commandOf_split (split : t = .stockSplit ∨ t = .reverseSplit)
    (moved : adj.quantityDelta ≠ 0) (id : UUID) :
    ∃ d : CorporateActionEventData, d.splitRatio = |adj.quantityDelta| ∧
      (commandOf clock portfolioId action t adj id).event =
        ⟨.stockSplit, clock.now, .corporateAction d⟩ := by
  have named : "split".toList <:+: ("corporate_action." ++ t.value).toList := by
    rcases split with rfl | rfl <;> decide +kernel
  refine ⟨CorporateActionFields.split
    ⟨portfolioId, adj.instrumentId, id, action.currency, |adj.quantityDelta|⟩, ?_, if_pos named⟩
  exact if_pos (abs_pos.mpr moved)

theorem commandOf_other (other : t = .spinoff ∨ t = .merger) (id : UUID) :
    ∃ d : CorporateActionEventData, (commandOf clock portfolioId action t adj id).event =
      ⟨.dividendPaid, clock.now, .corporateAction d⟩ := by
  have named : ¬ "split".toList <:+: ("corporate_action." ++ t.value).toList := by
    rcases other with rfl | rfl <;> decide +kernel
  exact ⟨CorporateActionFields.dividend _, if_neg named⟩

/-- A spinoff and a merger arrive as dividends: no quantity changes. -/
theorem quantity_other (consistent : Consistent db) (other : t = .spinoff ∨ t = .merger) :
    (holdingOf (handle db (.event clock fresh
      (quantityEvent fundSlug portfolioId.str draw action t adj))) portfolioId
        adj.instrumentId).quantity = (holdingOf db portfolioId adj.instrumentId).quantity := by
  have cases := handle_quantityEvent_cases clock fresh portfolioId draw fundSlug action (t := t) adj consistent
  rcases cases with same | ⟨-, -, id, -, -, a, before, after⟩
  · rw [same]
  · obtain ⟨d, event⟩ := commandOf_other clock portfolioId action adj other id
    rw [after, event, PositionAggregate.after_dividend_holding, before]

theorem duplicate_commandOf (same : adj.instrumentId = action.instrumentId) (id : UUID) :
    (commandOf clock portfolioId action t adj id).duplicate db = db.hasIdempotencyKey
      (CorporateActionFields.key ⟨portfolioId, action.instrumentId, id, action.currency, 0⟩) := by
  rw [← same]
  rfl

/-- An accepted split multiplies the quantity by the size of its own change. -/
theorem holding_split (consistent : Consistent db) (split : t = .stockSplit ∨ t = .reverseSplit)
    (same : adj.instrumentId = action.instrumentId) (moved : adj.quantityDelta ≠ 0)
    (nonflat : (holdingOf db portfolioId action.instrumentId).quantity ≠ 0)
    (accepts : Accepts db fundSlug portfolioId action) :
    holdingOf (handle db (.event clock fresh
        (quantityEvent fundSlug portfolioId.str draw action t adj))) portfolioId
        action.instrumentId =
      { holdingOf db portfolioId action.instrumentId with
        quantity := (holdingOf db portfolioId action.instrumentId).quantity *
          |adj.quantityDelta| } := by
  obtain ⟨silent, currency, id, parsed, unused⟩ := accepts
  have own : (commandOf clock portfolioId action t adj id).For portfolioId adj.instrumentId :=
    CorporateActionFields.command_for _ _ _
  have new : (commandOf clock portfolioId action t adj id).duplicate db = false :=
    (duplicate_commandOf clock portfolioId action adj same id).trans unused
  have fits : adj.instrumentId.length ≤ 32 := by
    rw [holdingOf] at nonflat
    split at nonflat
    · exact absurd rfl nonflat
    · rename_i row found
      have inside := consistent.fits row (List.mem_of_find?_eq_some found)
      rwa [(Database.position_at found).2, ← same] at inside
  obtain ⟨d, ratio, event⟩ := commandOf_split clock portfolioId action adj split moved id
  have positive : d.splitRatio ≠ 0 := ratio ▸ (abs_pos.mpr moved).ne'
  obtain ⟨next, downstream, attempted⟩ := attempt_accepted consistent own (clock.starts 2) new
    ⟨fits, currency⟩ (by
      intro a
      simp [event, PositionAggregate.split, PositionAggregate.scaleLot, Function.comp_def]) (by
      intro a nonzero lot member
      simp only [event, PositionAggregate.after_split, PositionAggregate.split, List.mem_map]
        at member
      obtain ⟨old, held, rfl⟩ := member
      exact mul_ne_zero (nonzero old held) positive)
  have submitted := submit_attempt attempted
  rcases submit_holding consistent own submitted with
    ⟨duplicate, -⟩ | ⟨-, -, a, before, after⟩
  · rw [new] at duplicate
    cases duplicate
  · rw [handle_quantityEvent, if_neg silent, Option.mem_def.mp parsed]
    simp only [submitted]
    rw [← same]
    refine Eq.trans after ?_
    rw [event, PositionAggregate.after_split_holding, before, ratio]
    rfl

theorem holding_refused (consistent : Consistent db) (same : adj.instrumentId = action.instrumentId)
    (refused : ¬ Accepts db fundSlug portfolioId action) :
    handle db (.event clock fresh (quantityEvent fundSlug portfolioId.str draw action t adj)) =
      db := by
  have cases := handle_quantityEvent_cases clock fresh portfolioId draw fundSlug action (t := t) adj consistent
  rcases cases with unchanged | ⟨silent, currency, id, parsed, new, -⟩
  · exact unchanged
  · rw [duplicate_commandOf clock portfolioId action adj same] at new
    exact absurd ⟨silent, currency, id, parsed, new⟩ refused

end Consume

/-! ## What the service publishes -/

section Publish

variable {fundSlug : String} {action : CorporateAction} {t : ActionType}

theorem tradesExecuted_append (first rest : List Message) :
    tradesExecuted fundSlug (first ++ rest) =
      tradesExecuted fundSlug first ++ tradesExecuted fundSlug rest := by
  simp [tradesExecuted]

theorem tradesExecuted_processed (status : ProcessingStatus) :
    tradesExecuted fundSlug [processedMessage fundSlug action status] = [] := by
  simp [tradesExecuted, processedMessage, fundTopic_inj]

theorem tradesExecuted_adjustment (portfolioId : String) (draw : UUID) (adj : PositionAdjustment) :
    tradesExecuted fundSlug (adjustmentMessages fundSlug portfolioId draw action t adj) =
      if adj.quantityDelta ≠ 0 then [quantityEvent fundSlug portfolioId draw action t adj]
      else [] := by
  have apart : ¬ fundTopic fundSlug "cash.settlement.created" =
      fundTopic fundSlug "trades.executed" := by simp [fundTopic_inj]
  by_cases moved : adj.quantityDelta = 0 <;> by_cases paid : adj.cashAmount = 0 <;>
    simp [tradesExecuted, adjustmentMessages, moved, paid, apart]

end Publish

/-! ## The position after the action -/

section Position

variable {db : Database} (clock : Clock) (fresh portfolioId : UUID) (draws : Nat → UUID)
  (fundSlug : String)

/-- The position after the handler has consumed what is published for `adjustments`. -/
def afterAction (db : Database) (action : CorporateAction) (t : ActionType)
    (adjustments : List PositionAdjustment) : Database :=
  consume clock fresh db (adjustments.zipIdx.flatMap fun (adj, i) =>
    if adj.quantityDelta ≠ 0 then
      [quantityEvent fundSlug portfolioId.str (draws i) action t adj] else [])

variable (action : CorporateAction) {t : ActionType} (consistent : Consistent db)
include consistent

theorem adjusted_split (split : t = .stockSplit ∨ t = .reverseSplit) {factor : Decimal}
    (positive : 0 < factor)
    (nonflat : (holdingOf db portfolioId action.instrumentId).quantity ≠ 0) :
    let held := holdingOf db portfolioId action.instrumentId
    let adjustments : List PositionAdjustment := [⟨action.instrumentId,
      held.quantity * (factor - 1), held.costBasis * (1 / factor - 1), 0⟩]
    Adjusted db (afterAction clock fresh portfolioId draws fundSlug db action t adjustments)
        portfolioId adjustments ↔
      factor = 1 ∨ Accepts db fundSlug portfolioId action ∧ held.costBasis = 0 ∧
        |held.quantity * (factor - 1)| = factor := by
  intro held adjustments
  by_cases trivial' : factor = 1
  · refine iff_of_true ?_ (.inl trivial')
    simp [Adjusted, afterAction, adjustments, trivial', consume, held]
  · have moved : held.quantity * (factor - 1) ≠ 0 := mul_ne_zero nonflat (sub_ne_zero.mpr trivial')
    have published : afterAction clock fresh portfolioId draws fundSlug db action t adjustments =
        handle db (.event clock fresh (quantityEvent fundSlug portfolioId.str (draws 0) action t
          ⟨action.instrumentId, held.quantity * (factor - 1),
            held.costBasis * (1 / factor - 1), 0⟩)) := by
      simp [afterAction, adjustments, consume, moved]
    simp only [Adjusted, adjustments, published, List.mem_singleton, forall_eq, trivial', false_or]
    by_cases accepts : Accepts db fundSlug portfolioId action
    · rw [holding_split clock fresh portfolioId (draws 0) fundSlug action _ consistent split rfl
        moved nonflat accepts]
      simp only [Holding.mk.injEq, accepts, true_and, add_zero, and_true]
      have basis : held.costBasis = held.costBasis + held.costBasis * (1 / factor - 1) ↔
          held.costBasis = 0 := by
        have other : 1 / factor - 1 ≠ 0 := by
          rw [sub_ne_zero, ne_eq, div_eq_one_iff_eq positive.ne']
          exact fun one => trivial' one.symm
        rw [left_eq_add, mul_eq_zero, or_iff_left other]
      have quantity : held.quantity * |held.quantity * (factor - 1)| =
          held.quantity + held.quantity * (factor - 1) ↔
            |held.quantity * (factor - 1)| = factor := by
        have product : held.quantity + held.quantity * (factor - 1) = held.quantity * factor := by
          ring
        rw [product, mul_right_inj' nonflat]
      exact ⟨fun both => ⟨basis.mp both.2, quantity.mp both.1⟩,
        fun both => ⟨quantity.mpr both.2, basis.mpr both.1⟩⟩
    · rw [holding_refused clock fresh portfolioId (draws 0) fundSlug action _ consistent rfl accepts]
      refine iff_of_false (fun same => ?_) fun both => accepts both.1
      have quantity := congrArg Holding.quantity same
      simp only [held] at moved
      simp only [left_eq_add] at quantity
      exact moved quantity

omit consistent in
theorem adjusted_dividend (t : ActionType) (paid : Decimal)
    (nonflat : (holdingOf db portfolioId action.instrumentId).quantity ≠ 0) :
    let held := holdingOf db portfolioId action.instrumentId
    let adjustments : List PositionAdjustment :=
      [⟨action.instrumentId, 0, 0, held.quantity * paid⟩]
    Adjusted db (afterAction clock fresh portfolioId draws fundSlug db action t adjustments)
        portfolioId adjustments ↔ paid = 0 := by
  intro held adjustments
  simp [Adjusted, adjustments, afterAction, consume, held, Holding.ext_iff, nonflat]

/-- Whatever else is adjusted, a change of quantity that arrives as a dividend is lost. -/
theorem not_adjusted_other (other : t = .spinoff ∨ t = .merger) (adj : PositionAdjustment)
    (moved : adj.quantityDelta ≠ 0) (draw : UUID) {after : Database}
    (same : after = handle db (.event clock fresh
      (quantityEvent fundSlug portfolioId.str draw action t adj)))
    {adjustments : List PositionAdjustment} (member : adj ∈ adjustments) :
    ¬ Adjusted db after portfolioId adjustments := by
  intro adjusted
  have quantity := congrArg Holding.quantity (adjusted adj member)
  rw [same, quantity_other clock fresh portfolioId draw fundSlug action adj consistent other, left_eq_add]
    at quantity
  exact moved quantity

theorem adjusted_afterAction_iff (t : ActionType) :
    let held := holdingOf db portfolioId action.instrumentId
    let adjustments : List PositionAdjustment := if held.quantity = 0 then []
      else adjustmentsOf .exact t action held.quantity held.costBasis
    Adjusted db (afterAction clock fresh portfolioId draws fundSlug db action t adjustments)
        portfolioId adjustments ↔ ArrivesUnchanged db fundSlug portfolioId t action := by
  intro held adjustments
  by_cases flat : held.quantity = 0
  · refine iff_of_true ?_ (.inl flat)
    simp [Adjusted, adjustments, flat]
  have nonflat : (holdingOf db portfolioId action.instrumentId).quantity ≠ 0 := flat
  simp only [ArrivesUnchanged, nonflat, false_or, adjustments, if_neg flat]
  cases t with
  | dividend =>
    exact adjusted_dividend clock fresh portfolioId draws fundSlug action .dividend (action.amountOr 0)
      nonflat
  | stockSplit =>
    exact adjusted_split clock fresh portfolioId draws fundSlug action consistent (.inl rfl)
      action.ratio_pos nonflat
  | reverseSplit =>
    have positive : 0 < 1 / action.ratio := one_div_pos.mpr action.ratio_pos
    have arrives := adjusted_split clock fresh portfolioId draws fundSlug action consistent
      (t := .reverseSplit) (.inr rfl) positive nonflat
    rw [one_div_one_div] at arrives
    exact arrives
  | spinoff =>
    refine iff_of_false ?_ id
    refine not_adjusted_other clock fresh portfolioId fundSlug action consistent (.inl rfl)
      ⟨childInstrument action, held.quantity,
        held.costBasis * action.amountOr defaultSpinoffAllocation, 0⟩ flat (draws 1) ?_ ?_
    · simp [afterAction, adjustmentsOf, spinoff, consume, flat]
    · simp [adjustmentsOf, spinoff]
  | merger =>
    refine iff_of_false ?_ id
    refine not_adjusted_other clock fresh portfolioId fundSlug action consistent (.inr rfl)
      ⟨action.instrumentId, -held.quantity, -held.costBasis, held.quantity * action.amountOr 0⟩
      (neg_ne_zero.mpr flat) (draws 0) ?_ ?_
    · simp [afterAction, adjustmentsOf, merger, consume, flat]
    · simp [adjustmentsOf, merger]

end Position

def aBuyCall (quantity price : Decimal) : HandlerCall :=
  .trade ⟨1, fun _ => 2⟩ ⟨some "alpha", none, none⟩
    ⟨.ofNat 7, "AAPL", .buy, quantity, price, "USD", .ofNat 1⟩ none

def aSplit : CorporateAction where
  actionId := "00000000-0000-0000-0000-000000000009"
  instrumentId := "AAPL"
  actionType := "stock_split"
  amount := some 2

example : computeAdjustments .exact aSplit 2 0 = .ok [⟨"AAPL", 2, 0, 0⟩] := by decide +kernel

/-- What the fund's handler makes of an action on its position. -/
def afterProcessing (db : Database) (action : CorporateAction) : Except Exc Database := do
  let (_, messages) ← processSingle [] db.position "alpha" (UUID.str (.ofNat 7))
    (fun _ => .ofNat 8) action
  return consume ⟨3, fun _ => 4⟩ (.ofNat 0) db (tradesExecuted "alpha" messages)

end MiniHedge.CorporateActions
