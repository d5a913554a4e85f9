import MiniHedge.CorporateActions.Service
import MiniHedge.Library.Interleaving

/-! The corporate action step of the EOD runs of a fund, statement by statement.

A run goes through its portfolios, and for each through the actions of the day;
between two statements of a run others may take theirs. The bus may lose a message
without raising. The actions, and the position that each finds in a portfolio, are
those of the fund.
-/

set_option autoImplicit false

namespace MiniHedge.CorporateActions

open MiniHedge.Python MiniHedge.Positions MiniHedge.Library

structure Fund where
  slug : String
  portfolios : List UUID
  actions : List CorporateAction
  /-- What the position service answers for the instrument of an action. -/
  position : CorporateAction → UUID → Option CurrentPositionRecord
  identified : (actions.map (·.actionId)).Nodup

namespace Fund

variable (fund : Fund)

/-- The adjustments of an action to a portfolio. -/
def adjustments (action : CorporateAction) (portfolioId : UUID) :
    Except Exc (List PositionAdjustment) :=
  let held := fund.position action portfolioId
  computeAdjustments .exact action ((held.map (·.quantity)).getD 0) ((held.map (·.costBasis)).getD 0)

/-- The messages that tell a portfolio of its adjustments. -/
def batch (action : CorporateAction) (portfolioId : UUID) (draws : Nat → UUID) : List Message :=
  match ActionType.ofValue action.actionType, fund.adjustments action portfolioId with
  | .ok t, .ok adjustments => adjustments.zipIdx.flatMap fun (adj, i) =>
    adjustmentMessages fund.slug portfolioId.str (draws i) action t adj
  | _, _ => []

end Fund

structure Ledger where
  processed : List ProcessedCorporateActionRecord := []
  published : List Message := []
  deriving DecidableEq

namespace Ledger

variable (ledger : Ledger)

/-- `get_by_action_id`. -/
def find (actionId : String) : Option ProcessedCorporateActionRecord :=
  ledger.processed.find? (·.actionId = actionId)

def Recorded (actionId : String) : Prop := ∃ r ∈ ledger.processed, r.actionId = actionId

instance (actionId : String) : Decidable (ledger.Recorded actionId) :=
  inferInstanceAs (Decidable (∃ r ∈ ledger.processed, r.actionId = actionId))

end Ledger

inductive RunStage where
  | idle
  | actions (portfolioId : UUID) (rest : List CorporateAction)
  | checked (portfolioId : UUID) (action : CorporateAction) (rest : List CorporateAction)
  -- what was sent of the batch is not in the source
  | publishing (portfolioId : UUID) (action : CorporateAction) (sent pending : List Message)
      (record : ProcessedCorporateActionRecord) (announced : Option Message)
      (rest : List CorporateAction)
  | recorded (portfolioId : UUID) (record : ProcessedCorporateActionRecord)
      (announced : Option Message) (rest : List CorporateAction)
  | raised
  deriving DecidableEq

/-- `CORPORATE_ACTION_PROCESSING` of the portfolios of a run; the actions that it has
seen are not in the source. -/
structure EodRun where
  pending : List UUID
  stage : RunStage := .idle
  seen : List String := []
  deriving DecidableEq

structure RunInput where
  /-- What the adapter answers for the day. -/
  actions : List CorporateAction := []
  /-- The identifiers drawn for the trades of the adjustments. -/
  draws : Nat → UUID := fun _ => .ofNat 0
  fails : Bool := false
  lost : Bool := false

/-- Who does not find the action recorded reads the position and prepares what is to
be published and recorded. -/
def EodRun.prepare (fund : Fund) (portfolioId : UUID) (action : CorporateAction)
    (draws : Nat → UUID) (rest : List CorporateAction) : RunStage :=
  match ActionType.ofValue action.actionType with
  | .error _ => .publishing portfolioId action [] []
      (failure action s!"Unknown action type: {action.actionType}") none rest
  | .ok _ =>
    match fund.adjustments action portfolioId with
    | .error exc => .publishing portfolioId action [] [] (failure action exc.text) none rest
    | .ok adjustments => .publishing portfolioId action [] (fund.batch action portfolioId draws)
        (success action adjustments)
        (some (processedMessage fund.slug action (statusOf adjustments))) rest

/-- `_to_processed_action` raises for a type that is none. -/
def EodRun.answered (record : ProcessedCorporateActionRecord) (portfolioId : UUID)
    (rest : List CorporateAction) : RunStage :=
  match ActionType.ofValue record.actionType with
  | .error _ => .raised
  | .ok _ => .actions portfolioId rest

def EodRun.advance (fund : Fund) (ledger : Ledger) (_others : List EodRun) (run : EodRun)
    (input : RunInput) : Option (Ledger × EodRun) :=
  let raise := some (ledger, { run with stage := .raised })
  match run.stage with
  | .raised => none
  | .idle =>
    match run.pending with
    | [] => none
    | portfolioId :: pending =>
      if input.fails then raise
      else if input.actions ⊆ fund.actions then
        some (ledger, {
          pending
          stage := .actions portfolioId input.actions
          seen := run.seen ++ input.actions.map (·.actionId) })
      else none
  | .actions _ [] => some (ledger, { run with stage := .idle })
  | .actions portfolioId (action :: rest) =>
    if input.fails then raise
    else match ledger.find action.actionId with
      | some existing => some (ledger, { run with stage := EodRun.answered existing portfolioId rest })
      | none => some (ledger, { run with stage := .checked portfolioId action rest })
  | .checked portfolioId action rest =>
    if input.fails then raise
    else some (ledger, { run with stage := EodRun.prepare fund portfolioId action input.draws rest })
  | .publishing portfolioId action sent (m :: pending) record announced rest =>
    if input.fails then raise
    else
      some (if input.lost then ledger else { ledger with published := ledger.published ++ [m] },
        { run with
          stage := .publishing portfolioId action (sent ++ [m]) pending record announced rest })
  | .publishing portfolioId _ _ [] record announced rest =>
    -- the index on `action_id` is unique
    if input.fails ∨ ledger.Recorded record.actionId then raise
    else some ({ ledger with processed := ledger.processed ++ [record] },
      { run with stage := .recorded portfolioId record announced rest })
  | .recorded portfolioId record announced rest =>
    if input.fails then raise
    else some (if input.lost then ledger
        else { ledger with published := ledger.published ++ announced.toList },
      { run with stage := EodRun.answered record portfolioId rest })

def processing (fund : Fund) : Processes Ledger EodRun RunInput where
  advance := EodRun.advance fund

/-! ## Which portfolios an action reaches, over any EOD runs of a fund -/

/-! ## What is published for a portfolio -/

/-- The message tells the portfolio of an adjustment by the action. -/
def About (portfolioId : UUID) (actionId : String) (m : Message) : Prop :=
  m.event.data.get "portfolio_id" = some (.text portfolioId.str) ∧
    m.event.data.get "action_id" = some (.text actionId)

instance (portfolioId : UUID) (actionId : String) (m : Message) :
    Decidable (About portfolioId actionId m) :=
  inferInstanceAs (Decidable (_ ∧ _))

def Ledger.reached (ledger : Ledger) (portfolioId : UUID) (actionId : String) : List Message :=
  ledger.published.filter (About portfolioId actionId)

/-- The action has something to publish for the portfolio. -/
def Fund.Affects (fund : Fund) (action : CorporateAction) (portfolioId : UUID) : Prop :=
  match fund.adjustments action portfolioId with
  | .ok adjustments => ∃ adj ∈ adjustments, adj.quantityDelta ≠ 0 ∨ adj.cashAmount ≠ 0
  | .error _ => False

section Messages

variable {fund : Fund} {action : CorporateAction} {portfolioId : UUID}

theorem get_quantityEvent (slug : String) (draw : UUID) (t : ActionType) (adj : PositionAdjustment) :
    (quantityEvent slug portfolioId.str draw action t adj).data.get "portfolio_id" =
        some (.text portfolioId.str) ∧
      (quantityEvent slug portfolioId.str draw action t adj).data.get "action_id" =
        some (.text action.actionId) := by
  unfold quantityEvent
  simp only [Dict.get, List.lookup_cons, String.reduceBEq, and_self]

theorem get_cashEvent (slug : String) (t : ActionType) (adj : PositionAdjustment) :
    (cashEvent slug portfolioId.str action t adj).data.get "portfolio_id" =
        some (.text portfolioId.str) ∧
      (cashEvent slug portfolioId.str action t adj).data.get "action_id" =
        some (.text action.actionId) := by
  unfold cashEvent
  simp only [Dict.get, List.lookup_cons, String.reduceBEq, and_self]

theorem about_iff {m : Message}
    (data : m.event.data.get "portfolio_id" = some (.text portfolioId.str) ∧
      m.event.data.get "action_id" = some (.text action.actionId)) (other : UUID)
    (actionId : String) :
    About other actionId m ↔ portfolioId = other ∧ action.actionId = actionId := by
  rw [About, data.1, data.2, Option.some.injEq, Option.some.injEq, Field.text.injEq,
    Field.text.injEq]
  exact ⟨fun same => ⟨UUID.str_injective same.1, same.2⟩, fun same => ⟨congrArg _ same.1, same.2⟩⟩

theorem about_adjustment {slug : String} {draw : UUID} {t : ActionType} {adj : PositionAdjustment}
    {m : Message} (member : m ∈ adjustmentMessages slug portfolioId.str draw action t adj)
    (other : UUID) (actionId : String) :
    About other actionId m ↔ portfolioId = other ∧ action.actionId = actionId := by
  rcases List.mem_append.mp member with quantity | cash
  · split at quantity
    · obtain rfl := List.mem_singleton.mp quantity
      exact about_iff (get_quantityEvent slug draw t adj) other actionId
    · cases quantity
  · split at cash
    · obtain rfl := List.mem_singleton.mp cash
      exact about_iff (get_cashEvent slug t adj) other actionId
    · cases cash

theorem about_batch {draws : Nat → UUID} {m : Message}
    (member : m ∈ fund.batch action portfolioId draws) (other : UUID) (actionId : String) :
    About other actionId m ↔ portfolioId = other ∧ action.actionId = actionId := by
  unfold Fund.batch at member
  split at member
  · obtain ⟨⟨adj, i⟩, -, inside⟩ := List.mem_flatMap.mp member
    exact about_adjustment inside other actionId
  · cases member

theorem about_processed (slug : String) (status : ProcessingStatus) (other : UUID)
    (actionId : String) : ¬ About other actionId (processedMessage slug action status) := by
  have none : (processedMessage slug action status).event.data.get "portfolio_id" = none := by
    unfold processedMessage
    simp only [Dict.get, List.lookup_cons, List.lookup_nil, String.reduceBEq]
  rw [About, none]
  rintro ⟨published, -⟩
  cases published

/-- Where there is nothing to publish, no batch has a message. -/
theorem batch_unaffected (unaffected : ¬ fund.Affects action portfolioId) (draws : Nat → UUID) :
    fund.batch action portfolioId draws = [] := by
  unfold Fund.batch
  split
  · rename_i t adjustments typed computed
    simp only [Fund.Affects, computed, not_exists, not_and, not_or, not_not] at unaffected
    refine List.flatMap_eq_nil_iff.mpr fun pair inside => ?_
    obtain ⟨adj, i⟩ := pair
    obtain ⟨quantity, cash⟩ := unaffected adj (List.fst_mem_of_mem_zipIdx inside)
    simp [adjustmentMessages, quantity, cash]
  · rfl

theorem batch_affected {t : ActionType} (typed : action.actionType = t.value)
    (affected : fund.Affects action portfolioId) (draws : Nat → UUID) :
    fund.batch action portfolioId draws ≠ [] := by
  unfold Fund.Affects at affected
  unfold Fund.batch
  rw [typed, ActionType.ofValue_value]
  split at affected
  · rename_i adjustments computed
    rw [computed]
    obtain ⟨adj, inside, some'⟩ := affected
    obtain ⟨i, place⟩ := List.mem_iff_getElem?.mp inside
    intro empty
    have none := List.flatMap_eq_nil_iff.mp empty (adj, i)
      (List.mem_zipIdx_iff_getElem?.mpr place)
    rcases some' with quantity | cash
    · simp [adjustmentMessages, quantity] at none
    · simp [adjustmentMessages, cash] at none
  · exact affected.elim

end Messages

/-! ## Runs -/

/-- The action that a run has begun to adjust for. -/
def EodRun.adjusting (run : EodRun) : Option String :=
  match run.stage with
  | .publishing _ action .. => some action.actionId
  | .idle | .actions .. | .checked .. | .recorded .. | .raised => none

/-- An action is taken up for the only portfolio that it affects, before anything was
published or recorded for it and while no other run is at it; and no message is lost. -/
def Undivided (fund : Fund) (ledger : Ledger) (others : List EodRun) (run : EodRun)
    (input : RunInput) : Prop :=
  match run.stage with
  | .checked portfolioId action _ => input.fails = false → ¬ ledger.Recorded action.actionId ∧
      (∀ m ∈ ledger.published, m.event.data.get "action_id" ≠ some (.text action.actionId)) ∧
        (∀ other ∈ others, other.adjusting ≠ some action.actionId) ∧
        ∀ other ∈ fund.portfolios, other ≠ portfolioId → ¬ fund.Affects action other
  | .publishing _ _ _ (_ :: _) .. => input.fails = true ∨ input.lost = false
  | _ => True

def EodRun.Finished (run : EodRun) : Prop := run.stage = .idle ∧ run.pending = []

/-- No portfolio is told twice of an adjustment; after a run that has gone through its
actions, each is told of all of its adjustments by them. -/
def ReachesEachOnce (fund : Fund) (s : Processes.State Ledger EodRun) : Prop :=
  ∀ action ∈ fund.actions, ∀ portfolioId ∈ fund.portfolios,
    (∃ draws, s.shared.reached portfolioId action.actionId <+: fund.batch action portfolioId draws) ∧
      ∀ run ∈ s.processes, run.Finished → action.actionId ∈ run.seen →
        ∃ draws, s.shared.reached portfolioId action.actionId = fund.batch action portfolioId draws

/-- What was published for a portfolio is the beginning of its batch, and all of it
once the action is recorded. -/
def Ledger.Sound (fund : Fund) (ledger : Ledger) : Prop :=
  ∀ action ∈ fund.actions, ∀ portfolioId ∈ fund.portfolios, ∃ draws,
    ledger.reached portfolioId action.actionId <+: fund.batch action portfolioId draws ∧
      (ledger.Recorded action.actionId →
        ledger.reached portfolioId action.actionId = fund.batch action portfolioId draws)

/-- What a run knows of the ledger. -/
def EodRun.Knows (fund : Fund) (ledger : Ledger) (run : EodRun) : Prop :=
  match run.stage with
  | .idle => ∀ id ∈ run.seen, ledger.Recorded id
  | .actions _ rest => rest ⊆ fund.actions ∧
      ∀ id ∈ run.seen, ledger.Recorded id ∨ id ∈ rest.map (·.actionId)
  | .checked _ action rest => action ∈ fund.actions ∧ rest ⊆ fund.actions ∧
      ∀ id ∈ run.seen, ledger.Recorded id ∨ id ∈ (action :: rest).map (·.actionId)
  | .publishing portfolioId action sent pending record announced rest =>
    (action ∈ fund.actions ∧ rest ⊆ fund.actions ∧
      ∀ id ∈ run.seen, ledger.Recorded id ∨ id ∈ (action :: rest).map (·.actionId)) ∧
    record.actionId = action.actionId ∧
    (∀ m ∈ announced, ∀ other id, ¬ About other id m) ∧
    (ledger.Recorded action.actionId → pending = []) ∧
    ledger.reached portfolioId action.actionId = sent ∧
    (∃ draws, sent ++ pending = fund.batch action portfolioId draws) ∧
    ∀ other ∈ fund.portfolios, other ≠ portfolioId → ¬ fund.Affects action other
  | .recorded _ _ announced rest => rest ⊆ fund.actions ∧
      (∀ id ∈ run.seen, ledger.Recorded id ∨ id ∈ rest.map (·.actionId)) ∧
      ∀ m ∈ announced, ∀ other id, ¬ About other id m
  | .raised => True

section Steps

variable {fund : Fund} {ledger : Ledger}

theorem Ledger.recorded_append {record : ProcessedCorporateActionRecord} {id : String} :
    Ledger.Recorded { ledger with processed := ledger.processed ++ [record] } id ↔
      ledger.Recorded id ∨ record.actionId = id := by
  simp only [Ledger.Recorded, List.mem_append, List.mem_singleton, or_and_right, exists_or,
    exists_eq_left]

theorem Ledger.reached_append (messages : List Message) (portfolioId : UUID) (id : String) :
    Ledger.reached { ledger with published := ledger.published ++ messages } portfolioId id =
      ledger.reached portfolioId id ++ messages.filter (About portfolioId id) :=
  List.filter_append ..

theorem Fund.action_unique {a b : CorporateAction} (left : a ∈ fund.actions)
    (right : b ∈ fund.actions) (same : a.actionId = b.actionId) : a = b :=
  List.inj_on_of_nodup_map fund.identified left right same

/-- What changes for other actions does not matter to a run. -/
theorem EodRun.Knows.frame {ledger' : Ledger} {run : EodRun} (knows : run.Knows fund ledger)
    (grown : ∀ id, ledger.Recorded id → ledger'.Recorded id)
    (same : ∀ id ∈ run.adjusting, (∀ portfolioId,
      ledger'.reached portfolioId id = ledger.reached portfolioId id) ∧
        (ledger'.Recorded id → ledger.Recorded id)) :
    run.Knows fund ledger' := by
  obtain ⟨pending, stage, seen⟩ := run
  cases stage with
  | raised => trivial
  | idle => exact fun id inside => grown id (knows id inside)
  | actions portfolioId rest =>
    exact ⟨knows.1, fun id inside => (knows.2 id inside).imp_left (grown id)⟩
  | checked portfolioId action rest =>
    exact ⟨knows.1, knows.2.1, fun id inside => (knows.2.2 id inside).imp_left (grown id)⟩
  | recorded portfolioId record announced rest =>
    exact ⟨knows.1, fun id inside => (knows.2.1 id inside).imp_left (grown id), knows.2.2⟩
  | publishing portfolioId action sent pending record announced rest =>
    obtain ⟨⟨listed, within, ahead⟩, id, silent, unrecorded, reached, batch, only⟩ := knows
    obtain ⟨reachedSame, recordedSame⟩ := same action.actionId rfl
    exact ⟨⟨listed, within, fun id inside => (ahead id inside).imp_left (grown id)⟩, id, silent,
      fun recorded => unrecorded (recordedSame recorded), (reachedSame portfolioId).trans reached,
      batch, only⟩

theorem EodRun.Knows.answered {pending : List UUID} {seen : List String}
    {record : ProcessedCorporateActionRecord} {portfolioId : UUID} {rest : List CorporateAction}
    (within : rest ⊆ fund.actions)
    (ahead : ∀ id ∈ seen, ledger.Recorded id ∨ id ∈ rest.map (·.actionId)) :
    EodRun.Knows fund ledger ⟨pending, EodRun.answered record portfolioId rest, seen⟩ := by
  unfold EodRun.answered EodRun.Knows
  cases ActionType.ofValue record.actionType with
  | error exc => trivial
  | ok t => exact ⟨within, ahead⟩

theorem EodRun.answered_adjusting {pending : List UUID} {seen : List String}
    {record : ProcessedCorporateActionRecord} {portfolioId : UUID} {rest : List CorporateAction} :
    EodRun.adjusting ⟨pending, EodRun.answered record portfolioId rest, seen⟩ = none := by
  unfold EodRun.answered EodRun.adjusting
  cases ActionType.ofValue record.actionType <;> rfl

/-- The next message of a batch. -/
theorem Ledger.Sound.send {action : CorporateAction} {portfolioId : UUID} {m : Message}
    {pending : List Message} {draws : Nat → UUID} (sound : ledger.Sound fund)
    (listed : action ∈ fund.actions) (unrecorded : ¬ ledger.Recorded action.actionId)
    (batch : ledger.reached portfolioId action.actionId ++ m :: pending =
      fund.batch action portfolioId draws) :
    Ledger.Sound fund { ledger with published := ledger.published ++ [m] } := by
  have member : m ∈ fund.batch action portfolioId draws := by
    rw [← batch]
    simp
  intro other within place inside
  rw [Ledger.reached_append]
  by_cases own : About place other.actionId m
  · obtain ⟨rfl, id⟩ := (about_batch member place other.actionId).mp own
    obtain rfl := Fund.action_unique listed within id
    refine ⟨draws, ?_, fun recorded => absurd recorded unrecorded⟩
    rw [List.filter_singleton, decide_eq_true own, ← batch]
    exact ⟨pending, by simp⟩
  · rw [List.filter_singleton, decide_eq_false own, Bool.cond_false, List.append_nil]
    exact sound other within place inside

/-- The record, once the batch of the only portfolio is published. -/
theorem Ledger.Sound.insert {action : CorporateAction} {portfolioId : UUID}
    {record : ProcessedCorporateActionRecord} {draws : Nat → UUID} (sound : ledger.Sound fund)
    (listed : action ∈ fund.actions) (id : record.actionId = action.actionId)
    (batch : ledger.reached portfolioId action.actionId = fund.batch action portfolioId draws)
    (only : ∀ other ∈ fund.portfolios, other ≠ portfolioId → ¬ fund.Affects action other) :
    Ledger.Sound fund { ledger with processed := ledger.processed ++ [record] } := by
  intro other within place inside
  have unchanged : Ledger.reached { ledger with processed := ledger.processed ++ [record] } place
      other.actionId = ledger.reached place other.actionId := rfl
  rw [unchanged]
  obtain ⟨draws', beginning, whole⟩ := sound other within place inside
  by_cases own : action.actionId = other.actionId
  · obtain rfl := Fund.action_unique listed within own
    by_cases here : place = portfolioId
    · rw [here, batch]
      exact ⟨draws, List.prefix_refl _, fun _ => rfl⟩
    · have empty := batch_unaffected (only place inside here) draws'
      rw [empty] at beginning
      exact ⟨draws', empty ▸ beginning, fun _ => (List.prefix_nil.mp beginning).trans empty.symm⟩
  · refine ⟨draws', beginning, fun recorded => whole ?_⟩
    rcases Ledger.recorded_append.mp recorded with before | now
    · exact before
    · exact absurd (id.symm.trans now) own

/-- Messages that are about no portfolio change nothing. -/
theorem Ledger.reached_silent {messages : List Message}
    (silent : ∀ m ∈ messages, ∀ other id, ¬ About other id m) (portfolioId : UUID) (id : String) :
    Ledger.reached { ledger with published := ledger.published ++ messages } portfolioId id =
      ledger.reached portfolioId id := by
  rw [Ledger.reached_append, List.filter_eq_nil_iff.mpr, List.append_nil]
  intro m inside about
  exact silent m inside portfolioId id (of_decide_eq_true about)

/-- Two runs are not at one action. -/
def Apart (p q : EodRun) : Prop := ∀ id ∈ p.adjusting, q.adjusting ≠ some id

theorem Apart.symm {p q : EodRun} (apart : Apart p q) : Apart q p :=
  fun id at' same => apart id same at'

theorem Apart.idle {p q : EodRun} (none : p.adjusting = none) : Apart p q := by
  intro id inside
  rw [none] at inside
  cases inside

/-- What a run that takes an action up knows. -/
theorem EodRun.prepare_knows {pending : List UUID} {seen : List String} {portfolioId : UUID}
    {action : CorporateAction} {rest : List CorporateAction} (draws : Nat → UUID) (listed : action ∈ fund.actions)
    (within : rest ⊆ fund.actions)
    (ahead : ∀ id ∈ seen, ledger.Recorded id ∨ id ∈ (action :: rest).map (·.actionId))
    (unrecorded : ¬ ledger.Recorded action.actionId)
    (nothing : ledger.reached portfolioId action.actionId = [])
    (only : ∀ other ∈ fund.portfolios, other ≠ portfolioId → ¬ fund.Affects action other) :
    EodRun.Knows fund ledger
      ⟨pending, EodRun.prepare fund portfolioId action draws rest, seen⟩ := by
  have silent : ∀ m ∈ (none : Option Message), ∀ other id, ¬ About other id m :=
    fun m inside => nomatch inside
  unfold EodRun.prepare EodRun.Knows
  cases typed : ActionType.ofValue action.actionType with
  | error exc =>
    refine ⟨⟨listed, within, ahead⟩, rfl, silent, fun _ => rfl, nothing, ⟨draws, ?_⟩, only⟩
    simp [Fund.batch, typed]
  | ok t =>
    cases computed : fund.adjustments action portfolioId with
    | error exc =>
      refine ⟨⟨listed, within, ahead⟩, rfl, silent, fun _ => rfl, nothing, ⟨draws, ?_⟩, only⟩
      simp [Fund.batch, typed, computed]
    | ok adjustments =>
      refine ⟨⟨listed, within, ahead⟩, rfl, ?_, fun recorded => absurd recorded unrecorded, nothing,
        ⟨draws, rfl⟩, only⟩
      intro m inside other id
      cases inside
      exact about_processed fund.slug _ other id

theorem EodRun.prepare_adjusting {pending : List UUID} {seen : List String} {portfolioId : UUID}
    {action : CorporateAction} {draws : Nat → UUID} {rest : List CorporateAction} :
    EodRun.adjusting ⟨pending, EodRun.prepare fund portfolioId action draws rest, seen⟩ =
      some action.actionId := by
  unfold EodRun.prepare EodRun.adjusting
  cases ActionType.ofValue action.actionType with
  | error exc => rfl
  | ok t => cases fund.adjustments action portfolioId <;> rfl

/-- What holds of the ledger, of a run and of the other ones. -/
def EodRun.Among (fund : Fund) (ledger : Ledger) (others : List EodRun) (run : EodRun) : Prop :=
  ledger.Sound fund ∧ run.Knows fund ledger ∧ ∀ q ∈ others, q.Knows fund ledger ∧ Apart run q

section Turns

variable {others : List EodRun} {pending : List UUID} {seen : List String} {portfolioId : UUID}
  {action : CorporateAction} {sent messages : List Message} {m : Message}
  {record : ProcessedCorporateActionRecord} {announced : Option Message} {list : List CorporateAction}

/-- A turn that changes nothing but the run, which is at no action after it. -/
theorem EodRun.Among.idle {run moved : EodRun} (among : run.Among fund ledger others)
    (none : moved.adjusting = none) (known : moved.Knows fund ledger) :
    moved.Among fund ledger others :=
  ⟨among.1, known, fun q inside => ⟨(among.2.2 q inside).1, Apart.idle none⟩⟩

/-- The action of a run that publishes is that of no other run. -/
theorem EodRun.Among.elsewhere
    (among : EodRun.Among fund ledger others
      ⟨pending, .publishing portfolioId action sent messages record announced list, seen⟩) :
    ∀ q ∈ others, ∀ a ∈ q.adjusting, action.actionId ≠ a := by
  intro q inside a at' same
  exact (among.2.2 q inside).2 action.actionId rfl (same ▸ at')

theorem EodRun.Among.publish
    (among : EodRun.Among fund ledger others
      ⟨pending, .publishing portfolioId action sent (m :: messages) record announced list, seen⟩) :
    EodRun.Among fund { ledger with published := ledger.published ++ [m] } others
      ⟨pending, .publishing portfolioId action (sent ++ [m]) messages record announced list, seen⟩ := by
  have elsewhere := among.elsewhere
  obtain ⟨sound, knows, rest⟩ := among
  obtain ⟨⟨listed, within, ahead⟩, id, silent, unrecorded, reached, ⟨draws, batch⟩, only⟩ := knows
  have new : ¬ ledger.Recorded action.actionId := fun recorded => nomatch unrecorded recorded
  have member : m ∈ fund.batch action portfolioId draws := by
    rw [← batch]
    simp
  refine ⟨sound.send listed new (by rw [reached]; exact batch),
    ⟨⟨listed, within, ahead⟩, id, silent, fun recorded => absurd recorded new, ?_,
      ⟨draws, by simpa using batch⟩, only⟩, fun q inside => ⟨?_, (rest q inside).2⟩⟩
  · rw [Ledger.reached_append, reached, List.filter_singleton,
      decide_eq_true ((about_batch member _ _).mpr ⟨rfl, rfl⟩)]
    rfl
  · refine (rest q inside).1.frame (fun _ recorded => recorded) fun a at' => ⟨fun place => ?_, fun r => r⟩
    rw [Ledger.reached_append, List.filter_singleton, decide_eq_false, Bool.cond_false,
      List.append_nil]
    exact fun about => elsewhere q inside a at' ((about_batch member _ _).mp about).2

theorem EodRun.Among.insert
    (among : EodRun.Among fund ledger others
      ⟨pending, .publishing portfolioId action sent [] record announced list, seen⟩) :
    EodRun.Among fund { ledger with processed := ledger.processed ++ [record] } others
      ⟨pending, .recorded portfolioId record announced list, seen⟩ := by
  have elsewhere := among.elsewhere
  obtain ⟨sound, knows, rest⟩ := among
  obtain ⟨⟨listed, within, ahead⟩, id, silent, -, reached, ⟨draws, batch⟩, only⟩ := knows
  rw [List.append_nil] at batch
  refine ⟨sound.insert listed id (reached.trans batch) only, ⟨within, fun a inside => ?_, silent⟩,
    fun q inside => ⟨?_, .idle rfl⟩⟩
  · rw [Ledger.recorded_append]
    rcases ahead a inside with recorded | later
    · exact .inl (.inl recorded)
    · rcases List.mem_cons.mp later with rfl | later
      · exact .inl (.inr id)
      · exact .inr later
  · refine (rest q inside).1.frame (fun _ recorded => Ledger.recorded_append.mpr (.inl recorded))
      fun a at' => ⟨fun _ => rfl, fun recorded => ?_⟩
    rcases Ledger.recorded_append.mp recorded with before | now
    · exact before
    · exact absurd (id.symm.trans now) (elsewhere q inside a at')

theorem EodRun.Among.announce
    (among : EodRun.Among fund ledger others
      ⟨pending, .recorded portfolioId record announced list, seen⟩) :
    EodRun.Among fund { ledger with published := ledger.published ++ announced.toList } others
      ⟨pending, EodRun.answered record portfolioId list, seen⟩ := by
  obtain ⟨sound, ⟨within, ahead, silent⟩, rest⟩ := among
  have none : ∀ m ∈ announced.toList, ∀ other id, ¬ About other id m :=
    fun m inside => silent m (Option.mem_toList.mp inside)
  refine ⟨fun action listed place inside => ?_, .answered within ahead,
    fun q inside => ⟨?_, .idle EodRun.answered_adjusting⟩⟩
  · rw [Ledger.reached_silent none]
    exact sound action listed place inside
  · exact (rest q inside).1.frame (fun _ recorded => recorded)
      fun a _ => ⟨fun place => Ledger.reached_silent none place a, fun recorded => recorded⟩

variable {input : RunInput} {ledger' : Ledger} {run' : EodRun}

/-- The next portfolio is taken up, and the list of its actions read. -/
theorem EodRun.Among.takeUp (among : EodRun.Among fund ledger others ⟨pending, .idle, seen⟩)
    (advanced : EodRun.advance fund ledger others ⟨pending, .idle, seen⟩ input = some (ledger', run')) :
    run'.Among fund ledger' others := by
  have knows := among.2.1
  unfold EodRun.advance at advanced
  cases pending with
  | nil => cases advanced
  | cons portfolioId pending =>
    dsimp only at advanced
    split at advanced
    · cases advanced
      exact among.idle rfl trivial
    · split at advanced
      · rename_i listed
        cases advanced
        -- of the actions of the next portfolio, those that are recorded were known before
        refine among.idle rfl ⟨listed, fun id inside => ?_⟩
        rcases List.mem_append.mp inside with before | now
        · exact .inl (knows id before)
        · exact .inr now
      · cases advanced

/-- The next action is looked up among those that are recorded. -/
theorem EodRun.Among.look (among : EodRun.Among fund ledger others ⟨pending, .actions portfolioId list, seen⟩)
    (advanced : EodRun.advance fund ledger others ⟨pending, .actions portfolioId list, seen⟩ input =
      some (ledger', run')) : run'.Among fund ledger' others := by
  obtain ⟨within, ahead⟩ := among.2.1
  unfold EodRun.advance at advanced
  cases list with
  | nil =>
    cases advanced
    refine among.idle rfl fun id inside => ?_
    -- the list is through, so that every action of the portfolio is recorded
    exact (ahead id inside).resolve_right List.not_mem_nil
  | cons action list =>
    obtain ⟨listed, within⟩ := List.cons_subset.mp within
    dsimp only at advanced
    split at advanced
    · cases advanced
      exact among.idle rfl trivial
    · split at advanced
      · rename_i existing found
        cases advanced
        refine among.idle EodRun.answered_adjusting (.answered within fun id inside => ?_)
        -- what is found recorded joins those that are answered for
        rcases ahead id inside with recorded | later
        · exact .inl recorded
        · rcases List.mem_cons.mp later with rfl | later
          · have same := List.find?_some found
            exact .inl ⟨existing, List.mem_of_find?_eq_some found, of_decide_eq_true same⟩
          · exact .inr later
      · cases advanced
        exact among.idle rfl ⟨listed, within, ahead⟩

/-- An action that is taken up undivided is prepared. -/
theorem EodRun.Among.check
    (among : EodRun.Among fund ledger others ⟨pending, .checked portfolioId action list, seen⟩)
    (undivided : Undivided fund ledger others ⟨pending, .checked portfolioId action list, seen⟩ input)
    (advanced : EodRun.advance fund ledger others ⟨pending, .checked portfolioId action list, seen⟩ input =
      some (ledger', run')) : run'.Among fund ledger' others := by
  obtain ⟨listed, within, ahead⟩ := among.2.1
  unfold EodRun.advance at advanced
  dsimp only at advanced
  split at advanced
  · cases advanced
    exact among.idle rfl trivial
  · rename_i answers
    obtain ⟨unrecorded, unpublished, free, only⟩ := undivided (by simpa using answers)
    cases advanced
    -- nothing is recorded, so that nothing has been published, and no other run is at the action
    have nothing : ledger.reached portfolioId action.actionId = [] :=
      List.filter_eq_nil_iff.mpr fun m inside about =>
        unpublished m inside (of_decide_eq_true about).2
    refine ⟨among.1, EodRun.prepare_knows _ listed within ahead unrecorded nothing only,
      fun q inside => ⟨(among.2.2 q inside).1, fun id at' => ?_⟩⟩
    rw [EodRun.prepare_adjusting] at at'
    cases at'
    exact free q inside

end Turns

/-- What a turn of a run leaves to it and to the others. -/
theorem EodRun.advance_keeps {run run' : EodRun} {ledger' : Ledger} {others : List EodRun}
    {input : RunInput} (among : run.Among fund ledger others)
    (undivided : Undivided fund ledger others run input)
    (advanced : run.advance fund ledger others input = some (ledger', run')) :
    run'.Among fund ledger' others := by
  obtain ⟨pending, stage, seen⟩ := run
  cases stage with
  | raised => cases advanced
  | idle => exact among.takeUp advanced
  | actions portfolioId list => exact among.look advanced
  | checked portfolioId action list => exact among.check undivided advanced
  | publishing portfolioId action sent messages record announced list =>
    unfold EodRun.advance at advanced
    cases messages with
    | cons m messages =>
      dsimp only at advanced
      split at advanced
      · cases advanced
        exact among.idle rfl trivial
      · rename_i answers
        -- a message that reaches the portfolio is not lost
        have kept : input.lost = false := undivided.resolve_left (by simpa using answers)
        rw [kept, if_neg (by decide)] at advanced
        cases advanced
        exact among.publish
    | nil =>
      dsimp only at advanced
      split at advanced
      · cases advanced
        exact among.idle rfl trivial
      · cases advanced
        exact among.insert
  | recorded portfolioId record announced list =>
    unfold EodRun.advance at advanced
    dsimp only at advanced
    split at advanced
    · cases advanced
      exact among.idle rfl trivial
    · split at advanced
      · -- a message that is lost says nothing of the action that any run goes by
        cases advanced
        exact among.idle EodRun.answered_adjusting (.answered among.2.1.1 among.2.1.2.1)
      · cases advanced
        exact among.announce

/-- The runs of a fund for which nothing was processed, each of its portfolios. -/
def eodStart (runs : List (List UUID)) : Processes.State Ledger EodRun where
  shared := {}
  processes := runs.map ({ pending := · })

/-- Along every run of the system that takes actions up undivided, no portfolio is told
twice, and each is told of all that was processed. -/
theorem reachesEachOnce_of_undivided {runs : List (List UUID)}
    {turns : List (Processes.Turn RunInput)} {final : Processes.State Ledger EodRun}
    (undivided : (processing fund).system.Along (Processes.When (Undivided fund)) (eodStart runs)
      turns)
    (ran : (processing fund).system.run (eodStart runs) turns = some final) :
    ReachesEachOnce fund final := by
  have kept : ∀ s turn next, Processes.Holds (Ledger.Sound fund) (fun ledger run =>
      run.Knows fund ledger) Apart s → Processes.When (Undivided fund) s turn →
      (processing fund).system.step s turn = some next → Processes.Holds (Ledger.Sound fund)
        (fun ledger run => run.Knows fund ledger) Apart next := by
    intro s turn next holds met stepped
    refine Processes.step_keeps (fun _ _ => Apart.symm) ?_ holds met stepped
    intro ledger ledger' others run run' input sound knows rest undivided advanced
    exact EodRun.advance_keeps ⟨sound, knows, rest⟩ undivided advanced
  have initial : Processes.Holds (Ledger.Sound fund) (fun ledger run => run.Knows fund ledger)
      Apart (eodStart runs) := by
    refine ⟨fun action _ place _ => ⟨fun _ => ⟨0, by decide⟩, List.nil_prefix, ?_⟩, ?_, ?_⟩
    · rintro ⟨r, inside, -⟩
      cases inside
    · intro run inside
      obtain ⟨pending, -, rfl⟩ := List.mem_map.mp inside
      exact fun id none => nomatch none
    · refine List.pairwise_map.mpr (List.pairwise_of_forall fun _ _ => Apart.idle rfl)
  have holds := System.invariant_along kept undivided ran initial
  intro action listed place inside
  obtain ⟨draws, beginning, whole⟩ := holds.shared action listed place inside
  refine ⟨⟨draws, beginning⟩, fun run member finished saw => ⟨draws, whole ?_⟩⟩
  have knows := holds.each run member
  unfold EodRun.Knows at knows
  rw [finished.1] at knows
  exact knows _ saw

instance (fund : Fund) (action : CorporateAction) (portfolioId : UUID) :
    Decidable (fund.Affects action portfolioId) :=
  match computed : fund.adjustments action portfolioId with
  | .ok adjustments =>
    decidable_of_iff (∃ adj ∈ adjustments, adj.quantityDelta ≠ 0 ∨ adj.cashAmount ≠ 0)
      (by simp [Fund.Affects, computed])
  | .error _ => isFalse (by simp [Fund.Affects, computed])

instance (fund : Fund) (ledger : Ledger) (others : List EodRun) (run : EodRun) (input : RunInput) :
    Decidable (Undivided fund ledger others run input) :=
  match run with
  | ⟨_, .checked .., _⟩ => inferInstanceAs (Decidable (_ = false → _))
  | ⟨_, .publishing _ _ _ (_ :: _) .., _⟩ => inferInstanceAs (Decidable (_ ∨ _))
  | ⟨_, .publishing _ _ _ [] .., _⟩ | ⟨_, .idle, _⟩ | ⟨_, .actions .., _⟩ | ⟨_, .recorded .., _⟩
  | ⟨_, .raised, _⟩ => isTrue trivial

end Steps

/-! ## A split in two portfolios -/

section Split

def firstHolder : UUID := .ofNat 1

def secondHolder : UUID := .ofNat 2

def twoForOne : CorporateAction where
  actionId := "00000000-0000-0000-0000-000000000009"
  instrumentId := "AAPL"
  actionType := "stock_split"
  amount := some 2

def hundredShares (portfolioId : UUID) : CurrentPositionRecord where
  portfolioId := portfolioId
  instrumentId := "AAPL"
  quantity := 100
  avgCost := 150
  costBasis := 15000
  realizedPnl := 0
  marketPrice := 150
  marketValue := 15000
  unrealizedPnl := 0
  currency := "USD"

/-- The fund alpha, with two portfolios of which those listed hold the shares. -/
def holdingFund (holders : List UUID) : Fund where
  slug := "alpha"
  portfolios := [firstHolder, secondHolder]
  actions := [twoForOne]
  position _ portfolioId := if portfolioId ∈ holders then some (hundredShares portfolioId) else none
  identified := List.nodup_singleton _

/-- One run through both portfolios: seven turns at the first, three at the second. -/
def bothPortfolios : List (Processes.Turn RunInput) :=
  List.replicate 10 ⟨0, { actions := [twoForOne] }⟩

theorem first_reached : ∃ final,
    (processing (holdingFund [firstHolder])).system.run (eodStart [[firstHolder, secondHolder]])
        bothPortfolios = some final ∧ (∃ run ∈ final.processes, run.Finished) ∧
      ReachesEachOnce (holdingFund [firstHolder]) final := by
  have undivided : (processing (holdingFund [firstHolder])).system.Along
      (Processes.When (Undivided (holdingFund [firstHolder])))
      (eodStart [[firstHolder, secondHolder]]) bothPortfolios := by decide +kernel
  have finished : ((processing (holdingFund [firstHolder])).system.run
      (eodStart [[firstHolder, secondHolder]]) bothPortfolios).map (fun s => s.processes) =
        some [⟨[], .idle, [twoForOne.actionId, twoForOne.actionId]⟩] := by decide +kernel
  obtain ⟨final, ran, processes⟩ := Option.map_eq_some_iff.mp finished
  have member : (⟨[], .idle, [twoForOne.actionId, twoForOne.actionId]⟩ : EodRun) ∈
      final.processes := by
    rw [processes]
    exact List.mem_singleton_self _
  exact ⟨final, ran, ⟨_, member, rfl, rfl⟩, reachesEachOnce_of_undivided undivided ran⟩

/-- Both portfolios hold the shares, and the second is told nothing. -/
theorem second_not_reached : ∃ final,
    (processing (holdingFund [firstHolder, secondHolder])).system.run
        (eodStart [[firstHolder, secondHolder]]) bothPortfolios = some final ∧
      (∃ run ∈ final.processes, run.Finished) ∧
      final.shared.reached secondHolder twoForOne.actionId = [] ∧
      ¬ ReachesEachOnce (holdingFund [firstHolder, secondHolder]) final := by
  have ended : ((processing (holdingFund [firstHolder, secondHolder])).system.run
      (eodStart [[firstHolder, secondHolder]]) bothPortfolios).map
        (fun s => (s.shared.reached secondHolder twoForOne.actionId, s.processes)) =
          some ([], [⟨[], .idle, [twoForOne.actionId, twoForOne.actionId]⟩]) := by decide +kernel
  obtain ⟨final, ran, ended⟩ := Option.map_eq_some_iff.mp ended
  obtain ⟨nothing, processes⟩ := Prod.mk.inj ended
  have member : (⟨[], .idle, [twoForOne.actionId, twoForOne.actionId]⟩ : EodRun) ∈
      final.processes := by
    rw [processes]
    exact List.mem_singleton_self _
  refine ⟨final, ran, ⟨_, member, rfl, rfl⟩, nothing, fun once => ?_⟩
  obtain ⟨draws, whole⟩ := (once twoForOne (List.mem_singleton_self _) secondHolder (by decide)).2 _
    member ⟨rfl, rfl⟩ (by decide)
  have typed : twoForOne.actionType = ActionType.stockSplit.value := rfl
  exact batch_affected typed (by decide +kernel) draws (whole.symm.trans nothing)

end Split

end MiniHedge.CorporateActions
