import MiniHedge.Compliance.Mirror

/-! One evaluation of a portfolio from its start to its end.

It is what a handler leaves that no other turn comes between. What it does to
the violations of one rule depends on that rule alone, as long as it is reached.
-/

set_option autoImplicit false

namespace MiniHedge.Compliance

open MiniHedge.Python MiniHedge.Library

namespace Fund

/-- The loop over the rules; what an evaluator raises ends it. -/
def evaluateRules (isPassive : Bool) (now : Datetime) (state : PortfolioState)
    (existingByRuleId : List (UUID × Violation)) : List RuleDefinition → Fund → Fund
  | [], fund => fund
  | rule :: rest, fund =>
    match evaluate state rule with
    | .error _ => fund
    | .ok result =>
      evaluateRules isPassive now state existingByRuleId rest
        (fund.persist isPassive now existingByRuleId rule result)

/-- `PostTradeMonitor._evaluate_portfolio`, in one go. -/
def evaluatePortfolio (fund : Fund) (isPassive : Bool) (now : Datetime) : Fund :=
  match fund.rules.listActive.mapM RuleRecord.definition with
  | .error _ => fund
  | .ok rules =>
    if fund.positions.isEmpty then fund
    else match fund.actual with
      | .error _ => fund
      | .ok state =>
        evaluateRules isPassive now state (byRuleId fund.violations.listActive) rules fund

end Fund

/-! ## The handler -/

namespace Handler

variable {now : Datetime} {fund fund' final : Fund} {h h' : Handler}

/-- With turns of its own alone the handler ends, and leaves the fund so. -/
def Ends (now : Datetime) (fund : Fund) (h : Handler) (final : Fund) : Prop :=
  ∃ n, monitor.run ⟨fund, [], [h]⟩ (List.replicate n (.turn 0 { now })) = some ⟨final, [], []⟩

theorem Ends.last (ended : h.next fund now = (final, none)) : h.Ends now fund final := by
  refine ⟨1, ?_⟩
  simp [monitor, advance, ended]

theorem Ends.next (moved : h.next fund now = (fund', some h')) (later : h'.Ends now fund' final) :
    h.Ends now fund final := by
  obtain ⟨n, ran⟩ := later
  refine ⟨n + 1, ?_⟩
  rw [List.replicate_succ, System.run_cons]
  have stepped : monitor.step ⟨fund, [], [h]⟩ (.turn 0 { now }) = some ⟨fund', [], [h']⟩ := by
    simp [monitor, advance, moved]
  rw [stepped]
  exact ran

theorem evaluating_ends (isPassive : Bool) (state : PortfolioState)
    (existingByRuleId : List (UUID × Violation)) (rules : List RuleDefinition) (fund : Fund) :
    Ends now fund ⟨isPassive, .evaluating rules state existingByRuleId⟩
      (Fund.evaluateRules isPassive now state existingByRuleId rules fund) := by
  induction rules generalizing fund with
  | nil => exact .last rfl
  | cons rule rest ih =>
    unfold Fund.evaluateRules
    cases evaluated : evaluate state rule with
    | error exc => exact .last (by simp [Handler.next, evaluated])
    | ok result => exact .next (by simp only [Handler.next, evaluated]) (ih _)

theorem describing_ends {isPassive : Bool} {rules : List RuleDefinition} {rest : List Position}
    {described : List (String × PositionInfo)} {state : PortfolioState}
    (built : fund.sources.stateOf fund.portfolioId (rest.foldl (fun d pos =>
      setItem pos.instrumentId (fund.sources.info pos) d) described) = .ok state)
    (later : Ends now fund ⟨isPassive, .listing rules state⟩ final) :
    Ends now fund ⟨isPassive, .describing rules rest described⟩ final := by
  induction rest generalizing described with
  | nil =>
    rw [List.foldl_nil] at built
    exact .next (by simp only [Handler.next, built]) later
  | cons pos rest ih => exact .next rfl (ih built)

end Handler

/-- A handler that nothing comes between leaves what the evaluation leaves. -/
theorem handler_ends (fund : Fund) (isPassive : Bool) (now : Datetime) :
    Handler.Ends now fund { isPassive } (fund.evaluatePortfolio isPassive now) := by
  unfold Fund.evaluatePortfolio
  by_cases unruled : fund.rules.listActive = []
  · have unchanged : Handler.Ends now fund { isPassive } fund :=
      .last (by simp [Handler.next, unruled])
    rw [unruled]
    obtain ⟨state, built⟩ := fund.stateOf_ok (fund.sources.infos fund.positions)
    rw [show fund.actual = .ok state from built]
    cases fund.positions <;> exact unchanged
  · cases read : fund.rules.listActive.mapM RuleRecord.definition with
    | error exc => exact .last (by simp [Handler.next, unruled, read])
    | ok rules =>
      have started : Handler.next { isPassive } fund now =
          (fund, some ⟨isPassive, .loading rules⟩) := by simp [Handler.next, unruled, read]
      refine .next started ?_
      by_cases empty : fund.positions = []
      · simp only [empty, List.isEmpty_nil, if_true]
        exact .last (by simp [Handler.next, empty])
      · obtain ⟨state, built⟩ := fund.stateOf_ok (fund.sources.infos fund.positions)
        rw [show fund.actual = .ok state from built]
        simp only [List.isEmpty_iff, empty, if_false]
        have loaded : Handler.next ⟨isPassive, .loading rules⟩ fund now =
            (fund, some ⟨isPassive, .describing rules fund.positions []⟩) := by
          simp [Handler.next, empty]
        refine .next loaded (Handler.describing_ends built ?_)
        exact .next rfl (Handler.evaluating_ends ..)

/-! ## The violations of one rule -/

namespace Fund

variable {fund : Fund} {isPassive : Bool} {now : Datetime} {state : PortfolioState}
  {existingByRuleId : List (UUID × Violation)} {rule : RuleDefinition}
  {rules before after : List RuleDefinition} {id : UUID}

/-- What was listed is still in the table, under the rule that it was listed for. -/
def Holds (existingByRuleId : List (UUID × Violation)) (fund : Fund) : Prop :=
  ∀ id v, existingByRuleId.lookup id = some v →
    ∃ row ∈ fund.violations.rows, row.id = v.id ∧ row.ruleId = id

theorem holds_listed (fund : Fund) : Holds (byRuleId fund.violations.listActive) fund := by
  intro id v found
  obtain ⟨listed, own⟩ := byRuleId_member found
  exact ⟨v, List.mem_of_mem_filter (Violations.mem_listActive.mp listed), rfl, own⟩

theorem Holds.persist (holds : Holds existingByRuleId fund) (rule : RuleDefinition)
    (result : EvaluationResult) :
    Holds existingByRuleId (fund.persist isPassive now existingByRuleId rule result) := by
  unfold Fund.persist
  split
  · intro id v found
    obtain ⟨row, inside, same⟩ := holds id v found
    exact ⟨row, List.mem_append_left _ inside, same⟩
  · intro id v found
    obtain ⟨row, inside, same, own⟩ := holds id v found
    refine ⟨_, (Numbered.mem_change (Violations.resolved now) fun _ => rfl).mpr ⟨row, inside, rfl⟩, ?_, ?_⟩
    · split <;> exact same
    · split <;> exact own
  · exact holds

/-- A rule leaves the violations of the others as they are. -/
theorem activeOf_persist_other (holds : Holds existingByRuleId fund) (other : rule.id ≠ id)
    (result : EvaluationResult) :
    (fund.persist isPassive now existingByRuleId rule result).activeOf id = fund.activeOf id := by
  unfold Fund.persist
  split
  · rw [activeOf_insert _ _ rfl]
    simp [breach, other]
  · rename_i violation _ found
    obtain ⟨row, inside, same, own⟩ := holds _ _ found
    unfold activeOf
    rw [Violations.active_resolve, List.filter_filter]
    refine List.filter_congr fun w listed => ?_
    by_cases its : w.ruleId = id
    · have apart : w.id ≠ violation.id := by
        intro hit
        have one := Numbered.unique (List.mem_of_mem_filter listed) inside (hit.trans same.symm)
        exact other (own.symm.trans (one ▸ its))
      simp [its, apart]
    · simp [its]
  · rfl

theorem evaluateRules_others (isPassive : Bool) (now : Datetime) (state : PortfolioState)
    (holds : Holds existingByRuleId fund) (others : ∀ rule ∈ rules, rule.id ≠ id) :
    Holds existingByRuleId (evaluateRules isPassive now state existingByRuleId rules fund) ∧
      (evaluateRules isPassive now state existingByRuleId rules fund).activeOf id =
        fund.activeOf id := by
  induction rules generalizing fund with
  | nil => exact ⟨holds, rfl⟩
  | cons rule rest ih =>
    unfold evaluateRules
    split
    · exact ⟨holds, rfl⟩
    · rename_i result _
      obtain ⟨held, same⟩ := ih (holds.persist rule result)
        fun rule member => others rule (List.mem_cons_of_mem _ member)
      exact ⟨held, same.trans (activeOf_persist_other holds (others rule List.mem_cons_self) result)⟩

theorem evaluateRules_append
    (reached : ∀ rule ∈ before, ∃ result, evaluate state rule = .ok result) :
    evaluateRules isPassive now state existingByRuleId (before ++ after) fund =
      evaluateRules isPassive now state existingByRuleId after
        (evaluateRules isPassive now state existingByRuleId before fund) := by
  induction before generalizing fund with
  | nil => rfl
  | cons rule rest ih =>
    obtain ⟨result, evaluated⟩ := reached rule List.mem_cons_self
    simp only [List.cons_append, evaluateRules, evaluated]
    exact ih fun rule member => reached rule (List.mem_cons_of_mem _ member)

/-- Nothing is reached behind a rule that raises. -/
theorem evaluateRules_stopped {exc : Exc} (member : rule ∈ before)
    (raises : evaluate state rule = .error exc) :
    evaluateRules isPassive now state existingByRuleId (before ++ after) fund =
      evaluateRules isPassive now state existingByRuleId before fund := by
  induction before generalizing fund with
  | nil => cases member
  | cons first rest ih =>
    simp only [List.cons_append, evaluateRules]
    split
    · rfl
    · rename_i result evaluated
      rcases List.mem_cons.mp member with rfl | later
      · rw [raises] at evaluated
        cases evaluated
      · exact ih later

/-- A rule that fails has a violation afterwards, and one that passes gets none. -/
theorem activeOf_persist_own (listed : (existingByRuleId.lookup rule.id).isSome ↔
      fund.activeOf rule.id ≠ []) (result : EvaluationResult) :
    (result.passed = false →
      (fund.persist isPassive now existingByRuleId rule result).activeOf rule.id ≠ []) ∧
    (result.passed = true → fund.activeOf rule.id = [] →
      (fund.persist isPassive now existingByRuleId rule result).activeOf rule.id = []) := by
  unfold Fund.persist
  split
  · rename_i failed absent
    refine ⟨fun _ => ?_, fun passed => ?_⟩
    · rw [activeOf_insert _ _ rfl]
      simp [breach]
    · rw [failed] at passed
      cases passed
  · rename_i violation passed found
    refine ⟨fun failed => ?_, fun _ none_active => ?_⟩
    · rw [passed] at failed
      cases failed
    · exact absurd none_active (listed.mp (by simp [found]))
  · rename_i inserted resolved
    refine ⟨fun failed => ?_, fun _ none_active => none_active⟩
    apply listed.mp
    cases found : existingByRuleId.lookup rule.id with
    | none => exact absurd found (inserted failed)
    | some v => rfl

end Fund

end MiniHedge.Compliance
