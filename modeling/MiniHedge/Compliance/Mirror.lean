import MiniHedge.Compliance.Monitor

/-! The violations against the rules.

A handler whose readings are those of the fund as it is has brought into line
the rules that it has gone through, and a write on current readings brings its
rule into line whoever makes it. So when nothing is under way the violations are
those of the failing rules, unless a write was made on readings that were no
longer current, or a rule or the last position went while a violation was open.
-/

set_option autoImplicit false

namespace MiniHedge.Compliance

open MiniHedge.Python MiniHedge.Library

namespace Fund

variable (fund : Fund)

def actual : Except Exc PortfolioState := fund.sources.actualState fund.portfolioId fund.positions

/-- The active violations of a rule. -/
def activeOf (id : UUID) : List Violation := fund.violations.active.filter fun v => v.ruleId = id

/-- An active rule with this identifier fails on the current state. -/
def Fails (id : UUID) : Prop :=
  fund.positions ≠ [] ∧ ∃ record ∈ fund.rules.listActive, ∃ rule state result,
    record.definition = .ok rule ∧ rule.id = id ∧ fund.actual = .ok state ∧
      evaluate state rule = .ok result ∧ result.passed = false

/-- One active violation of a rule that fails, and none of another. -/
structure Mirrored (id : UUID) : Prop where
  failing : fund.Fails id → (fund.activeOf id).length = 1
  passing : ¬ fund.Fails id → fund.activeOf id = []

def Mirrors : Prop := ∀ id, fund.Mirrored id

end Fund

/-! ## The table of violations -/

namespace Violations

variable {violations : Violations}

theorem mem_listActive {v : Violation} : v ∈ violations.listActive ↔ v ∈ violations.active :=
  mem_sortOn _

theorem active_insert (record : Violation) (unresolved : record.resolvedAt = none) :
    (violations.insert record).active =
      violations.active ++ [{ record with id := violations.rows.length }] := by
  simp [active, insert, Numbered.append, List.filter_append, unresolved]

/-- Resolving takes away the row with the key. -/
theorem active_resolve (id : Nat) (now : Datetime) :
    (violations.resolve id now).active = violations.active.filter fun v => v.id ≠ id := by
  unfold active resolve
  simp only [Numbered.change, changeRow]
  rw [List.filter_map, List.filter_filter]
  have kept : ∀ v ∈ violations.rows,
      ((fun v : Violation => v.resolvedAt.isNone) ∘
        fun v => if v.id = id then resolved now v else v) v =
        (decide (v.id ≠ id) && v.resolvedAt.isNone) := by
    intro v _
    by_cases own : v.id = id
    · simp [own, resolved]
    · simp [own]
  rw [List.filter_congr kept]
  conv_rhs => rw [← List.map_id (List.filter _ _)]
  refine List.map_congr_left fun v member => ?_
  rw [if_neg]
  · rfl
  · have both := (List.mem_filter.mp member).2
    rw [Bool.and_eq_true, decide_eq_true_eq] at both
    exact both.1

end Violations

/-- The dictionary by rule has an entry for each rule that occurs. -/
theorem byRuleId_found (existing : List Violation) (id : UUID) :
    ((byRuleId existing).lookup id).isSome ↔ ∃ v ∈ existing, v.ruleId = id := by
  suffices general : ∀ d : List (UUID × Violation),
      ((existing.foldl (fun d v => setItem v.ruleId v d) d).lookup id).isSome ↔
        (d.lookup id).isSome ∨ ∃ v ∈ existing, v.ruleId = id by
    simpa [byRuleId] using general []
  induction existing with
  | nil => simp
  | cons first rest ih =>
    intro d
    rw [List.foldl_cons, ih, lookup_setItem]
    by_cases own : id = first.ruleId
    · simp [own]
    · simp [own, Ne.symm own]

/-- What is found is one of the violations of the rule. -/
theorem byRuleId_member {existing : List Violation} {id : UUID} {v : Violation}
    (found : (byRuleId existing).lookup id = some v) : v ∈ existing ∧ v.ruleId = id := by
  suffices general : ∀ d : List (UUID × Violation), (∀ v, d.lookup id = some v → v.ruleId = id) →
      (existing.foldl (fun d v => setItem v.ruleId v d) d).lookup id = some v →
        (v ∈ existing ∨ d.lookup id = some v) ∧ v.ruleId = id by
    obtain ⟨inside, same⟩ := general [] (by simp) found
    exact ⟨inside.resolve_right (by simp), same⟩
  clear found
  induction existing with
  | nil => exact fun d keyed found => ⟨.inr found, keyed v found⟩
  | cons first rest ih =>
    intro d keyed found
    have keyed' : ∀ w, (setItem first.ruleId first d).lookup id = some w → w.ruleId = id := by
      intro w held
      rw [lookup_setItem] at held
      split at held
      · rename_i own
        cases held
        exact own.symm
      · exact keyed w held
    obtain ⟨inside, same⟩ := ih _ keyed' found
    refine ⟨?_, same⟩
    rcases inside with later | held
    · exact .inl (List.mem_cons_of_mem _ later)
    · rw [lookup_setItem] at held
      split at held
      · cases held
        exact .inl (by simp)
      · exact .inr held

/-! ## The rules -/

theorem definition_id {record : RuleRecord} {rule : RuleDefinition}
    (read : record.definition = .ok rule) : (Field.text record.id).asUuid = .ok rule.id := by
  unfold RuleRecord.definition at read
  obtain ⟨id, parsed, read⟩ := bind_eq_ok.mp read
  obtain ⟨ruleType, -, read⟩ := bind_eq_ok.mp read
  obtain ⟨severity, -, read⟩ := bind_eq_ok.mp read
  cases read
  exact parsed

/-- Rules that are read under one identifier are one rule. -/
theorem Rules.unique {rules : Rules} {first second : RuleRecord} {rule rule' : RuleDefinition}
    (left : first ∈ rules.listActive) (right : second ∈ rules.listActive)
    (leftRead : first.definition = .ok rule) (rightRead : second.definition = .ok rule')
    (same : rule'.id = rule.id) : rule' = rule := by
  have one : first = second := by
    refine List.inj_on_of_nodup_map rules.distinct (List.mem_of_mem_filter left)
      (List.mem_of_mem_filter right) ?_
    rw [definition_id leftRead, definition_id rightRead, same]
  rw [one, rightRead] at leftRead
  cases leftRead
  rfl

namespace Fund

variable {fund : Fund}

/-- Whether a rule that can be evaluated fails is what its evaluation says. -/
theorem fails_iff {record : RuleRecord} {rule : RuleDefinition} {state : PortfolioState}
    {result : EvaluationResult} (held : fund.positions ≠ [])
    (active : record ∈ fund.rules.listActive) (read : record.definition = .ok rule)
    (built : fund.actual = .ok state) (evaluated : evaluate state rule = .ok result) :
    fund.Fails rule.id ↔ result.passed = false := by
  constructor
  · rintro ⟨-, other, active', rule', state', result', read', same, built', evaluated', failed⟩
    have one := Rules.unique active active' read read' same
    rw [built] at built'
    cases built'
    rw [one, evaluated] at evaluated'
    cases evaluated'
    exact failed
  · intro failed
    exact ⟨held, record, active, rule, state, result, read, rfl, built, evaluated, failed⟩

/-- At most one active violation of a rule, all of active rules, and none
without positions. -/
structure Orderly (fund : Fund) : Prop where
  single : ∀ id, (fund.activeOf id).length ≤ 1
  owned : ∀ v ∈ fund.violations.active,
    ∃ record ∈ fund.rules.listActive, (Field.text record.id).asUuid = .ok v.ruleId
  held : fund.violations.active ≠ [] → fund.positions ≠ []

theorem mem_activeOf {id : UUID} {v : Violation} :
    v ∈ fund.activeOf id ↔ v ∈ fund.violations.active ∧ v.ruleId = id := by
  simp [activeOf]

theorem Mirrors.orderly (mirrors : fund.Mirrors) : fund.Orderly := by
  have fails : ∀ v ∈ fund.violations.active, fund.Fails v.ruleId := by
    intro v active
    by_contra passes
    have none_left := (mirrors v.ruleId).passing passes
    have inside : v ∈ fund.activeOf v.ruleId := mem_activeOf.mpr ⟨active, rfl⟩
    rw [none_left] at inside
    cases inside
  refine ⟨?_, ?_, ?_⟩
  · intro id
    by_cases failing : fund.Fails id
    · exact ((mirrors id).failing failing).le
    · simp [(mirrors id).passing failing]
  · intro v active
    obtain ⟨-, record, listed, rule, state, result, read, same, -⟩ := fails v active
    exact ⟨record, listed, same ▸ definition_id read⟩
  · intro some_active
    obtain ⟨v, active⟩ := List.exists_mem_of_ne_nil _ some_active
    exact (fails v active).1

/-! ## Writes -/

/-- The violation of the rule is to be inserted or resolved. -/
def Writes (existingByRuleId : List (UUID × Violation)) (rule : RuleDefinition)
    (result : EvaluationResult) : Prop :=
  result.passed = (existingByRuleId.lookup rule.id).isSome

/-- What the rule is judged by is what the fund has now. -/
structure Current (fund : Fund) (state : PortfolioState)
    (existingByRuleId : List (UUID × Violation)) (rule : RuleDefinition) : Prop where
  held : fund.positions ≠ []
  active : ∃ record ∈ fund.rules.listActive, record.definition = .ok rule
  built : fund.actual = .ok state
  listed : existingByRuleId.lookup rule.id =
    (byRuleId fund.violations.listActive).lookup rule.id

/-- The fund with its violations changed, where every rule in line stays in line. -/
structure Improved (fund fund' : Fund) : Prop where
  orderly : fund'.Orderly
  same : fund' = { fund with violations := fund'.violations }
  kept : ∀ id, fund.Mirrored id → fund'.Mirrored id

theorem Improved.refl (orderly : fund.Orderly) : fund.Improved fund :=
  ⟨orderly, rfl, fun _ mirrored => mirrored⟩

theorem listed_found (id : UUID) :
    ((byRuleId fund.violations.listActive).lookup id).isSome ↔ fund.activeOf id ≠ [] := by
  rw [byRuleId_found, ne_eq, List.eq_nil_iff_forall_not_mem, not_forall_not]
  refine exists_congr fun v => ?_
  rw [mem_activeOf, Violations.mem_listActive]

section Persist

variable {isPassive : Bool} {now : Datetime} {state : PortfolioState}
  {existingByRuleId : List (UUID × Violation)} {rule : RuleDefinition} {result : EvaluationResult}

theorem persist_left (unwritten : ¬ Writes existingByRuleId rule result) :
    fund.persist isPassive now existingByRuleId rule result = fund := by
  unfold persist
  split
  · rename_i failed absent
    exact absurd (by simp [Writes, failed, absent]) unwritten
  · rename_i passed found
    exact absurd (by simp [Writes, passed, found]) unwritten
  · rfl

theorem activeOf_insert (fund : Fund) (record : Violation) (unresolved : record.resolvedAt = none)
    (id : UUID) :
    ({ fund with violations := fund.violations.insert record }).activeOf id =
      fund.activeOf id ++ if record.ruleId = id then
        [{ record with id := fund.violations.rows.length }] else [] := by
  unfold activeOf
  rw [Violations.active_insert record unresolved, List.filter_append]
  by_cases own : record.ruleId = id <;> simp [own]

/-- Resolving the one active violation of a rule. -/
theorem activeOf_resolve (single : ∀ id, (fund.activeOf id).length ≤ 1) {v : Violation}
    (active : v ∈ fund.violations.active) (id : UUID) :
    ({ fund with violations := fund.violations.resolve v.id now }).activeOf id =
      if v.ruleId = id then [] else fund.activeOf id := by
  have one : ∀ w ∈ fund.violations.active, w.id = v.id → w = v := by
    intro w listed same
    exact Numbered.unique (List.mem_of_mem_filter listed) (List.mem_of_mem_filter active) same
  unfold activeOf
  rw [Violations.active_resolve, List.filter_filter]
  split
  · rename_i own
    rw [List.filter_eq_nil_iff]
    intro w listed both
    simp only [Bool.and_eq_true, decide_eq_true_eq] at both
    have pair : w ∈ fund.activeOf id ∧ v ∈ fund.activeOf id :=
      ⟨mem_activeOf.mpr ⟨listed, both.1⟩, mem_activeOf.mpr ⟨active, own⟩⟩
    obtain ⟨only, shown⟩ := List.length_eq_one_iff.mp
      (le_antisymm (single id) (List.length_pos_of_mem pair.1))
    rw [shown, List.mem_singleton, List.mem_singleton] at pair
    exact both.2 (by rw [pair.1, pair.2])
  · rename_i other
    refine List.filter_congr fun w listed => ?_
    by_cases its : w.ruleId = id
    · have apart : w.id ≠ v.id := fun same => other (one w listed same ▸ its)
      simp [its, apart]
    · simp [its]

/-- The active violations of one rule are made what its evaluation asks for. -/
theorem Current.improved {violations : Violations}
    (current : fund.Current state existingByRuleId rule) (own : List Violation)
    (orderly : fund.Orderly)
    (evaluated : evaluate state rule = .ok result)
    (changed : ∀ id, ({ fund with violations }).activeOf id =
      if rule.id = id then own else fund.activeOf id)
    (right : own.length = if result.passed then 0 else 1) :
    fund.Improved { fund with violations } ∧ ({ fund with violations }).Mirrored rule.id := by
  obtain ⟨record, active, read⟩ := current.active
  have failing : fund.Fails rule.id ↔ result.passed = false :=
    fails_iff current.held active read current.built evaluated
  have mirrored : ({ fund with violations }).Mirrored rule.id := by
    refine ⟨fun fails => ?_, fun passes => ?_⟩
    · rw [changed, if_pos rfl, right, failing.mp fails]
      rfl
    · have passed : result.passed = true := by
        by_contra failed
        exact passes (failing.mpr (by simpa using failed))
      rw [changed, if_pos rfl, ← List.length_eq_zero_iff, right, if_pos passed]
  refine ⟨⟨⟨fun id => ?_, fun v member => ?_, fun _ => current.held⟩, rfl, fun id before => ?_⟩,
    mirrored⟩
  · rw [changed]
    split
    · rw [right]
      split <;> omega
    · exact orderly.single id
  · have inside : v ∈ ({ fund with violations }).activeOf v.ruleId := mem_activeOf.mpr ⟨member, rfl⟩
    rw [changed] at inside
    split at inside
    · rename_i same
      exact ⟨record, active, same ▸ definition_id read⟩
    · exact orderly.owned v (mem_activeOf.mp inside).1
  · by_cases same : rule.id = id
    · exact same ▸ mirrored
    · have unchanged := changed id
      rw [if_neg same] at unchanged
      exact ⟨fun fails => unchanged ▸ before.failing fails,
        fun passes => unchanged ▸ before.passing passes⟩

/-- A write on current readings brings its rule into line and leaves the others. -/
theorem persist_improved (orderly : fund.Orderly)
    (current : fund.Current state existingByRuleId rule)
    (evaluated : evaluate state rule = .ok result) (writes : Writes existingByRuleId rule result) :
    fund.Improved (fund.persist isPassive now existingByRuleId rule result) ∧
      (fund.persist isPassive now existingByRuleId rule result).Mirrored rule.id := by
  have listed : ((byRuleId fund.violations.listActive).lookup rule.id).isSome ↔
      fund.activeOf rule.id ≠ [] := listed_found rule.id
  rw [← current.listed] at listed
  unfold persist
  split
  · rename_i failed absent
    refine current.improved
      [{ breach isPassive now rule result with id := fund.violations.rows.length }] orderly
      evaluated (fun id => ?_) ?_
    · have nothing : fund.activeOf rule.id = [] := by
        simpa [absent] using listed
      rw [activeOf_insert fund _ rfl]
      change _ ++ (if rule.id = id then _ else _) = _
      split
      · rename_i same
        rw [← same, nothing]
        rfl
      · simp
    · simp [failed]
  · rename_i violation passed found
    obtain ⟨inside, its⟩ := byRuleId_member (current.listed ▸ found)
    rw [Violations.mem_listActive] at inside
    refine current.improved [] orderly evaluated (fun id => ?_) ?_
    · rw [activeOf_resolve orderly.single inside, its]
    · simp [passed]
  · rename_i neither both
    unfold Writes at writes
    cases passed : result.passed with
    | true =>
      rw [passed, eq_comm, Option.isSome_iff_exists] at writes
      obtain ⟨v, found⟩ := writes
      exact absurd found (both v passed)
    | false =>
      rw [passed, eq_comm, Option.isSome_eq_false_iff, Option.isNone_iff_eq_none] at writes
      exact absurd writes (neither passed)

end Persist

end Fund

/-! ## Handlers -/

/-- The readings of the handler are those of the fund now; the rules that it has
been through are in line, and so is each other one that it would leave as it is. -/
def Handler.Fresh (fund : Fund) (h : Handler) : Prop :=
  match h.stage with
  | .starting => True
  | .loading rules => fund.rules.listActive.mapM RuleRecord.definition = .ok rules
  | .describing rules rest described =>
    fund.rules.listActive.mapM RuleRecord.definition = .ok rules ∧ fund.positions ≠ [] ∧
      rest.foldl (fun d pos => setItem pos.instrumentId (fund.sources.info pos) d) described =
        fund.sources.infos fund.positions
  | .listing rules state =>
    fund.rules.listActive.mapM RuleRecord.definition = .ok rules ∧ fund.positions ≠ [] ∧
      fund.actual = .ok state
  | .evaluating rest state existingByRuleId =>
    ∃ done, fund.rules.listActive.mapM RuleRecord.definition = .ok (done ++ rest) ∧
      fund.positions ≠ [] ∧ fund.actual = .ok state ∧
      (∀ rule ∈ done, fund.Mirrored rule.id) ∧
      ∀ rule ∈ rest, ((existingByRuleId.lookup rule.id).isSome ↔ fund.Fails rule.id) →
        fund.Mirrored rule.id

/-- The call returns, the rules can be read and evaluated, and what is written is
written on current readings. -/
def Handler.Sound (fund : Fund) (h : Handler) (call : Call) : Prop :=
  call.ending = .returned ∧
  match h.stage with
  | .starting => ∃ rules, fund.rules.listActive.mapM RuleRecord.definition = .ok rules ∧ True
  | .evaluating (rule :: _) state existingByRuleId => ∃ result, evaluate state rule = .ok result ∧
      (Fund.Writes existingByRuleId rule result → fund.Current state existingByRuleId rule)
  | _ => True

namespace Fund

variable {fund fund' : Fund} {rules : List RuleDefinition}

theorem rule_read (read : fund.rules.listActive.mapM RuleRecord.definition = .ok rules)
    {record : RuleRecord} (active : record ∈ fund.rules.listActive) :
    ∃ rule ∈ rules, record.definition = .ok rule :=
  forall₂_mem (mapM_eq_ok.mp read) active

theorem record_read (read : fund.rules.listActive.mapM RuleRecord.definition = .ok rules)
    {rule : RuleDefinition} (member : rule ∈ rules) :
    ∃ record ∈ fund.rules.listActive, record.definition = .ok rule :=
  forall₂_mem (mapM_eq_ok.mp read).flip member

/-- With the rules in line, everything is: there are no violations of others. -/
theorem mirrors_of_rules (orderly : fund.Orderly)
    (read : fund.rules.listActive.mapM RuleRecord.definition = .ok rules)
    (done : ∀ rule ∈ rules, fund.Mirrored rule.id) : fund.Mirrors := by
  intro id
  by_cases its : ∃ rule ∈ rules, rule.id = id
  · obtain ⟨rule, member, rfl⟩ := its
    exact done rule member
  · have unread : ∀ record ∈ fund.rules.listActive, (Field.text record.id).asUuid ≠ .ok id := by
      intro record active same
      obtain ⟨rule, member, read'⟩ := rule_read read active
      rw [definition_id read', Except.ok.injEq] at same
      exact its ⟨rule, member, same⟩
    refine ⟨?_, fun _ => ?_⟩
    · rintro ⟨-, record, active, rule, state, result, read', same, -⟩
      exact absurd (same ▸ definition_id read') (unread record active)
    · rw [List.eq_nil_iff_forall_not_mem]
      intro v inside
      obtain ⟨active, same⟩ := mem_activeOf.mp inside
      obtain ⟨record, listed, its'⟩ := orderly.owned v active
      exact unread record listed (same ▸ its')

theorem mirrors_of_empty (orderly : fund.Orderly) (empty : fund.positions = []) :
    fund.Mirrors := by
  have nothing : fund.violations.active = [] := by
    by_contra some_active
    exact orderly.held some_active empty
  refine fun id => ⟨fun fails => absurd empty fails.1, fun _ => ?_⟩
  rw [activeOf, nothing, List.filter_nil]

/-- The cash can be read: only lookups of instruments fail. -/
theorem stateOf_ok (fund : Fund) (described : List (String × PositionInfo)) :
    ∃ state, fund.sources.stateOf fund.portfolioId described = .ok state := by
  have cash : ∃ amount, fund.sources.cash = .ok amount := by
    unfold Sources.cash sources
    cases fund.portfolio.balances with
    | none => exact ⟨0, rfl⟩
    | some balances => exact ⟨balances.sum, rfl⟩
  obtain ⟨amount, read⟩ := cash
  exact ⟨_, bind_eq_ok.mpr ⟨amount, read, rfl⟩⟩

theorem Mirrors.improved (mirrors : fund.Mirrors) (improved : fund.Improved fund') :
    fund'.Mirrors :=
  fun id => improved.kept id (mirrors id)

end Fund

namespace Handler

variable {fund fund' : Fund} {h h' : Handler} {call : Call}

/-- What other handlers do to the violations leaves a handler as good as it was. -/
theorem Fresh.improved (fresh : h.Fresh fund) (improved : fund.Improved fund') :
    h.Fresh fund' := by
  have kept := improved.kept
  rw [improved.same] at kept ⊢
  obtain ⟨isPassive, stage⟩ := h
  cases stage with
  | starting => trivial
  | loading rules => exact fresh
  | describing rules rest described => exact fresh
  | listing rules state => exact fresh
  | evaluating rest state existingByRuleId =>
    obtain ⟨done, read, held, built, before, after⟩ := fresh
    exact ⟨done, read, held, built, fun rule member => kept _ (before rule member),
      fun rule member agree => kept _ (after rule member agree)⟩

theorem advance_improved (orderly : fund.Orderly) (sound : h.Sound fund call) :
    fund.Improved (h.advance fund call).1 := by
  obtain ⟨isPassive, stage⟩ := h
  obtain ⟨returned, sound⟩ := sound
  unfold advance
  rw [returned]
  simp only
  cases stage with
  | starting =>
    simp only [next]
    split
    · exact .refl orderly
    · split <;> exact .refl orderly
  | loading rules =>
    simp only [next]
    split <;> exact .refl orderly
  | describing rules rest described =>
    cases rest with
    | cons pos rest => exact .refl orderly
    | nil =>
      simp only [next]
      split <;> exact .refl orderly
  | listing rules state => exact .refl orderly
  | evaluating rest state existingByRuleId =>
    cases rest with
    | nil => exact .refl orderly
    | cons rule rest =>
      obtain ⟨result, evaluated, current⟩ := sound
      simp only [next, evaluated]
      by_cases writes : Fund.Writes existingByRuleId rule result
      · exact (Fund.persist_improved orderly (current writes) evaluated writes).1
      · rw [Fund.persist_left writes]
        exact .refl orderly

/-- A rule that the handler leaves is in line, as is one that it writes. -/
theorem passed_rule {isPassive : Bool} {rule : RuleDefinition} {rest : List RuleDefinition}
    {state : PortfolioState} {existingByRuleId : List (UUID × Violation)}
    (fresh : Fresh fund ⟨isPassive, .evaluating (rule :: rest) state existingByRuleId⟩)
    (mirrored : fund.Mirrored rule.id) :
    Fresh fund ⟨isPassive, .evaluating rest state existingByRuleId⟩ := by
  obtain ⟨done, read, held, built, before, after⟩ := fresh
  refine ⟨done ++ [rule], by simpa using read, held, built, fun other member => ?_,
    fun other member => after other (List.mem_cons_of_mem _ member)⟩
  rcases List.mem_append.mp member with earlier | last
  · exact before other earlier
  · rw [List.mem_singleton] at last
    exact last ▸ mirrored

theorem unwritten_mirrored {isPassive : Bool} {rule : RuleDefinition} {rest : List RuleDefinition}
    {state : PortfolioState} {existingByRuleId : List (UUID × Violation)}
    {result : EvaluationResult}
    (fresh : Fresh fund ⟨isPassive, .evaluating (rule :: rest) state existingByRuleId⟩)
    (evaluated : evaluate state rule = .ok result)
    (unwritten : ¬ Fund.Writes existingByRuleId rule result) : fund.Mirrored rule.id := by
  obtain ⟨done, read, held, built, -, after⟩ := fresh
  obtain ⟨record, active, read'⟩ := Fund.record_read read
    (List.mem_append_right done List.mem_cons_self)
  refine after rule (by simp) ?_
  rw [Fund.fails_iff held active read' built evaluated]
  unfold Fund.Writes at unwritten
  cases passed : result.passed <;> simp_all

/-- A turn of a fresh handler leaves it fresh, or everything in line. -/
theorem advance_fresh (orderly : fund.Orderly) (sound : h.Sound fund call)
    (fresh : h.Fresh fund) :
    (∃ h', (h.advance fund call).2 = some h' ∧ h'.Fresh (h.advance fund call).1) ∨
      (h.advance fund call).1.Mirrors := by
  have improved := advance_improved orderly sound
  obtain ⟨isPassive, stage⟩ := h
  obtain ⟨returned, sound⟩ := sound
  unfold advance at improved ⊢
  rw [returned] at improved ⊢
  simp only at improved ⊢
  cases stage with
  | starting =>
    simp only [next]
    split
    · rename_i empty
      rw [List.isEmpty_iff] at empty
      exact .inr (Fund.mirrors_of_rules orderly (by rw [empty]; rfl) (by simp))
    · obtain ⟨rules, read, -⟩ := sound
      rw [read]
      exact .inl ⟨_, rfl, read⟩
  | loading rules =>
    simp only [next]
    split
    · rename_i empty
      exact .inr (Fund.mirrors_of_empty orderly (List.isEmpty_iff.mp empty))
    · rename_i held
      exact .inl ⟨_, rfl, fresh, fun empty => held (List.isEmpty_iff.mpr empty), rfl⟩
  | describing rules rest described =>
    obtain ⟨read, held, described_now⟩ := fresh
    cases rest with
    | cons pos rest => exact .inl ⟨_, rfl, read, held, described_now⟩
    | nil =>
      obtain ⟨state, built⟩ := fund.stateOf_ok described
      simp only [next, built]
      have complete : described = fund.sources.infos fund.positions := described_now
      rw [complete] at built
      exact .inl ⟨_, rfl, read, held, built⟩
  | listing rules state =>
    obtain ⟨read, held, built⟩ := fresh
    refine .inl ⟨_, rfl, [], read, held, built, by simp, fun rule _ agree => ?_⟩
    rw [Fund.listed_found] at agree
    refine ⟨fun fails => ?_, fun passes => ?_⟩
    · exact le_antisymm (orderly.single _) (List.length_pos_iff.mpr (agree.mpr fails))
    · by_contra some_active
      exact passes (agree.mp some_active)
  | evaluating rest state existingByRuleId =>
    cases rest with
    | nil =>
      obtain ⟨done, read, -, -, before, -⟩ := fresh
      rw [List.append_nil] at read
      exact .inr (Fund.mirrors_of_rules orderly read before)
    | cons rule rest =>
      obtain ⟨result, evaluated, current⟩ := sound
      simp only [next, evaluated] at improved ⊢
      refine .inl ⟨_, rfl, passed_rule (fresh.improved improved) ?_⟩
      by_cases writes : Fund.Writes existingByRuleId rule result
      · exact (Fund.persist_improved orderly (current writes) evaluated writes).2
      · rw [Fund.persist_left writes]
        exact unwritten_mirrored fresh evaluated writes

end Handler

end MiniHedge.Compliance
