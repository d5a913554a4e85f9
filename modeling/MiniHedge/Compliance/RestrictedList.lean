import MiniHedge.Compliance.Evaluation
import MiniHedge.Compliance.FailClosed

/-! The restricted list, before and after a trade.

A rule carries a list of its own, and a fund keeps one in a table. The evaluator
takes both, but neither of the builders reads the table into the state.
-/

set_option autoImplicit false

namespace MiniHedge.Compliance

open MiniHedge.Python MiniHedge.Library

/-! ## What is held -/

/-- There is a position in the instrument, in any spelling. -/
def Held (name : String) (positions : List Position) : Prop :=
  ∃ pos ∈ positions, pos.instrumentId.toUpper = name.toUpper ∧ pos.quantity ≠ 0

/-- No instrument of the table is held. -/
def Clear (table : List String) (positions : List Position) : Prop :=
  ∀ name ∈ table, ¬ Held name positions

/-- A position, of any quantity, is in an instrument of the list of a rule. -/
def Listed (inlined : List String) (positions : List Position) : Prop :=
  ∃ pos ∈ positions, pos.instrumentId.toUpper ∈ inlined

/-- The `violations` of `RestrictedListEvaluator.evaluate`. -/
def restrictedHeld (state : PortfolioState) (rule : RuleDefinition) : Except Exc (List String) := do
  let inlined ← restrictedInline rule
  let restrictedSet := inlined ++ state.restrictedInstruments.map String.toUpper
  return (state.positions.map (·.1)).filter fun iid => iid.toUpper ∈ restrictedSet

/-- The rule fails exactly where there are such positions. -/
theorem restrictedList_eq (state : PortfolioState) (rule : RuleDefinition) :
    restrictedList state rule =
      (restrictedHeld state rule).map fun violations => rule.result violations.isEmpty none none := by
  unfold restrictedList restrictedHeld
  cases restrictedInline rule with
  | error exc => rfl
  | ok inlined =>
    let restrictedSet := inlined ++ state.restrictedInstruments.map String.toUpper
    have same : (state.positions.filter fun entry => entry.1.toUpper ∈ restrictedSet).isEmpty =
        ((state.positions.map (·.1)).filter fun iid => iid.toUpper ∈ restrictedSet).isEmpty := by
      rw [List.filter_map, List.isEmpty_map]
      rfl
    exact congrArg Except.ok (congrArg (rule.result · none none) same)

/-- The law of the list for a fund with a rule: what the gate approves is clear,
what is held is reported, and a position of quantity zero is none. -/
structure Enforced (fund : Fund) (record : RuleRecord) (rule : RuleDefinition)
    (table : List String) (request : TradeCheckRequest) : Prop where
  gate : ∀ (sources : Sources) (records : List RuleRecord), record ∈ records →
    (∀ held, sources.positions = .ok held → held = fund.portfolio.positions) →
    ((sources.withRules records).checkTrade request).approved = true →
    Clear table (request.book fund.positions)
  monitor : ¬ Clear table fund.positions → ∀ violations isPassive now,
    ({ fund with violations }.evaluatePortfolio isPassive now).activeOf rule.id ≠ []
  zero : ∀ (sources : Sources) (state : PortfolioState),
    sources.actualState request.portfolioId fund.positions = .ok state ∨
      sources.hypotheticalState request fund.positions = .ok state →
    ∀ violations, restrictedHeld state rule = .ok violations →
    ∀ entry ∈ state.positions, entry.1 ∈ violations → entry.2.quantity ≠ 0

/-- The active rules can be read, and those that come before can be evaluated. -/
def Fund.Reaches (fund : Fund) (rule : RuleDefinition) : Prop :=
  ∃ before after, fund.rules.listActive.mapM RuleRecord.definition = .ok (before ++ rule :: after) ∧
    ∀ earlier ∈ before, ∃ reading, earlier.reading = .ok reading

/-- The list of the rule itself does the work of the table, and has no
instrument that stands at zero. -/
structure OnOwnList (fund : Fund) (rule : RuleDefinition) (table : List String)
    (request : TradeCheckRequest) : Prop where
  gate : Clear table (request.book fund.positions) ∨ ∀ inlined, restrictedInline rule = .ok inlined →
    Listed inlined (request.book fund.positions)
  monitor : Clear table fund.positions ∨ (fund.Reaches rule ∧
    ∃ inlined, restrictedInline rule = .ok inlined ∧ Listed inlined fund.positions)
  zero : ∀ inlined, restrictedInline rule = .ok inlined →
    ∀ pos ∈ fund.positions ++ request.book fund.positions,
      pos.quantity = 0 → pos.instrumentId.toUpper ∉ inlined

/-! ## The states -/

/-- The state has these positions, and nothing of the table. -/
structure Shows (state : PortfolioState) (positions : List Position) : Prop where
  positions : state.positions.map (fun entry => (entry.1, entry.2.quantity)) =
    positions.map fun pos => (pos.instrumentId, pos.quantity)
  table : state.restrictedInstruments = []

section States

variable {sources : Sources} {request : TradeCheckRequest} {state : PortfolioState}
  {rule : RuleDefinition}

theorem actual_shows {portfolioId : UUID} {held : Holdings}
    (built : sources.actualState portfolioId held.rows = .ok state) : Shows state held.rows := by
  obtain ⟨cash, read⟩ := stateOf_cash sources built
  unfold Sources.actualState at built
  rw [infos_distinct sources held.distinct] at built
  cases (stateOf_ok sources read portfolioId held.rows).symm.trans built
  exact ⟨by simp [Sources.entry, Sources.info, Function.comp_def], rfl⟩

theorem hypothetical_shows {held : Holdings}
    (built : sources.hypotheticalState request held.rows = .ok state) :
    Shows state (request.book held.rows) :=
  ⟨(built_positions built).1, (built_positions built).2⟩

variable {positions : List Position}

theorem Shows.entry (shows : Shows state positions) {name : String} {quantity : Decimal} :
    (∃ entry ∈ state.positions, entry.1 = name ∧ entry.2.quantity = quantity) ↔
      ∃ pos ∈ positions, pos.instrumentId = name ∧ pos.quantity = quantity := by
  have same : (name, quantity) ∈ state.positions.map (fun entry => (entry.1, entry.2.quantity)) ↔
      (name, quantity) ∈ positions.map fun pos => (pos.instrumentId, pos.quantity) := by
    rw [shows.positions]
  simpa [Prod.ext_iff] using same

theorem Shows.listed (shows : Shows state positions) (inlined : List String) :
    Listed inlined positions ↔ ∃ entry ∈ state.positions, entry.1.toUpper ∈ inlined := by
  constructor
  · rintro ⟨pos, member, listed⟩
    obtain ⟨entry, inside, same, -⟩ := shows.entry.mpr ⟨pos, member, rfl, rfl⟩
    exact ⟨entry, inside, same ▸ listed⟩
  · rintro ⟨entry, member, listed⟩
    obtain ⟨pos, inside, same, -⟩ := shows.entry.mp ⟨entry, member, rfl, rfl⟩
    exact ⟨pos, inside, same ▸ listed⟩

/-- A rule passes where its own list can be read and has nothing of the portfolio. -/
theorem passes_iff (restricted : rule.ruleType = .restrictedList) (shows : Shows state positions) :
    rule.Passes state ↔
      ∃ inlined, restrictedInline rule = .ok inlined ∧ ¬ Listed inlined positions := by
  unfold RuleDefinition.Passes RuleDefinition.reading
  rw [restricted]
  cases read : restrictedInline rule with
  | error exc => simp [Bind.bind, Except.bind]
  | ok inlined => simp [Bind.bind, Except.bind, Pure.pure, Except.pure, Reading.Passes,
      shows.listed, shows.table]

end States

/-! ## The gate -/

section Gate

variable {sources : Sources} {request : TradeCheckRequest} {records : List RuleRecord}
  {record : RuleRecord} {rule : RuleDefinition}

/-- An approved trade passes every active blocking rule. -/
theorem passes_of_approved
    (approved : ((sources.withRules records).checkTrade request).approved = true)
    (active : record ∈ records) (defined : record.definition = .ok rule)
    (blocking : rule.severity = .block) :
    ∃ held state, sources.positions = .ok held ∧
      sources.hypotheticalState request held.rows = .ok state ∧ rule.Passes state := by
  rcases evaluated_of_approved approved with empty |
    ⟨rules, held, state, results, read, stored, built, evaluated, approved⟩
  · exact absurd empty (List.ne_nil_of_mem active)
  · refine ⟨held, state, stored, built, ?_⟩
    obtain ⟨rule', member, same⟩ := forall₂_mem (mapM_eq_ok.mp read) active
    cases defined.symm.trans same
    obtain ⟨r, inside, reading, readable, judged⟩ := forall₂_mem (results_judged evaluated) member
    refine ⟨reading, readable, judged.passed.mp ?_⟩
    -- a blocking rule that fails is among the violations that refuse the trade
    by_contra failed
    have blocked : (results.filter fun r => !r.passed && r.severity = .block) ≠ [] :=
      List.ne_nil_of_mem (List.mem_filter.mpr ⟨inside, by simp [failed, judged.severity, blocking]⟩)
    simp only [Sources.decision, List.isEmpty_iff, List.map_eq_nil_iff] at approved
    exact blocked approved

/-- What the gate approves, with whatever other rules, is clear exactly if the
rule's own list stops the trade or nothing of the table is left. -/
theorem gate_iff (fund : Fund) (request : TradeCheckRequest) (table : List String)
    (defined : record.definition = .ok rule)
    (restricted : rule.ruleType = .restrictedList) (blocking : record.severity = "block") :
    (∀ (sources : Sources) (records : List RuleRecord), record ∈ records →
      (∀ held, sources.positions = .ok held → held = fund.portfolio.positions) →
      ((sources.withRules records).checkTrade request).approved = true →
      Clear table (request.book fund.positions)) ↔
    Clear table (request.book fund.positions) ∨ ∀ inlined, restrictedInline rule = .ok inlined →
      Listed inlined (request.book fund.positions) := by
  constructor
  · intro enforced
    rw [or_iff_not_imp_right]
    intro unlisted
    push Not at unlisted
    obtain ⟨inlined, read, unlisted⟩ := unlisted
    -- with no other rule the list alone decides
    have readable : ∃ state, fund.sources.hypotheticalState request
        fund.portfolio.positions.rows = .ok state :=
      Fund.stateOf_ok { fund with portfolioId := request.portfolioId } _
    obtain ⟨state, built⟩ := readable
    have passes := (passes_iff restricted (hypothetical_shows built)).mpr ⟨inlined, read, unlisted⟩
    refine enforced fund.sources [record] (by simp) (by rintro held ⟨⟩; rfl) ?_
    refine (approved_iff (by simpa using blocking)).mpr (.inr ⟨[rule], _, _,
      mapM_eq_ok.mpr (.cons defined .nil), rfl, built, ?_⟩)
    intro rule' only
    cases List.mem_singleton.mp only
    exact passes
  · rintro (clear | listed) sources records active same approved
    · exact clear
    · obtain ⟨held, state, stored, built, passes⟩ :=
        passes_of_approved approved active defined (definition_block defined blocking)
      cases same held stored
      obtain ⟨inlined, read, unlisted⟩ := (passes_iff restricted (hypothetical_shows built)).mp passes
      exact absurd (listed inlined read) unlisted

end Gate

/-! ## The monitor -/

theorem evaluatePortfolio_read (fund : Fund) {rules : List RuleDefinition} {state : PortfolioState}
    (isPassive : Bool) (now : Datetime)
    (read : fund.rules.listActive.mapM RuleRecord.definition = .ok rules)
    (held : fund.positions ≠ []) (built : fund.actual = .ok state) :
    fund.evaluatePortfolio isPassive now =
      Fund.evaluateRules isPassive now state (byRuleId fund.violations.listActive) rules fund := by
  unfold Fund.evaluatePortfolio
  rw [read, built]
  simp [held]

section Monitor

variable {fund : Fund} {record : RuleRecord} {rule : RuleDefinition} {rules : List RuleDefinition}

theorem ids_parsed {records : List RuleRecord}
    (read : List.Forall₂ (fun record rule => record.definition = .ok rule) records rules) :
    records.map (fun r => (Field.text r.id).asUuid) = (rules.map (·.id)).map Except.ok := by
  induction read with
  | nil => rfl
  | cons first _ ih => simp [definition_id first, ih]

theorem ids_distinct (read : fund.rules.listActive.mapM RuleRecord.definition = .ok rules) :
    (rules.map (·.id)).Nodup := by
  have distinct : (fund.rules.listActive.map fun r => (Field.text r.id).asUuid).Nodup :=
    fund.rules.distinct.sublist (List.filter_sublist.map _)
  rw [ids_parsed (mapM_eq_ok.mp read)] at distinct
  exact distinct.of_map _

theorem apart {before after : List RuleDefinition}
    (read : fund.rules.listActive.mapM RuleRecord.definition = .ok (before ++ rule :: after)) :
    (∀ other ∈ before, other.id ≠ rule.id) ∧ ∀ other ∈ after, other.id ≠ rule.id := by
  have distinct := ids_distinct read
  rw [List.map_append, List.map_cons, List.nodup_append, List.nodup_cons] at distinct
  obtain ⟨-, ⟨behind, -⟩, ahead⟩ := distinct
  refine ⟨fun other inside same => ?_, fun other inside same => ?_⟩
  · exact ahead _ (List.mem_map_of_mem inside) _ List.mem_cons_self same
  · exact behind (same ▸ List.mem_map_of_mem inside)

variable {isPassive : Bool} {now : Datetime} {state : PortfolioState}
  {before after : List RuleDefinition}

/-- With the rules before it evaluated, a rule that fails has a violation. -/
theorem evaluateRules_reported {result : EvaluationResult}
    (reached : ∀ earlier ∈ before, ∃ result, evaluate state earlier = .ok result)
    (evaluated : evaluate state rule = .ok result) (failed : result.passed = false)
    (ahead : ∀ other ∈ before, other.id ≠ rule.id) (behind : ∀ other ∈ after, other.id ≠ rule.id) :
    (Fund.evaluateRules isPassive now state (byRuleId fund.violations.listActive)
      (before ++ rule :: after) fund).activeOf rule.id ≠ [] := by
  rw [Fund.evaluateRules_append reached]
  obtain ⟨holds, same⟩ := Fund.evaluateRules_others isPassive now state
    fund.holds_listed ahead
  simp only [Fund.evaluateRules, evaluated]
  rw [(Fund.evaluateRules_others isPassive now state (holds.persist rule result) behind).2]
  refine (Fund.activeOf_persist_own ?_ result).1 failed
  rw [same]
  exact Fund.listed_found rule.id

/-- A rule that is not reached, or passes, gets no violation. -/
theorem evaluateRules_unreported
    (passes : (∀ earlier ∈ before, ∃ result, evaluate state earlier = .ok result) →
      ∀ result, evaluate state rule = .ok result → result.passed = true)
    (none_active : fund.activeOf rule.id = [])
    (ahead : ∀ other ∈ before, other.id ≠ rule.id) (behind : ∀ other ∈ after, other.id ≠ rule.id) :
    (Fund.evaluateRules isPassive now state (byRuleId fund.violations.listActive)
      (before ++ rule :: after) fund).activeOf rule.id = [] := by
  obtain ⟨holds, same⟩ := Fund.evaluateRules_others isPassive now state
    fund.holds_listed ahead
  by_cases reached : ∀ earlier ∈ before, ∃ result, evaluate state earlier = .ok result
  · rw [Fund.evaluateRules_append reached]
    unfold Fund.evaluateRules
    split
    · rw [same, none_active]
    · rename_i result evaluated
      rw [(Fund.evaluateRules_others isPassive now state (holds.persist rule result) behind).2]
      refine (Fund.activeOf_persist_own ?_ result).2 (passes reached result evaluated) ?_
      · rw [same]
        exact Fund.listed_found rule.id
      · rw [same, none_active]
  · push Not at reached
    obtain ⟨earlier, member, raises⟩ := reached
    cases evaluated : evaluate state earlier with
    | ok result => exact absurd evaluated (raises result)
    | error exc =>
      rw [Fund.evaluateRules_stopped member evaluated, same, none_active]

/-- What is found of a rule that is evaluated: its own list can be read. -/
theorem evaluated_iff {result : EvaluationResult} (restricted : rule.ruleType = .restrictedList)
    (built : fund.actual = .ok state) (evaluated : evaluate state rule = .ok result) :
    result.passed = false ↔
      ∃ inlined, restrictedInline rule = .ok inlined ∧ Listed inlined fund.positions := by
  obtain ⟨reading, read, judged⟩ := reading_of_evaluate state rule evaluated
  have passes : result.passed = true ↔ rule.Passes state := by
    rw [judged.passed]
    refine ⟨fun holds => ⟨reading, read, holds⟩, ?_⟩
    rintro ⟨reading', read', holds⟩
    cases read.symm.trans read'
    exact holds
  have inline : ∃ inlined, restrictedInline rule = .ok inlined := by
    unfold RuleDefinition.reading at read
    rw [restricted] at read
    obtain ⟨inlined, readable, -⟩ := bind_eq_ok.mp read
    exact ⟨inlined, readable⟩
  obtain ⟨inlined, readable⟩ := inline
  have shows : Shows state fund.positions := actual_shows built
  rw [← Bool.not_eq_true, passes, passes_iff restricted shows, readable]
  simp

/-- What is held is reported, whatever is on record, exactly if nothing of the
table is held or the rule is reached and its own list has a position. -/
theorem monitor_iff (table : List String) (active : record ∈ fund.rules.listActive)
    (defined : record.definition = .ok rule) (restricted : rule.ruleType = .restrictedList) :
    (¬ Clear table fund.positions → ∀ violations isPassive now,
      ({ fund with violations }.evaluatePortfolio isPassive now).activeOf rule.id ≠ []) ↔
    Clear table fund.positions ∨ (fund.Reaches rule ∧
      ∃ inlined, restrictedInline rule = .ok inlined ∧ Listed inlined fund.positions) := by
  rw [or_iff_not_imp_left]
  refine imp_congr_right fun kept => ?_
  have held : fund.positions ≠ [] := by
    intro empty
    rw [empty] at kept
    exact kept fun name _ found => by simp [Held] at found
  obtain ⟨state, built⟩ := fund.stateOf_ok (fund.sources.infos fund.positions)
  have built : fund.actual = .ok state := built
  constructor
  · intro reported
    by_contra unmet
    -- with nothing on record, what is reported is reported by this evaluation
    let unrecorded : Fund := { fund with violations := ⟨[], rfl⟩ }
    have found : (unrecorded.evaluatePortfolio false 0).activeOf rule.id ≠ [] := reported _ false 0
    apply found
    cases read : fund.rules.listActive.mapM RuleRecord.definition with
    | error exc =>
      unfold Fund.evaluatePortfolio
      rw [show unrecorded.rules.listActive.mapM RuleRecord.definition = .error exc from read]
      rfl
    | ok rules =>
      obtain ⟨rule', member, same⟩ := Fund.rule_read read active
      cases defined.symm.trans same
      obtain ⟨before, after, rfl⟩ := List.append_of_mem member
      obtain ⟨ahead, behind⟩ := apart read
      rw [evaluatePortfolio_read unrecorded false 0 read held built]
      refine evaluateRules_unreported (fun reached result evaluated => ?_) rfl ahead behind
      by_contra failed
      rw [Bool.not_eq_true] at failed
      refine unmet ⟨⟨before, after, read, fun earlier inside => ?_⟩,
        (evaluated_iff restricted built evaluated).mp failed⟩
      obtain ⟨_, ran⟩ := reached earlier inside
      obtain ⟨reading, readable, -⟩ := reading_of_evaluate state earlier ran
      exact ⟨reading, readable⟩
  · rintro ⟨⟨before, after, read, reached⟩, listed⟩ violations isPassive now
    obtain ⟨ahead, behind⟩ := apart read
    have ⟨inlined, readable, _⟩ := listed
    have reading : rule.reading = .ok (.restricted inlined) := by
      unfold RuleDefinition.reading
      rw [restricted, readable]
      rfl
    obtain ⟨result, evaluated, -⟩ := evaluate_ok state rule reading
    rw [evaluatePortfolio_read { fund with violations } isPassive now read held built]
    refine evaluateRules_reported (fun earlier inside => ?_) evaluated
      ((evaluated_iff restricted built evaluated).mpr listed) ahead behind
    obtain ⟨_, readable⟩ := reached earlier inside
    obtain ⟨result, ran, -⟩ := evaluate_ok state earlier readable
    exact ⟨result, ran⟩

end Monitor

/-! ## Positions of quantity zero -/

section Zero

variable {state : PortfolioState} {positions : List Position} {rule : RuleDefinition}

/-- The positions that are named are those of the rule's own list. -/
theorem zero_iff_of_shows (shows : Shows state positions) {inlined : List String}
    (read : restrictedInline rule = .ok inlined) :
    (∀ violations, restrictedHeld state rule = .ok violations →
      ∀ entry ∈ state.positions, entry.1 ∈ violations → entry.2.quantity ≠ 0) ↔
    ∀ pos ∈ positions, pos.quantity = 0 → pos.instrumentId.toUpper ∉ inlined := by
  have named : restrictedHeld state rule =
      .ok ((state.positions.map (·.1)).filter fun iid => iid.toUpper ∈ inlined) := by
    unfold restrictedHeld
    rw [read, shows.table]
    simp [Bind.bind, Except.bind, Pure.pure, Except.pure]
  constructor
  · intro nonzero pos member zero listed
    obtain ⟨entry, inside, same, quantity⟩ := shows.entry.mpr ⟨pos, member, rfl, rfl⟩
    refine nonzero _ named entry inside ?_ (quantity.trans zero)
    rw [List.mem_filter]
    exact ⟨List.mem_map_of_mem inside, by simpa [same] using listed⟩
  · intro unlisted violations found entry inside violated zero
    cases named.symm.trans found
    obtain ⟨pos, member, same, quantity⟩ := shows.entry.mp ⟨entry, inside, rfl, rfl⟩
    have listed : entry.1.toUpper ∈ inlined := by simpa using (List.mem_filter.mp violated).2
    exact unlisted pos member (quantity.trans zero) (same ▸ listed)

theorem zero_iff (fund : Fund) (request : TradeCheckRequest) (rule : RuleDefinition) :
    (∀ (sources : Sources) (state : PortfolioState),
      sources.actualState request.portfolioId fund.positions = .ok state ∨
        sources.hypotheticalState request fund.positions = .ok state →
      ∀ violations, restrictedHeld state rule = .ok violations →
      ∀ entry ∈ state.positions, entry.1 ∈ violations → entry.2.quantity ≠ 0) ↔
    ∀ inlined, restrictedInline rule = .ok inlined →
      ∀ pos ∈ fund.positions ++ request.book fund.positions,
        pos.quantity = 0 → pos.instrumentId.toUpper ∉ inlined := by
  constructor
  · intro nonzero inlined read pos member
    let own : Fund := { fund with portfolioId := request.portfolioId }
    rcases List.mem_append.mp member with held | left
    · obtain ⟨state, built⟩ := own.stateOf_ok (own.sources.infos own.positions)
      have shows : Shows state fund.positions := actual_shows built
      exact (zero_iff_of_shows shows read).mp (nonzero own.sources state (.inl built)) pos held
    · have readable : ∃ state, own.sources.hypotheticalState request
          fund.portfolio.positions.rows = .ok state := own.stateOf_ok _
      obtain ⟨state, built⟩ := readable
      exact (zero_iff_of_shows (hypothetical_shows built) read).mp
        (nonzero own.sources state (.inr built)) pos left
  · intro unlisted sources state built violations found
    obtain ⟨inlined, read, -⟩ := bind_eq_ok.mp found
    have apart := unlisted inlined read
    rcases built with actual | hypothetical
    · have shows : Shows state fund.positions := actual_shows actual
      exact (zero_iff_of_shows shows read).mpr
        (fun pos member => apart pos (List.mem_append_left _ member)) violations found
    · have shows : Shows state (request.book fund.positions) := hypothetical_shows hypothetical
      exact (zero_iff_of_shows shows read).mpr
        (fun pos member => apart pos (List.mem_append_right _ member)) violations found

end Zero

/-- The restricted list of a fund is enforced exactly where the list of the rule
itself does it. -/
theorem enforced_iff {fund : Fund} {record : RuleRecord} {rule : RuleDefinition}
    (table : List String) (request : TradeCheckRequest) (active : record ∈ fund.rules.listActive)
    (defined : record.definition = .ok rule) (restricted : rule.ruleType = .restrictedList)
    (blocking : record.severity = "block") :
    Enforced fund record rule table request ↔ OnOwnList fund rule table request := by
  have gate := gate_iff fund request table defined restricted blocking
  have monitor := monitor_iff table active defined restricted
  have zero := zero_iff fund request rule
  constructor
  · intro enforced
    exact ⟨gate.mp enforced.gate, monitor.mp enforced.monitor, zero.mp enforced.zero⟩
  · intro listed
    exact ⟨gate.mpr listed.gate, monitor.mpr listed.monitor, zero.mpr listed.zero⟩

/-! ## A list of the rule, and one of the table -/

def restrictedRecord (items : List (Option String)) : RuleRecord where
  id := "00000000-0000-0000-0000-000000000001"
  name := "Restricted list"
  ruleType := "restricted_list"
  severity := "block"
  parameters := [("restricted_instruments", .list items "")]
  isActive := true
  gracePeriodHours := none

def restrictedRule (items : List (Option String)) : RuleDefinition where
  id := .ofNat 1
  name := "Restricted list"
  ruleType := .restrictedList
  severity := .block
  parameters := [("restricted_instruments", .list items "")]
  gracePeriodHours := none

/-- Ten shares are held before the purchase of six. -/
def tenHeld (items : List (Option String)) : Fund where
  portfolioId := .ofNat 1
  rules := ⟨[restrictedRecord items], by simp⟩
  portfolio := ⟨⟨[⟨"AAPL", 10, 1000⟩], by simp⟩, none, none⟩
  violations := ⟨[], rfl⟩

theorem restrictedRecord_definition (items : List (Option String)) :
    (restrictedRecord items).definition = .ok (restrictedRule items) := by
  have parsed : (Field.text "00000000-0000-0000-0000-000000000001").asUuid =
      .ok ⟨1, by decide⟩ := by decide +kernel
  exact bind_eq_ok.mpr ⟨_, parsed, rfl⟩

theorem ownList_enforced :
    Enforced (tenHeld [some "aapl"]) (restrictedRecord [some "aapl"]) (restrictedRule [some "aapl"])
      ["AAPL"] purchase := by
  have inlined : restrictedInline (restrictedRule [some "aapl"]) = .ok ["AAPL"] := by decide +kernel
  have defined := restrictedRecord_definition [some "aapl"]
  refine (enforced_iff ["AAPL"] purchase (by simp [tenHeld, Rules.listActive, restrictedRecord])
    defined rfl rfl).mpr ⟨.inr ?_, .inr ⟨⟨[], [], ?_, by simp⟩, _, inlined, ?_⟩, ?_⟩
  · intro names read
    cases inlined.symm.trans read
    exact ⟨⟨"AAPL", 16, 1060⟩, by decide +kernel, by decide +kernel⟩
  · exact mapM_eq_ok.mpr (.cons defined .nil)
  · exact ⟨⟨"AAPL", 10, 1000⟩, by decide +kernel, by decide +kernel⟩
  · intro names read
    cases inlined.symm.trans read
    decide +kernel

/-- A purchase of what only the table restricts is approved, and what is held of
it is not reported. -/
theorem table_not_enforced :
    ¬ Enforced (tenHeld []) (restrictedRecord []) (restrictedRule []) ["AAPL"] purchase ∧
      ((tenHeld []).sources.checkTrade purchase).approved = true ∧
      ((tenHeld []).evaluatePortfolio false 0).violations.rows = [] := by
  have approved : ((tenHeld []).sources.checkTrade purchase).approved = true := by decide +kernel
  refine ⟨fun enforced => ?_, approved, by decide +kernel⟩
  have clear := enforced.gate (tenHeld []).sources [restrictedRecord []] (by simp)
    (by rintro held ⟨⟩; rfl) approved
  exact clear "AAPL" (by simp) ⟨⟨"AAPL", 16, 1060⟩, by decide +kernel, rfl, by decide +kernel⟩

end MiniHedge.Compliance
