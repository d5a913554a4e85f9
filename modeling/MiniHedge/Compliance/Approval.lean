import MiniHedge.Compliance.Measures
import MiniHedge.Library.Groups
import MiniHedge.Library.Raising

/-! Approval before a trade and compliance after it.

The gate expects the position at the price of the trade and the cash from before
it. Booked, the position has its new quantity and the market value of the last
price, and the cash has moved. The gate approves when every rule can be read and
passes in the state that is expected.
-/

set_option autoImplicit false

namespace MiniHedge.Compliance

open MiniHedge.Python MiniHedge.Library

/-- The parameters can be read, and the state passes. -/
def RuleDefinition.Passes (rule : RuleDefinition) (state : PortfolioState) : Prop :=
  ∃ reading, rule.reading = .ok reading ∧ reading.Passes state

theorem definition_block {record : RuleRecord} {rule : RuleDefinition}
    (read : record.definition = .ok rule) (blocking : record.severity = "block") :
    rule.severity = .block := by
  unfold RuleRecord.definition at read
  obtain ⟨id, -, read⟩ := bind_eq_ok.mp read
  obtain ⟨ruleType, -, read⟩ := bind_eq_ok.mp read
  obtain ⟨severity, named, read⟩ := bind_eq_ok.mp read
  cases read
  rw [blocking] at named
  cases named
  rfl

theorem definitions_block {records : List RuleRecord} {rules : List RuleDefinition}
    (read : records.mapM RuleRecord.definition = .ok rules)
    (blocking : ∀ record ∈ records, record.severity = "block") :
    ∀ rule ∈ rules, rule.severity = .block := by
  have each := mapM_eq_ok.mp read
  clear read
  induction each with
  | nil => simp
  | cons first _ ih =>
    intro rule member
    rcases List.mem_cons.mp member with rfl | later
    · exact definition_block first (blocking _ (by simp))
    · exact ih (fun record inside => blocking record (by simp [inside])) rule later

theorem decision_approved {results : List EvaluationResult}
    (blocking : ∀ r ∈ results, r.severity = .block) :
    (Sources.decision results).approved = true ↔ ∀ r ∈ results, r.passed = true := by
  unfold Sources.decision
  rw [List.isEmpty_iff, List.map_eq_nil_iff, List.filter_eq_nil_iff]
  refine forall₂_congr fun r member => ?_
  simp [blocking r member]

/-- Rules that can be evaluated are read, and their results are their readings'. -/
theorem results_judged {state : PortfolioState} {rules : List RuleDefinition}
    {results : List EvaluationResult} (evaluated : rules.mapM (evaluate state) = .ok results) :
    List.Forall₂ (fun rule r => ∃ reading, rule.reading = .ok reading ∧
      rule.Judged r (reading.Passes state)) rules results :=
  (mapM_eq_ok.mp evaluated).imp fun _ _ ran => reading_of_evaluate state _ ran

theorem results_passed {state : PortfolioState} {rules : List RuleDefinition}
    {results : List EvaluationResult} (evaluated : rules.mapM (evaluate state) = .ok results) :
    (∀ r ∈ results, r.passed = true) ↔ ∀ rule ∈ rules, rule.Passes state := by
  have each := results_judged evaluated
  clear evaluated
  induction each with
  | nil => simp
  | cons first _ ih =>
    obtain ⟨reading, read, judged⟩ := first
    simp only [List.forall_mem_cons, ih, judged.passed]
    refine and_congr_left' ⟨fun passes => ⟨reading, read, passes⟩, ?_⟩
    rintro ⟨reading', read', passes⟩
    rw [read] at read'
    cases read'
    exact passes

theorem results_blocking {state : PortfolioState} {rules : List RuleDefinition}
    {results : List EvaluationResult} (evaluated : rules.mapM (evaluate state) = .ok results)
    (blocking : ∀ rule ∈ rules, rule.severity = .block) :
    ∀ r ∈ results, r.severity = .block := by
  have each := results_judged evaluated
  clear evaluated
  induction each with
  | nil => simp
  | cons first _ ih =>
    obtain ⟨reading, -, judged⟩ := first
    simp only [List.forall_mem_cons]
    exact ⟨judged.severity.trans (blocking _ (by simp)),
      ih fun rule inside => blocking rule (by simp [inside])⟩

theorem evaluate_all {state : PortfolioState} {rules : List RuleDefinition}
    (passes : ∀ rule ∈ rules, rule.Passes state) :
    ∃ results, rules.mapM (evaluate state) = .ok results := by
  refine exists_mapM fun rule inside => ?_
  obtain ⟨reading, read, -⟩ := passes rule inside
  obtain ⟨r, ran, -⟩ := evaluate_ok state rule read
  exact ⟨r, ran⟩

def Sources.withRules (sources : Sources) (records : List RuleRecord) : Sources :=
  { sources with listActive := .ok records }

/-- A trade is approved unread, or after every rule has been evaluated. -/
theorem evaluated_of_approved {sources : Sources} {request : TradeCheckRequest}
    {records : List RuleRecord}
    (approved : ((sources.withRules records).checkTrade request).approved = true) :
    records = [] ∨ ∃ rules holdings state results, records.mapM RuleRecord.definition = .ok rules ∧
      sources.positions = .ok holdings ∧
      sources.hypotheticalState request holdings.rows = .ok state ∧
      rules.mapM (evaluate state) = .ok results ∧ (Sources.decision results).approved = true := by
  unfold Sources.checkTrade at approved
  split at approved
  · rename_i decision ran
    unfold Sources.evaluateRules at ran
    obtain ⟨_, loaded, ran⟩ := bind_eq_ok.mp ran
    cases loaded
    split at ran
    · rename_i empty
      exact .inl (List.isEmpty_iff.mp empty)
    · obtain ⟨rules, defined, ran⟩ := bind_eq_ok.mp ran
      obtain ⟨holdings, held, ran⟩ := bind_eq_ok.mp ran
      obtain ⟨state, built, ran⟩ := bind_eq_ok.mp ran
      obtain ⟨results, evaluated, ran⟩ := bind_eq_ok.mp ran
      cases ran
      exact .inr ⟨rules, holdings, state, results, defined, held, built, evaluated, approved⟩
  -- a check that raises is refused
  · cases approved

/-- With blocking rules alone, a trade is approved exactly if there are none or
everything can be read and every rule passes in the state that is expected. -/
theorem approved_iff {sources : Sources} {request : TradeCheckRequest} {records : List RuleRecord}
    (blocking : ∀ record ∈ records, record.severity = "block") :
    ((sources.withRules records).checkTrade request).approved = true ↔
      records = [] ∨ ∃ rules holdings state, records.mapM RuleRecord.definition = .ok rules ∧
        sources.positions = .ok holdings ∧
        sources.hypotheticalState request holdings.rows = .ok state ∧
        ∀ rule ∈ rules, rule.Passes state := by
  have same : ∀ rows, (sources.withRules records).hypotheticalState request rows =
      sources.hypotheticalState request rows := fun rows => rfl
  constructor
  · intro approved
    rcases evaluated_of_approved approved with empty |
      ⟨rules, holdings, state, results, defined, held, built, evaluated, approved⟩
    · exact .inl empty
    · refine .inr ⟨rules, holdings, state, defined, held, built, ?_⟩
      apply (results_passed evaluated).mp
      apply (decision_approved _).mp approved
      exact results_blocking evaluated (definitions_block defined blocking)
  · rintro (rfl | ⟨rules, holdings, state, defined, held, built, passes⟩)
    · rfl
    · obtain ⟨results, evaluated⟩ := evaluate_all passes
      cases records with
      | nil => rfl
      | cons first rest =>
        have ran : (sources.withRules (first :: rest)).evaluateRules request =
            .ok (Sources.decision results) := by
          unfold Sources.evaluateRules
          refine bind_eq_ok.mpr ⟨first :: rest, rfl, ?_⟩
          rw [if_neg (by simp)]
          refine bind_eq_ok.mpr ⟨rules, defined, bind_eq_ok.mpr ⟨holdings, held,
            bind_eq_ok.mpr ⟨state, (same _).trans built, bind_eq_ok.mpr ⟨results, evaluated, rfl⟩⟩⟩⟩
        unfold Sources.checkTrade
        rw [ran]
        apply (decision_approved _).mpr ((results_passed evaluated).mpr passes)
        exact results_blocking evaluated (definitions_block defined blocking)

/-! ## Booking -/

namespace TradeCheckRequest

variable (request : TradeCheckRequest)

/-- The cash that the trade takes. -/
def cost : Decimal := request.sign * request.tradeValue

/-- The positions as the trade makes them at its price. -/
def book : List Position → List Position
  | [] => [⟨request.instrument, request.sign * request.quantity, request.cost⟩]
  | pos :: rest =>
    if pos.instrumentId = request.instrument then
      { pos with
        quantity := pos.quantity + request.sign * request.quantity
        marketValue := pos.marketValue + request.cost } :: rest
    else pos :: book rest

/-- The rows once the trade is booked: the upsert preserves the market value, and a new
row has none until the next price. -/
def upsert : List Position → List Position
  | [] => [⟨request.instrument, request.sign * request.quantity, 0⟩]
  | pos :: rest =>
    if pos.instrumentId = request.instrument then
      { pos with quantity := pos.quantity + request.sign * request.quantity } :: rest
    else pos :: upsert rest

/-- The gate expects the same instruments and quantities. -/
theorem book_quantities (positions : List Position) :
    (request.book positions).map (fun pos => (pos.instrumentId, pos.quantity)) =
      (request.upsert positions).map fun pos => (pos.instrumentId, pos.quantity) := by
  induction positions with
  | nil => rfl
  | cons pos rest ih =>
    unfold book upsert
    split
    · rfl
    · rw [List.map_cons, List.map_cons, ih]

theorem mem_upsert {positions : List Position} {id : String}
    (member : id ∈ (request.upsert positions).map (·.instrumentId)) :
    id = request.instrument ∨ id ∈ positions.map (·.instrumentId) := by
  induction positions with
  | nil => exact .inl (by simpa [upsert] using member)
  | cons pos rest ih =>
    unfold upsert at member
    split at member
    · exact .inr (by simpa using member)
    · rcases List.mem_cons.mp member with own | later
      · exact .inr (List.mem_cons.mpr (.inl own))
      · exact (ih later).imp_right (List.mem_cons_of_mem _)

theorem upsert_distinct {positions : List Position}
    (distinct : (positions.map (·.instrumentId)).Nodup) :
    ((request.upsert positions).map (·.instrumentId)).Nodup := by
  induction positions with
  | nil => simp [upsert]
  | cons pos rest ih =>
    rw [List.map_cons, List.nodup_cons] at distinct
    unfold upsert
    split
    · exact List.nodup_cons.mpr distinct
    · rename_i other
      refine List.nodup_cons.mpr ⟨fun inside => ?_, ih distinct.2⟩
      exact (request.mem_upsert inside).elim other distinct.1

theorem upsert_nonempty (positions : List Position) : request.upsert positions ≠ [] := by
  cases positions with
  | nil => exact List.cons_ne_nil _ _
  | cons pos rest =>
    unfold upsert
    split <;> exact List.cons_ne_nil _ _

end TradeCheckRequest

/-- After the trade: the position is booked and, where cash is kept, the cash has
moved by the value of the trade; nothing else has changed. -/
structure Booked (request : TradeCheckRequest) (before after : Sources) : Prop where
  rules : after.listActive = before.listActive
  metadata : after.getByTicker = before.getByTicker
  positions : ∀ held, before.positions = .ok held →
    ∃ booked, after.positions = .ok booked ∧ booked.rows.Perm (request.upsert held.rows)
  configured : after.balances.isSome = before.balances.isSome
  cash : before.balances.isSome → ∀ cash, before.cash = .ok cash →
    after.cash = .ok (cash - request.cost)

/-- The rules that are active find nothing in the portfolio as it is. -/
def Sources.Compliant (sources : Sources) (portfolioId : UUID) : Prop :=
  ∃ results, sources.actualResults portfolioId = .ok results ∧ ∀ r ∈ results, r.passed = true

/-- Whatever blocking rules are active: what they approve complies with them. -/
def Sources.ApprovalHolds (sources : Sources) (request : TradeCheckRequest) : Prop :=
  ∀ records after, (∀ record ∈ records, record.severity = "block") →
    Booked request (sources.withRules records) after →
    ((sources.withRules records).checkTrade request).approved = true →
    after.Compliant request.portfolioId

/-- The cash that leaves what the NAV counts. -/
def Sources.paid (sources : Sources) (request : TradeCheckRequest) : Decimal :=
  if sources.balances.isSome then request.cost else 0

def grossOf (positions : List Position) : Decimal := (positions.map fun pos => |pos.marketValue|).sum

/-- There is no NAV in the one state; or there is one in the other, and no measure is a
smaller share of it. -/
def SharesKept (state state' : PortfolioState) : Prop :=
  state.nav ≤ 0 ∨ (0 < state'.nav ∧
    ∀ m : Measure, m.amount state.infos / state.nav ≤ m.amount state'.infos / state'.nav)

/-! ## The states -/

section States

variable (sources : Sources) (request : TradeCheckRequest)

def Sources.entry (pos : Position) : String × PositionInfo := (pos.instrumentId, sources.info pos)

theorem infos_distinct {positions : List Position}
    (distinct : (positions.map (·.instrumentId)).Nodup) :
    sources.infos positions = positions.map sources.entry :=
  foldl_setItem Position.instrumentId sources.info distinct

/-- The gate evaluates the positions of the booked portfolio. -/
theorem hypothetical_positions {positions : List Position}
    (distinct : (positions.map (·.instrumentId)).Nodup) :
    setItem request.instrument (sources.traded request
        ((sources.infos positions).lookup request.instrument)) (sources.infos positions) =
      (request.book positions).map sources.entry := by
  rw [infos_distinct sources distinct]
  induction positions with
  | nil => rfl
  | cons pos rest ih =>
    rw [List.map_cons, List.nodup_cons] at distinct
    rw [List.map_cons, Sources.entry, lookup_cons_ite, setItem]
    unfold TradeCheckRequest.book
    by_cases own : pos.instrumentId = request.instrument
    · rw [if_pos own.symm, if_pos own, if_pos own]
      by_cases buy : request.isBuy = true
      · simp [Sources.entry, Sources.traded, Sources.info, TradeCheckRequest.cost,
          TradeCheckRequest.sign, buy, own]
      · simp [Sources.entry, Sources.traded, Sources.info, TradeCheckRequest.cost,
          TradeCheckRequest.sign, buy, own, sub_eq_add_neg]
    · rw [if_neg (Ne.symm own), if_neg own, if_neg own, ih distinct.2]
      rfl

theorem stateOf_ok {cash : Decimal} (read : sources.cash = .ok cash) (portfolioId : UUID)
    (positions : List Position) :
    sources.stateOf portfolioId (positions.map sources.entry) =
      .ok ⟨portfolioId, positions.map sources.entry, grossOf positions + cash, []⟩ := by
  unfold Sources.stateOf
  rw [read]
  simp [Bind.bind, Except.bind, grossOf, Sources.entry, Sources.info, Function.comp_def]
  rfl

theorem stateOf_cash {portfolioId : UUID} {positions : List (String × PositionInfo)}
    {state : PortfolioState} (built : sources.stateOf portfolioId positions = .ok state) :
    ∃ cash, sources.cash = .ok cash := by
  obtain ⟨cash, read, -⟩ := bind_eq_ok.mp built
  exact ⟨cash, read⟩

end States

/-- The state that the gate expects. -/
def Sources.expected (sources : Sources) (request : TradeCheckRequest) (positions : List Position)
    (cash : Decimal) : PortfolioState where
  portfolioId := request.portfolioId
  positions := (request.book positions).map sources.entry
  nav := grossOf (request.book positions) + cash

/-- The state that follows. -/
def Sources.following (sources : Sources) (request : TradeCheckRequest) (positions : List Position)
    (cash : Decimal) : PortfolioState where
  portfolioId := request.portfolioId
  positions := (request.upsert positions).map sources.entry
  nav := grossOf (request.upsert positions) + cash - sources.paid request

/-- What follows loses no share that a limit is on to what the gate expects. -/
def Sources.Foreseen (sources : Sources) (request : TradeCheckRequest) : Prop :=
  ∀ held cash, sources.positions = .ok held → sources.cash = .ok cash →
    SharesKept (sources.following request held.rows cash) (sources.expected request held.rows cash)

/-! ## Two states with the same instruments and quantities -/

theorem Reading.Passes.kept {before after : PortfolioState} {reading : Reading}
    (passes : reading.Passes before)
    (entries : ∀ entry ∈ after.positions, ∃ entry' ∈ before.positions,
      entry'.1 = entry.1 ∧ entry'.2.quantity = entry.2.quantity)
    (restricted : after.restrictedInstruments = before.restrictedInstruments)
    (shares : SharesKept after before) : reading.Passes after := by
  cases reading with
  | limit measure maxPct =>
    rcases shares with none_left | ⟨positive, shares⟩
    · exact .inl none_left
    · have within := passes.resolve_left (not_le.mpr positive)
      have share := shares measure
      exact .inr (by linarith)
  | restricted instruments =>
    intro entry member
    rw [restricted]
    obtain ⟨entry', member', key, -⟩ := entries entry member
    exact key ▸ passes entry' member'
  | shorts allowed =>
    refine passes.imp_right fun long pos member => ?_
    obtain ⟨entry, inside, rfl⟩ := List.mem_map.mp member
    obtain ⟨entry', member', -, quantity⟩ := entries entry inside
    exact quantity ▸ long entry'.2 (List.mem_map_of_mem member')

/-- Entries correspond where the instruments and quantities are the same. -/
theorem entry_of_quantities {before after : List (String × PositionInfo)}
    (same : before.map (fun entry => (entry.1, entry.2.quantity)) =
      after.map fun entry => (entry.1, entry.2.quantity)) {entry : String × PositionInfo}
    (member : entry ∈ after) :
    ∃ entry' ∈ before, entry'.1 = entry.1 ∧ entry'.2.quantity = entry.2.quantity := by
  have held : (entry.1, entry.2.quantity) ∈
      before.map fun entry => (entry.1, entry.2.quantity) := by
    rw [same]
    exact List.mem_map_of_mem member
  obtain ⟨entry', member', same⟩ := List.mem_map.mp held
  exact ⟨entry', member', Prod.mk.inj same⟩

/-! ## The expected state and the booked one -/

section Booked

variable {sources after : Sources} {request : TradeCheckRequest} {held booked : Holdings}
  {cash : Decimal}

theorem expected_state (read : sources.cash = .ok cash) :
    sources.hypotheticalState request held.rows = .ok (sources.expected request held.rows cash) := by
  unfold Sources.hypotheticalState
  dsimp only
  rw [hypothetical_positions sources request held.distinct, stateOf_ok sources read]
  rfl

theorem grossOf_perm {first second : List Position} (perm : first.Perm second) :
    grossOf first = grossOf second :=
  (perm.map _).sum_eq

theorem entry_congr (same : after.getByTicker = sources.getByTicker) :
    after.entry = sources.entry := by
  funext pos
  simp only [Sources.entry, Sources.info, Sources.metadata, same]

theorem booked_state (metadata : after.getByTicker = sources.getByTicker)
    (read : after.cash = .ok (cash - sources.paid request))
    (moved : booked.rows.Perm (request.upsert held.rows)) :
    after.actualState request.portfolioId booked.rows = .ok
      { sources.following request held.rows cash with positions := booked.rows.map sources.entry } := by
  unfold Sources.actualState
  rw [infos_distinct after booked.distinct, stateOf_ok after read, entry_congr metadata,
    grossOf_perm moved]
  unfold Sources.following
  rw [add_sub_assoc]

/-- Measures do not depend on the order of the positions. -/
theorem SharesKept.perm {state state' : PortfolioState} {positions : List (String × PositionInfo)}
    (perm : positions.Perm state.positions) :
    SharesKept { state with positions } state' ↔ SharesKept state state' := by
  have infos : ∀ m : Measure,
      m.amount (PortfolioState.infos { state with positions }) = m.amount state.infos :=
    fun m => Measure.amount_perm (perm.map _) m
  simp only [SharesKept, infos]

theorem Booked.cash_paid {records : List RuleRecord}
    (done : Booked request (sources.withRules records) after) (read : sources.cash = .ok cash) :
    after.cash = .ok (cash - sources.paid request) := by
  have configured : after.balances.isSome = sources.balances.isSome := done.configured
  unfold Sources.paid
  by_cases kept : sources.balances.isSome = true
  · rw [if_pos kept]
    exact done.cash kept cash read
  · rw [if_neg kept]
    rw [Option.not_isSome_iff_eq_none] at kept
    have nothing : after.balances = none := by simpa [kept] using configured
    unfold Sources.cash at read ⊢
    rw [kept] at read
    cases read
    rw [nothing, sub_zero]

/-- With rules and positions, compliance is that every rule passes. -/
theorem compliant_iff {records : List RuleRecord} {rules : List RuleDefinition} {portfolioId : UUID}
    {state : PortfolioState} (active : after.listActive = .ok records) (ruled : records ≠ [])
    (defined : records.mapM RuleRecord.definition = .ok rules)
    (positions : after.positions = .ok booked) (nonempty : booked.rows ≠ [])
    (built : after.actualState portfolioId booked.rows = .ok state) :
    after.Compliant portfolioId ↔ ∀ rule ∈ rules, rule.Passes state := by
  have ran : after.actualResults portfolioId = rules.mapM (evaluate state) := by
    unfold Sources.actualResults
    rw [active]
    simp [Bind.bind, Except.bind, ruled, defined, positions, nonempty, built]
  unfold Sources.Compliant
  rw [ran]
  constructor
  · rintro ⟨results, evaluated, passed⟩
    exact (results_passed evaluated).mp passed
  · intro passes
    obtain ⟨results, evaluated⟩ := evaluate_all passes
    exact ⟨results, evaluated, (results_passed evaluated).mpr passes⟩

theorem following_entries (sources : Sources) (request : TradeCheckRequest) (positions : List Position) :
    ((request.book positions).map sources.entry).map (fun entry => (entry.1, entry.2.quantity)) =
      ((request.upsert positions).map sources.entry).map
        fun entry => (entry.1, entry.2.quantity) := by
  rw [List.map_map, List.map_map]
  exact request.book_quantities positions

theorem compliant_of_foreseen {records : List RuleRecord} (foreseen : sources.Foreseen request)
    (blocking : ∀ record ∈ records, record.severity = "block")
    (done : Booked request (sources.withRules records) after)
    (approved : ((sources.withRules records).checkTrade request).approved = true) :
    after.Compliant request.portfolioId := by
  rcases (approved_iff blocking).mp approved with rfl |
    ⟨rules, held, state, defined, positions, built, passes⟩
  · refine ⟨[], ?_, by simp⟩
    unfold Sources.actualResults
    rw [done.rules]
    rfl
  · obtain ⟨cash, read⟩ := stateOf_cash sources built
    obtain ⟨booked, positions', moved⟩ := done.positions held positions
    have built' := booked_state done.metadata (done.cash_paid read) moved
    cases (expected_state read).symm.trans built
    by_cases ruled : records = []
    · subst ruled
      cases defined
      refine ⟨[], ?_, by simp⟩
      unfold Sources.actualResults
      rw [done.rules]
      rfl
    have nonempty : booked.rows ≠ [] := fun empty =>
      request.upsert_nonempty held.rows (by simpa [empty] using moved)
    refine (compliant_iff done.rules ruled defined positions' nonempty built').mpr ?_
    intro rule member
    obtain ⟨reading, read', holds⟩ := passes rule member
    refine ⟨reading, read', holds.kept (fun entry inside => ?_) rfl ?_⟩
    · exact entry_of_quantities (following_entries sources request held.rows)
        ((moved.map _).mem_iff.mp inside)
    · exact (SharesKept.perm (moved.map _)).mpr (foreseen held cash positions read)

end Booked

/-! ## A rule for each measure -/

/-- A leverage limit as a blocking rule. -/
def leverageRule (maxLeverage : Decimal) : RuleRecord where
  id := UUID.str (.ofNat 0)
  name := "leverage"
  ruleType := "leverage_limit"
  severity := "block"
  parameters := [("max_leverage", .number maxLeverage "")]
  isActive := true
  gracePeriodHours := none

theorem leverageRule_definition (maxLeverage : Decimal) :
    ∃ rule, (leverageRule maxLeverage).definition = .ok rule ∧
      rule.reading = .ok (.limit .gross (maxLeverage * 100)) :=
  ⟨_, bind_eq_ok.mpr ⟨_, Field.asUuid_str _, rfl⟩, rfl⟩

theorem exposureTo_empty (groupBy : String) (positions : List PositionInfo) :
    exposureTo groupBy (.text "") positions = 0 := by
  have nobody : positions.filter (fun pos => pos.entity groupBy = .text "") = [] := by
    rw [List.filter_eq_nil_iff]
    intro pos _
    rw [decide_eq_true_eq]
    unfold PositionInfo.entity Entity.orUnknown
    split
    · simp
    · split <;> simp
    · rename_i named _
      exact named
  simp [exposureTo, totalOf, nobody]

/-- A blocking rule that compares the measure with the limit. -/
def Measure.rule (maxPct : Decimal) : Measure → RuleRecord
  | gross => leverageRule (maxPct / 100)
  | largest => ⟨UUID.str (.ofNat 0), "largest", "concentration_limit", "block",
      [("max_pct", .number maxPct "")], true, none⟩
  | entity groupBy target => ⟨UUID.str (.ofNat 0), "entity", "aggregate_exposure", "block",
      [("max_pct", .number maxPct ""), ("group_by", .text groupBy), ("entity", .text target)],
      true, none⟩
  | group groupBy => ⟨UUID.str (.ofNat 0), "group", "aggregate_exposure", "block",
      [("max_pct", .number maxPct ""), ("group_by", .text groupBy)], true, none⟩

theorem Measure.rule_block (m : Measure) (maxPct : Decimal) : (m.rule maxPct).severity = "block" := by
  cases m <;> rfl

theorem Measure.rule_definition {m : Measure} (maxPct : Decimal)
    (named : ∀ groupBy target, m = .entity groupBy target → target ≠ "") :
    ∃ rule, (m.rule maxPct).definition = .ok rule ∧ rule.reading = .ok (.limit m maxPct) := by
  cases m with
  | gross =>
    obtain ⟨rule, defined, read⟩ := leverageRule_definition (maxPct / 100)
    exact ⟨rule, defined, by rw [read, div_mul_cancel₀ _ (by norm_num)]⟩
  | largest => exact ⟨_, bind_eq_ok.mpr ⟨_, Field.asUuid_str _, rfl⟩, rfl⟩
  | entity groupBy target =>
    refine ⟨_, bind_eq_ok.mpr ⟨_, Field.asUuid_str _, rfl⟩, ?_⟩
    have nonempty := named groupBy target rfl
    have truthy : (Json.text target).truthy = true := by simpa [Json.truthy] using nonempty
    change Except.ok (Reading.limit (measureOf groupBy
      (if (Json.text target).truthy then some target else none)) maxPct) = _
    rw [if_pos truthy]
    rfl
  | group groupBy => exact ⟨_, bind_eq_ok.mpr ⟨_, Field.asUuid_str _, rfl⟩, rfl⟩

/-- A limit that the other state is within and the one is not. -/
theorem measure_of_not_kept {state state' : PortfolioState} (lost : ¬ SharesKept state state') :
    ∃ (m : Measure) (maxPct : Decimal),
      (∀ groupBy target, m = .entity groupBy target → target ≠ "") ∧
      state'.Within m maxPct ∧ ¬ state.Within m maxPct := by
  simp only [SharesKept, not_or, not_and, not_le] at lost
  obtain ⟨positive, lost⟩ := lost
  by_cases none_left : state'.nav ≤ 0
  · refine ⟨.gross, -1, by simp, .inl none_left, ?_⟩
    have nonneg := Measure.amount_nonneg state.infos .gross
    have share : 0 ≤ Measure.gross.amount state.infos / state.nav * 100 := by positivity
    rintro (gone | within)
    · exact absurd gone (not_le.mpr positive)
    · linarith
  · have lower := lost (not_le.mp none_left)
    push Not at lower
    obtain ⟨m, lower⟩ := lower
    refine ⟨m, m.amount state'.infos / state'.nav * 100, ?_, .inr le_rfl, ?_⟩
    · rintro groupBy target rfl rfl
      simp [Measure.amount, exposureTo_empty] at lower
    · rintro (gone | within)
      · exact absurd gone (not_le.mpr positive)
      · linarith

/-- A trade that an approval of what is not foreseen leaves in breach. -/
theorem foreseen_of_approvalHolds {sources : Sources} {request : TradeCheckRequest}
    (holds : sources.ApprovalHolds request) : sources.Foreseen request := by
  intro held cash positions read
  by_contra lost
  obtain ⟨m, maxPct, named, within, beyond⟩ := measure_of_not_kept lost
  obtain ⟨rule, defined, read'⟩ := m.rule_definition maxPct named
  have blocking : ∀ record ∈ [m.rule maxPct], record.severity = "block" := by simp [m.rule_block]
  have defined' : [m.rule maxPct].mapM RuleRecord.definition = .ok [rule] :=
    mapM_eq_ok.mpr (.cons defined .nil)
  have approved : ((sources.withRules [m.rule maxPct]).checkTrade request).approved := by
    refine (approved_iff blocking).mpr
      (.inr ⟨[rule], held, _, defined', positions, expected_state read, ?_⟩)
    intro rule' only
    cases List.mem_singleton.mp only
    exact ⟨_, read', within⟩
  -- the portfolio as it is booked
  let booked : Holdings := ⟨request.upsert held.rows, request.upsert_distinct held.distinct⟩
  let after : Sources :=
    { sources with
      listActive := .ok [m.rule maxPct]
      positions := .ok booked
      balances := sources.balances.map fun _ => .ok [cash - request.cost] }
  have done : Booked request (sources.withRules [m.rule maxPct]) after := by
    refine ⟨rfl, rfl, fun held' positions' => ?_, by simp [after, Sources.withRules], ?_⟩
    · cases positions.symm.trans positions'
      exact ⟨_, rfl, List.Perm.refl _⟩
    · intro kept cash' readCash
      cases read.symm.trans readCash
      obtain ⟨balances, configured⟩ := Option.isSome_iff_exists.mp kept
      have configured' : sources.balances = some balances := configured
      simp [after, Sources.cash, configured', Bind.bind, Except.bind, Pure.pure, Except.pure]
  have same : after.getByTicker = sources.getByTicker := rfl
  have built := booked_state same (done.cash_paid read) (List.Perm.refl booked.rows)
  have passes := (compliant_iff rfl (by simp) defined' rfl (request.upsert_nonempty held.rows)
    built).mp (holds _ after blocking done approved)
  obtain ⟨reading, read'', passed⟩ := passes rule (by simp)
  cases read'.symm.trans read''
  exact beyond passed

/-- What is marked in other names is the same in both states. -/
theorem exposureTo_upsert (sources : Sources) (request : TradeCheckRequest) {name : Entity}
    (other : (Entity.text request.instrument).orUnknown ≠ name) (positions : List Position) :
    exposureTo "instrument_id" name ((request.upsert positions).map fun pos => (sources.entry pos).2) =
      exposureTo "instrument_id" name ((request.book positions).map fun pos => (sources.entry pos).2) := by
  have unnamed : ∀ pos : Position, pos.instrumentId = request.instrument →
      (sources.entry pos).2.entity "instrument_id" ≠ name := by
    rintro pos own rfl
    exact other (own ▸ rfl)
  unfold exposureTo
  induction positions with
  | nil =>
    rw [TradeCheckRequest.upsert, TradeCheckRequest.book, List.map_cons, List.map_cons, totalOf_cons,
      totalOf_cons, if_neg (unnamed _ rfl), if_neg (unnamed _ rfl)]
  | cons pos rest ih =>
    unfold TradeCheckRequest.upsert TradeCheckRequest.book
    split
    · rename_i own
      rw [List.map_cons, List.map_cons, totalOf_cons, totalOf_cons]
      congr 1
      exact (if_neg (unnamed _ own)).trans (if_neg (unnamed _ own)).symm
    · rw [List.map_cons, List.map_cons, totalOf_cons, totalOf_cons, ih]

/-- Where another name is marked, a NAV that is foreseen is not above what follows: no cash
is paid for what is not marked yet. -/
theorem Sources.Foreseen.nav_le {sources : Sources} {request : TradeCheckRequest} {held : Holdings}
    {cash : Decimal} {target : String} (foreseen : sources.Foreseen request)
    (positions : sources.positions = .ok held) (read : sources.cash = .ok cash)
    (valued : 0 < (sources.following request held.rows cash).nav)
    (other : (Entity.text request.instrument).orUnknown ≠ .text target)
    (marked : 0 < exposureTo "instrument_id" (.text target)
      (sources.following request held.rows cash).infos) :
    (sources.expected request held.rows cash).nav ≤ (sources.following request held.rows cash).nav := by
  obtain ⟨positive, shares⟩ := (foreseen held cash positions read).resolve_left (not_le.mpr valued)
  have same : exposureTo "instrument_id" (.text target) (sources.following request held.rows cash).infos =
      exposureTo "instrument_id" (.text target) (sources.expected request held.rows cash).infos := by
    simpa [PortfolioState.infos, Sources.following, Sources.expected, Function.comp_def] using
      exposureTo_upsert sources request other held.rows
  have share : exposureTo "instrument_id" (.text target) _ / _ ≤
      exposureTo "instrument_id" (.text target) _ / _ := shares (.entity "instrument_id" target)
  rw [← same] at share
  exact (div_le_div_iff_of_pos_left marked valued positive).mp share

/-! ## A purchase beside another position -/

section Purchase

/-- Cash of 100 and a position of 50, with a limit of 50 percent on each name. -/
def halfInvested : Sources where
  listActive := .ok [⟨"00000000-0000-0000-0000-000000000001", "single name", "concentration_limit",
    "block", [("max_pct", .number 50 "50")], true, none⟩]
  positions := .ok ⟨[⟨"MSFT", 5, 50⟩], List.nodup_singleton _⟩
  getByTicker := none
  balances := some (.ok [100])

def purchase : TradeCheckRequest := ⟨.ofNat 1, "aapl", "buy", 6, 10⟩

/-- The portfolio after it: 40 in cash, and six shares that nobody has marked. -/
def purchased : Sources :=
  { halfInvested with
    positions := .ok ⟨[⟨"MSFT", 5, 50⟩, ⟨"AAPL", 6, 0⟩], by decide⟩
    balances := some (.ok [40]) }

theorem purchase_booked : Booked purchase halfInvested purchased := by
  refine ⟨rfl, rfl, fun held positions => ?_, rfl, fun _ cash read => ?_⟩
  · cases positions
    exact ⟨_, rfl, .of_eq (by decide +kernel)⟩
  · cases read
    decide +kernel

end Purchase

end MiniHedge.Compliance
