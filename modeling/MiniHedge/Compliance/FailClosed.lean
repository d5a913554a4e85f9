import MiniHedge.Compliance.Approval

/-! The gate with data missing.

An instrument whose lookup fails has no sector, country or asset class, and a
position that has not been priced has no market value; the evaluators take both
as they are. The decision is compared with the one on the full data, whatever
blocking rules are active.
-/

set_option autoImplicit false

namespace MiniHedge.Compliance

open MiniHedge.Python MiniHedge.Library

/-- The position, or the same without a price. -/
structure Unpriced (pos pos' : Position) : Prop where
  instrumentId : pos'.instrumentId = pos.instrumentId
  quantity : pos'.quantity = pos.quantity
  marketValue : pos'.marketValue = pos.marketValue ∨ pos'.marketValue = 0

/-- The metadata, or less of it. -/
structure Unknown (m m' : Metadata) : Prop where
  assetClass : m'.assetClass = m.assetClass ∨ m'.assetClass = ""
  sector : m'.sector = m.sector ∨ m'.sector = ""
  country : m'.country = m.country ∨ m'.country = ""

/-- The states that the gate builds for a trade, with all data and with data
missing. The cash is the same, unless the NAV without the data is not positive. -/
structure Missing (request : TradeCheckRequest) (full lacking : Sources)
    (state state' : PortfolioState) : Prop where
  held : ∃ held held', full.positions = .ok held ∧ lacking.positions = .ok held' ∧
    List.Forall₂ Unpriced held.rows held'.rows ∧
    full.hypotheticalState request held.rows = .ok state ∧
    lacking.hypotheticalState request held'.rows = .ok state'
  metadata : ∀ instrumentId, Unknown (full.metadata instrumentId) (lacking.metadata instrumentId)
  cash : lacking.cash = full.cash ∨ state'.nav ≤ 0

/-- Whatever blocking rules are active: what is blocked on the full data is not
approved without it. -/
def FailsClosed (request : TradeCheckRequest) (full lacking : Sources) : Prop :=
  ∀ records, (∀ record ∈ records, record.severity = "block") →
    ((full.withRules records).checkTrade request).approved = false →
    ((lacking.withRules records).checkTrade request).approved = false

/-! ## The same positions -/

section Same

variable {request : TradeCheckRequest} {full lacking : Sources} {state state' : PortfolioState}

theorem book_unpriced {rows rows' : List Position} (unpriced : List.Forall₂ Unpriced rows rows') :
    (request.book rows').map (fun pos => (pos.instrumentId, pos.quantity)) =
      (request.book rows).map fun pos => (pos.instrumentId, pos.quantity) := by
  induction unpriced with
  | nil => rfl
  | cons first later ih =>
    have rest : ∀ {rows rows' : List Position}, List.Forall₂ Unpriced rows rows' →
        rows'.map (fun pos => (pos.instrumentId, pos.quantity)) =
          rows.map fun pos => (pos.instrumentId, pos.quantity) := by
      intro rows rows' each
      induction each with
      | nil => rfl
      | cons first _ ih => simp [first.instrumentId, first.quantity, ih]
    unfold TradeCheckRequest.book
    rw [first.instrumentId]
    split
    · simp [first.quantity, rest later]
    · simp [first.instrumentId, first.quantity, ih]

theorem built_positions {sources : Sources} {held : Holdings}
    (built : sources.hypotheticalState request held.rows = .ok state) :
    state.positions.map (fun entry => (entry.1, entry.2.quantity)) =
        (request.book held.rows).map (fun pos => (pos.instrumentId, pos.quantity)) ∧
      state.restrictedInstruments = [] := by
  obtain ⟨cash, read⟩ := stateOf_cash sources built
  cases (expected_state read).symm.trans built
  exact ⟨by simp [Sources.expected, Sources.entry, Sources.info, Function.comp_def], rfl⟩

theorem Missing.positions (missing : Missing request full lacking state state') :
    state'.positions.map (fun entry => (entry.1, entry.2.quantity)) =
      state.positions.map fun entry => (entry.1, entry.2.quantity) := by
  obtain ⟨held, held', -, -, unpriced, built, built'⟩ := missing.held
  rw [(built_positions built).1, (built_positions built').1]
  exact book_unpriced unpriced

theorem Missing.restricted (missing : Missing request full lacking state state') :
    state.restrictedInstruments = state'.restrictedInstruments := by
  obtain ⟨held, held', -, -, -, built, built'⟩ := missing.held
  rw [(built_positions built).2, (built_positions built').2]

/-- What passes without the data passes with it. -/
theorem Reading.Passes.with_data {reading : Reading} (passes : reading.Passes state')
    (missing : Missing request full lacking state state') (kept : SharesKept state state') :
    reading.Passes state :=
  passes.kept (fun _ member => entry_of_quantities missing.positions member) missing.restricted kept

end Same

section Closed

variable {request : TradeCheckRequest} {full lacking : Sources} {state state' : PortfolioState}

theorem failsClosed_of_sharesKept (missing : Missing request full lacking state state')
    (kept : SharesKept state state') : FailsClosed request full lacking := by
  intro records blocking blocked
  by_contra approved
  rw [Bool.not_eq_false, approved_iff blocking] at approved
  obtain ⟨held, held', positions, positions', -, built, built'⟩ := missing.held
  have approvedFull : ((full.withRules records).checkTrade request).approved = true := by
    rw [approved_iff blocking]
    refine approved.imp_right ?_
    rintro ⟨rules, _, _, defined, same, builtSame, passes⟩
    cases positions'.symm.trans same
    cases built'.symm.trans builtSame
    refine ⟨rules, held, state, defined, positions, built, fun rule member => ?_⟩
    obtain ⟨reading, read, holds⟩ := passes rule member
    exact ⟨reading, read, holds.with_data missing kept⟩
  rw [blocked] at approvedFull
  cases approvedFull

theorem sharesKept_of_failsClosed (missing : Missing request full lacking state state')
    (closed : FailsClosed request full lacking) : SharesKept state state' := by
  by_contra lost
  obtain ⟨m, maxPct, named, within, beyond⟩ := measure_of_not_kept lost
  obtain ⟨rule, defined, read⟩ := m.rule_definition maxPct named
  have blocking : ∀ record ∈ [m.rule maxPct], record.severity = "block" := by
    simp [m.rule_block]
  have defined' : [m.rule maxPct].mapM RuleRecord.definition = .ok [rule] :=
    mapM_eq_ok.mpr (.cons defined .nil)
  obtain ⟨held, held', positions, positions', -, built, built'⟩ := missing.held
  have approved : ((lacking.withRules [m.rule maxPct]).checkTrade request).approved = true := by
    refine (approved_iff blocking).mpr (.inr ⟨[rule], held', state', defined', positions', built', ?_⟩)
    intro rule' only
    cases List.mem_singleton.mp only
    exact ⟨_, read, within⟩
  have blocked : ((full.withRules [m.rule maxPct]).checkTrade request).approved = false := by
    by_contra passed
    rw [Bool.not_eq_false, approved_iff blocking] at passed
    rcases passed with none_left | ⟨rules, _, _, same, samePositions, sameBuilt, passes⟩
    · cases none_left
    · cases defined'.symm.trans same
      cases positions.symm.trans samePositions
      cases built.symm.trans sameBuilt
      obtain ⟨reading, read', holds⟩ := passes rule (by simp)
      cases read.symm.trans read'
      exact beyond holds
  rw [closed _ blocking blocked] at approved
  cases approved

/-- For every portfolio, trade and data that is missing: no blocking rules lose
their block exactly if no measure loses its share of NAV. -/
theorem failsClosed_iff_sharesKept (missing : Missing request full lacking state state') :
    FailsClosed request full lacking ↔ SharesKept state state' :=
  ⟨sharesKept_of_failsClosed missing, failsClosed_of_sharesKept missing⟩

end Closed

/-! ## A sector that is not found -/

section Sector

/-- The sectors are known, and cash of 100 is held. -/
def covered : Sources where
  listActive := .ok []
  positions := .ok ⟨[], List.nodup_nil⟩
  getByTicker := some fun _ => .ok ⟨some "equity", some "Tech", some "US"⟩
  balances := some (.ok [100])

/-- The same, while the security master fails. -/
def uncovered : Sources :=
  { covered with getByTicker := some fun ticker => .error (.lookupError ticker) }

/-- Blocked for 60 of 160 in one sector, approved as of an unknown one. -/
theorem sector_approved_without_lookup : ¬ FailsClosed purchase covered uncovered := by
  intro closed
  have blocked := closed [⟨"00000000-0000-0000-0000-000000000001", "technology", "sector_limit",
    "block", [("max_pct", .number 30 "30"), ("sector", .text "Tech")], true, none⟩] (by simp)
    (by decide +kernel)
  have approved : ((uncovered.withRules [⟨"00000000-0000-0000-0000-000000000001", "technology",
    "sector_limit", "block", [("max_pct", .number 30 "30"), ("sector", .text "Tech")], true,
    none⟩]).checkTrade purchase).approved = true := by decide +kernel
  rw [blocked] at approved
  cases approved

def freePurchase : TradeCheckRequest := { purchase with price := 0 }

def covering : PortfolioState :=
  ⟨.ofNat 1, [("AAPL", ⟨"AAPL", 6, 0, "equity", "Tech", "US"⟩)], 100, []⟩

def uncovering : PortfolioState :=
  ⟨.ofNat 1, [("AAPL", ⟨"AAPL", 6, 0, "", "", ""⟩)], 100, []⟩

theorem freePurchase_missing : Missing freePurchase covered uncovered covering uncovering where
  held := ⟨_, _, rfl, rfl, .nil, by decide +kernel, by decide +kernel⟩
  metadata _ := ⟨.inr rfl, .inr rfl, .inr rfl⟩
  cash := .inl rfl

/-- Without exposure no share is lost. -/
theorem failsClosed_without_exposure : FailsClosed freePurchase covered uncovered := by
  refine (failsClosed_iff_sharesKept freePurchase_missing).mpr (.inr ⟨by decide +kernel, fun m => ?_⟩)
  have gross : Measure.gross.amount covering.infos = 0 := by decide +kernel
  have nothing : m.amount covering.infos = 0 :=
    le_antisymm (gross ▸ m.amount_le_gross covering.infos) (m.amount_nonneg _)
  have nonneg : 0 ≤ m.amount uncovering.infos / uncovering.nav :=
    div_nonneg (m.amount_nonneg _) (by decide +kernel)
  rw [nothing, zero_div]
  exact nonneg

end Sector

end MiniHedge.Compliance
