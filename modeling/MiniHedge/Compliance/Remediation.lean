import MiniHedge.Compliance.Approval
import MiniHedge.Compliance.Monitor
import MiniHedge.Library.Rows
import MiniHedge.Positions.Tables
import MiniHedge.Python.Decimal

/-! `ComplianceService.suggest_remediation`, and what its trade leaves of the breach.

The shares to sell are counted from what the positions are marked at, against
their sum without cash. The booking preserves that mark, so that the monitor finds
it as it was, and the cash with what the trade has brought.
-/

set_option autoImplicit false

namespace MiniHedge.Compliance

open MiniHedge.Python MiniHedge.Library
open MiniHedge.Positions (CurrentPositionRecord)

/-! ## The suggestion -/

/-- A violation with the message that it was found with. -/
structure ReportedViolation extends Violation where
  message : String
  deriving DecidableEq, Repr

structure RemediationSuggestion where
  violationId : Nat
  ruleName : String
  instrumentId : String
  side : String
  quantity : Decimal
  currentWeightPct : Decimal
  targetWeightPct : Decimal
  limitPct : Decimal
  deriving DecidableEq, Repr

/-- `text.split(separator)[0]`, where the separator is in the text. -/
def firstPart (separator : List Char) : List Char → Option (List Char)
  | [] => none
  | c :: rest =>
    if separator.isPrefixOf (c :: rest) then some []
    else (firstPart separator rest).map (c :: ·)

/-- The name that the message begins with: `TICKER is X.XX% of NAV (limit Y%)`. -/
def ReportedViolation.instrumentId (v : ReportedViolation) : Option String :=
  match firstPart " is ".toList v.message.toList with
  | none | some [] => none
  | some name => some (String.ofList name)

/-- A name without a blank is read back from its message. -/
theorem firstPart_name {name : List Char} (unbroken : ' ' ∉ name) (text : List Char) :
    firstPart " is ".toList (name ++ " is ".toList ++ text) = some name := by
  induction name with
  | nil => rfl
  | cons c rest ih =>
    rw [List.mem_cons, not_or] at unbroken
    rw [List.cons_append, List.cons_append, firstPart, ih unbroken.2]
    -- the separator begins with a blank, which the name does not have
    have other : " is ".toList.isPrefixOf (c :: (rest ++ " is ".toList ++ text)) = false := by
      simp [List.isPrefixOf, unbroken.1]
    rw [other]
    rfl

/-- What is stored, or what a share is marked at. -/
def currentPrice (pos : CurrentPositionRecord) : Option Decimal :=
  if pos.marketPrice ≠ 0 then some pos.marketPrice
  else if pos.quantity ≠ 0 then some (|pos.marketValue| / |pos.quantity|)
  else none

/-- The limit with a buffer of half a percent. -/
def targetPct (limitPct : Decimal) : Decimal := if limitPct - 1 / 2 < 0 then 0 else limitPct - 1 / 2

/-- The NAV of the service: no cash. -/
def navOf (positions : List CurrentPositionRecord) : Decimal :=
  (positions.map fun pos => |pos.marketValue|).sum

def excessMv (nav limitPct : Decimal) (pos : CurrentPositionRecord) : Decimal :=
  |pos.marketValue| - targetPct limitPct / 100 * nav

/-- What one violation gives; none where the loop continues. -/
def suggestion (positions : List CurrentPositionRecord) (nav : Decimal) (v : ReportedViolation) :
    Option RemediationSuggestion := do
  let limitPct ← v.limitValue
  let _ ← v.currentValue
  let instrumentId ← v.instrumentId
  let pos ← positions.find? (·.instrumentId = instrumentId)
  if excessMv nav limitPct pos ≤ 0 then none
  else
    let price ← currentPrice pos
    if price ≤ 0 then none
    else
      let qtyToSell := quantize 0 .halfEven (excessMv nav limitPct pos / price)
      if qtyToSell ≤ 0 then none
      else
        return {
          violationId := v.id
          ruleName := v.ruleName
          instrumentId
          side := "sell"
          quantity := qtyToSell
          currentWeightPct := quantize 2 .halfEven (|pos.marketValue| / nav * 100)
          targetWeightPct := targetPct limitPct
          limitPct }

def suggestRemediation (violations : List ReportedViolation)
    (positions : List CurrentPositionRecord) : List RemediationSuggestion :=
  if violations.isEmpty ∨ positions.isEmpty then []
  else if navOf positions ≤ 0 then []
  else violations.filterMap (suggestion positions (navOf positions))

/-- What a suggestion has been made from. -/
structure Suggested (positions : List CurrentPositionRecord) (nav : Decimal)
    (v : ReportedViolation) (pos : CurrentPositionRecord) (limitPct price : Decimal)
    (s : RemediationSuggestion) : Prop where
  limit : v.limitValue = some limitPct
  named : v.instrumentId = some pos.instrumentId
  held : pos ∈ positions
  priced : currentPrice pos = some price
  positive : 0 < price
  excess : 0 < excessMv nav limitPct pos
  instrument : s.instrumentId = pos.instrumentId
  side : s.side = "sell"
  quantity : s.quantity = quantize 0 .halfEven (excessMv nav limitPct pos / price)
  whole : 0 < s.quantity

section Suggestion

variable {positions : List CurrentPositionRecord} {violations : List ReportedViolation}
  {v : ReportedViolation} {nav : Decimal} {s : RemediationSuggestion}

theorem suggestion_cases (suggested : suggestion positions nav v = some s) :
    ∃ pos limitPct price, Suggested positions nav v pos limitPct price s := by
  unfold suggestion at suggested
  obtain ⟨limitPct, limit, suggested⟩ := Option.bind_eq_some_iff.mp suggested
  obtain ⟨-, -, suggested⟩ := Option.bind_eq_some_iff.mp suggested
  obtain ⟨instrumentId, named, suggested⟩ := Option.bind_eq_some_iff.mp suggested
  obtain ⟨pos, found, suggested⟩ := Option.bind_eq_some_iff.mp suggested
  have own : pos.instrumentId = instrumentId := by simpa using List.find?_some found
  split at suggested
  · cases suggested
  rename_i excess
  obtain ⟨price, priced, suggested⟩ := Option.bind_eq_some_iff.mp suggested
  split at suggested
  · cases suggested
  rename_i positive
  dsimp only at suggested
  split at suggested
  · cases suggested
  rename_i whole
  cases suggested
  exact ⟨pos, limitPct, price, limit, own ▸ named, List.mem_of_find?_eq_some found, priced,
    not_le.mp positive, not_le.mp excess, own.symm, rfl, rfl, not_le.mp whole⟩

/-- What the service returns: one suggestion for each violation that gives one. -/
theorem mem_suggestRemediation : s ∈ suggestRemediation violations positions ↔
    0 < navOf positions ∧ ∃ v ∈ violations, suggestion positions (navOf positions) v = some s := by
  unfold suggestRemediation
  split
  · rename_i nothing
    rcases nothing with none_active | none_held
    · simp [List.isEmpty_iff.mp none_active]
    · simp [List.isEmpty_iff.mp none_held, navOf]
  · split
    · rename_i unvalued
      simp [not_lt.mpr unvalued]
    · rename_i valued
      rw [List.mem_filterMap]
      exact (and_iff_right (not_le.mp valued)).symm

end Suggestion

/-! ## The trade -/

/-- What the monitor reads of a position. -/
def position (pos : CurrentPositionRecord) : Position :=
  ⟨pos.instrumentId, pos.quantity, pos.marketValue⟩

/-- What a sale adds to the balances, where there are any. -/
def Sources.booked (sources : Sources) (amount : Decimal) : Decimal :=
  if sources.balances.isSome then numeric 4 amount else 0

/-- The position after a sale: the upsert preserves the market value. -/
def sell (quantity : Decimal) (pos : Position) : Position :=
  { pos with quantity := pos.quantity - quantity }

/-- Exactly what is suggested is sold at the price, and its cash is booked. -/
structure Executed (s : RemediationSuggestion) (price : Decimal) (held : List CurrentPositionRecord)
    (rows : List Position) (before after : Sources) : Prop where
  positions : rows.Perm
    (changeRow (·.instrumentId) (sell s.quantity) s.instrumentId (held.map position))
  cash : ∀ cash, before.cash = .ok cash →
    after.cash = .ok (cash + before.booked (s.quantity * price))

/-- The percentage that the concentration evaluator compares is within the limit for
the instrument; it compares none where there is no NAV. -/
def PortfolioState.Contains (state : PortfolioState) (maxPct : Decimal) (instrumentId : String) :
    Prop :=
  state.nav ≤ 0 ∨ ∀ info ∈ state.infos, info.instrumentId = instrumentId →
    info.exposure / state.nav * 100 ≤ maxPct

instance (state : PortfolioState) (maxPct : Decimal) (instrumentId : String) :
    Decidable (state.Contains maxPct instrumentId) := inferInstanceAs (Decidable (_ ∨ _))

/-- The evaluator passes where this is so for each instrument. -/
theorem concentrationLimit_passed {state : PortfolioState} {rule : RuleDefinition}
    {maxPct : Decimal} (read : rule.maxPct = .ok maxPct) :
    ∃ r, concentrationLimit state rule = .ok r ∧ (r.passed = true ↔
      state.nav ≤ 0 ∨ 0 ≤ maxPct ∧ ∀ instrumentId, state.Contains maxPct instrumentId) := by
  unfold concentrationLimit
  rw [read]
  refine ⟨_, rfl, ?_⟩
  unfold checkPercent PortfolioState.Contains
  split
  · rename_i gone
    simp [gone, RuleDefinition.result]
  · rename_i valued
    simp only [RuleDefinition.result, decide_eq_true_eq, valued, false_or, largest_le_iff,
      List.map_map, List.forall_mem_map, Function.comp_apply]
    exact and_congr_right fun _ => ⟨fun each _ info member _ => each info member,
      fun each info member => each _ info member rfl⟩

/-- The monitor finds the instrument within the limit. -/
def Cured (after : Sources) (portfolioId : UUID) (rows : List Position) (maxPct : Decimal)
    (instrumentId : String) : Prop :=
  ∃ state, after.actualState portfolioId rows = .ok state ∧ state.Contains maxPct instrumentId

theorem cured_state {after : Sources} {portfolioId : UUID} {rows : List Position}
    {state : PortfolioState} (built : after.actualState portfolioId rows = .ok state)
    (maxPct : Decimal) (instrumentId : String) :
    Cured after portfolioId rows maxPct instrumentId ↔ state.Contains maxPct instrumentId := by
  constructor
  · rintro ⟨other, same, contains⟩
    cases built.symm.trans same
    exact contains
  · exact fun contains => ⟨state, built, contains⟩

/-! ## The condition -/

/-- The money that the sale moves: the excess, with what rounding to whole shares adds. -/
def moved (excess price : Decimal) : Decimal := excess + roundingError (excess / price) * price

/-- What the position is short of the limit's share is at most the limit's share of what the
sale brings. -/
def Suffices (before : Sources) (cash nav limitPct maxPct : Decimal) (pos : CurrentPositionRecord)
    (price : Decimal) : Prop :=
  let proceeds := before.booked (moved (excessMv nav limitPct pos) price)
  nav + cash + proceeds ≤ 0 ∨ 100 * |pos.marketValue| - maxPct * (nav + cash) ≤ maxPct * proceeds

instance (before : Sources) (cash nav limitPct maxPct : Decimal) (pos : CurrentPositionRecord)
    (price : Decimal) : Decidable (Suffices before cash nav limitPct maxPct pos price) :=
  inferInstanceAs (Decidable (_ ∨ _))

section Trade

variable {held : List CurrentPositionRecord} {v : ReportedViolation}
  {pos : CurrentPositionRecord} {nav limitPct price : Decimal} {s : RemediationSuggestion}
  {rows : List Position} {before after : Sources}

theorem Suggested.amount (suggested : Suggested held nav v pos limitPct price s) :
    s.quantity * price = moved (excessMv nav limitPct pos) price := by
  rw [suggested.quantity, quantize_halfEven, pow_zero, mul_one, div_one, add_mul,
    div_mul_cancel₀ _ suggested.positive.ne', moved]

/-- A sale changes neither the instruments nor what they are marked at. -/
theorem Executed.marks (executed : Executed s price held rows before after) :
    (rows.map fun pos => (pos.instrumentId, pos.marketValue)).Perm
      (held.map fun pos => (pos.instrumentId, pos.marketValue)) := by
  refine (executed.positions.map _).trans (.of_eq ?_)
  rw [changeRow, List.map_map, List.map_map]
  apply List.map_congr_left
  intro pos _
  simp only [Function.comp_apply]
  split
  · rfl
  · rfl

/-- What the monitor builds after the trade. -/
theorem Executed.state {cash : Decimal} (executed : Executed s price held rows before after)
    (distinct : (held.map (·.instrumentId)).Nodup) (read : before.cash = .ok cash)
    (portfolioId : UUID) :
    after.actualState portfolioId rows = .ok ⟨portfolioId, rows.map after.entry,
      navOf held + (cash + before.booked (s.quantity * price)), []⟩ := by
  have names : (rows.map (·.instrumentId)).Perm (held.map (·.instrumentId)) := by
    simpa [Function.comp_def] using executed.marks.map Prod.fst
  have gross : grossOf rows = navOf held := by
    have values : (rows.map (·.marketValue)).Perm (held.map (·.marketValue)) := by
      simpa [Function.comp_def] using executed.marks.map Prod.snd
    simpa [grossOf, navOf, Function.comp_def] using (values.map (|·|)).sum_eq
  unfold Sources.actualState
  rw [infos_distinct after (names.nodup_iff.mpr distinct), stateOf_ok after (executed.cash _ read),
    gross]

/-- The only position of the instrument is the one that was suggested on. -/
theorem Executed.only (executed : Executed s price held rows before after)
    (distinct : (held.map (·.instrumentId)).Nodup) (member : pos ∈ held)
    (own : s.instrumentId = pos.instrumentId) (P : Decimal → Prop) :
    (∀ info ∈ (rows.map after.entry).map (·.2),
        info.instrumentId = s.instrumentId → P info.exposure) ↔ P |pos.marketValue| := by
  have marks : ∀ mark, (∃ row ∈ rows, row.instrumentId = s.instrumentId ∧ row.marketValue = mark) ↔
      mark = pos.marketValue := by
    intro mark
    have held_marks : (s.instrumentId, mark) ∈ rows.map (fun pos => (pos.instrumentId, pos.marketValue)) ↔
        (s.instrumentId, mark) ∈ held.map fun pos => (pos.instrumentId, pos.marketValue) :=
      executed.marks.mem_iff
    simp only [List.mem_map, Prod.mk.injEq] at held_marks
    rw [held_marks]
    constructor
    · rintro ⟨other, inside, same, rfl⟩
      -- the rows have different instruments
      rw [List.inj_on_of_nodup_map distinct inside member (same.trans own)]
    · rintro rfl
      exact ⟨pos, member, own.symm, rfl⟩
  simp only [List.map_map, List.forall_mem_map, Function.comp_apply, Sources.entry, Sources.info,
    PositionInfo.exposure]
  constructor
  · intro each
    obtain ⟨row, inside, same, mark⟩ := (marks pos.marketValue).mpr rfl
    exact mark ▸ each row inside same
  · intro kept row inside same
    rw [(marks row.marketValue).mp ⟨row, inside, same, rfl⟩]
    exact kept

/-- The sale contains the instrument where its proceeds suffice. -/
theorem Suggested.cured {cash maxPct : Decimal} {portfolioId : UUID}
    (suggested : Suggested held (navOf held) v pos limitPct price s)
    (distinct : (held.map (·.instrumentId)).Nodup) (read : before.cash = .ok cash)
    (executed : Executed s price held rows before after) :
    Cured after portfolioId rows maxPct s.instrumentId ↔
      Suffices before cash (navOf held) limitPct maxPct pos price := by
  have own := suggested.instrument
  rw [cured_state (executed.state distinct read portfolioId)]
  unfold PortfolioState.Contains Suffices
  dsimp only [PortfolioState.infos]
  rw [executed.only distinct suggested.held own fun exposure =>
    exposure / (navOf held + (cash + before.booked (s.quantity * price))) * 100 ≤ maxPct,
    suggested.amount, ← add_assoc]
  by_cases gone : navOf held + cash +
      before.booked (moved (excessMv (navOf held) limitPct pos) price) ≤ 0
  · simp only [gone, true_or]
  · simp only [gone, false_or]
    rw [div_mul_eq_mul_div, div_le_iff₀ (not_le.mp gone)]
    constructor
    · intro within
      linarith
    · intro within
      linarith

end Trade

/-! ## What it comes to -/

section Amounts

variable {before : Sources} {cash nav limitPct maxPct : Decimal} {pos : CurrentPositionRecord}
  {price : Decimal}

/-- Where the proceeds are booked, a limit is met again by a position that is hardly above
it: the buffer and the limit's share of the cash and of the rounding make up for the rest. -/
theorem suffices_booked (buffered : 1 / 2 ≤ limitPct)
    (exactly : before.booked (moved (excessMv nav limitPct pos) price) =
      moved (excessMv nav limitPct pos) price) :
    Suffices before cash nav limitPct limitPct pos price ↔
      nav + cash + moved (excessMv nav limitPct pos) price ≤ 0 ∨
        (100 - limitPct) * (100 * |pos.marketValue| - limitPct * nav) ≤ limitPct *
          (nav / 2 + 100 * cash + 100 * (roundingError (excessMv nav limitPct pos / price) * price)) := by
  have target : targetPct limitPct = limitPct - 1 / 2 := if_neg (by linarith)
  have amount : moved (excessMv nav limitPct pos) price =
      |pos.marketValue| - (limitPct - 1 / 2) / 100 * nav +
        roundingError (excessMv nav limitPct pos / price) * price := by
    rw [moved]
    nth_rewrite 1 [excessMv]
    rw [target]
  unfold Suffices
  dsimp only
  rw [exactly]
  apply or_congr_right
  rw [amount]
  constructor
  · intro within
    linarith
  · intro within
    linarith

/-- Where they are not, no position in breach is cured. -/
theorem not_suffices_unbooked (unbooked : before.balances = none) (valued : 0 < nav + cash)
    (breached : maxPct * (nav + cash) < 100 * |pos.marketValue|) :
    ¬ Suffices before cash nav limitPct maxPct pos price := by
  unfold Suffices Sources.booked
  simp only [unbooked, Option.isSome_none, Bool.false_eq_true, if_false, add_zero, mul_zero]
  rintro (gone | within)
  · exact absurd valued (not_lt.mpr gone)
  · linarith

end Amounts

/-! ## Where it cures -/

/-- The positions of a portfolio; the table is unique on the instrument. -/
structure MarkedHoldings where
  rows : List CurrentPositionRecord
  distinct : (rows.map (·.instrumentId)).Nodup

/-- The trade that is suggested for a violation cures it where its proceeds suffice. -/
theorem cured_iff {held : MarkedHoldings} {v : ReportedViolation} {s : RemediationSuggestion}
    (suggested : suggestion held.rows (navOf held.rows) v = some s) :
    ∃ pos ∈ held.rows, ∃ limitPct price, v.instrumentId = some pos.instrumentId ∧
      v.limitValue = some limitPct ∧ currentPrice pos = some price ∧
      ∀ (before after : Sources) (cash maxPct : Decimal) (portfolioId : UUID)
        (rows : List Position), before.cash = .ok cash →
        Executed s price held.rows rows before after →
          (Cured after portfolioId rows maxPct s.instrumentId ↔
            Suffices before cash (navOf held.rows) limitPct maxPct pos price) := by
  obtain ⟨pos, limitPct, price, from_violation⟩ := suggestion_cases suggested
  refine ⟨pos, from_violation.held, limitPct, price, from_violation.named, from_violation.limit,
    from_violation.priced, ?_⟩
  intro before after cash maxPct portfolioId rows read executed
  exact from_violation.cured held.distinct read executed

/-! A portfolio of two thousand, most of it in one name. -/

def shares (instrumentId : String) (quantity : Decimal) : CurrentPositionRecord where
  portfolioId := .ofNat 1
  instrumentId := instrumentId
  quantity := quantity
  avgCost := 10
  costBasis := 1000
  realizedPnl := 0
  marketPrice := 10
  marketValue := |quantity * 10|
  unrealizedPnl := 0
  currency := "USD"

def twoHoldings (apple microsoft : Decimal) : MarkedHoldings where
  rows := [shares "AAPL" apple, shares "MSFT" microsoft]
  distinct := by simp [shares]

/-- A violation as the monitor has reported it. -/
def reported (limit : Decimal) (message : String) : ReportedViolation where
  id := 0
  ruleId := .ofNat 2
  ruleName := "single name"
  severity := .block
  currentValue := some 50
  limitValue := some limit
  breachType := "passive"
  detectedAt := 0
  deadlineAt := none
  message := message

def soldApple (quantity current limit : Decimal) : RemediationSuggestion where
  violationId := 0
  ruleName := "single name"
  instrumentId := "AAPL"
  side := "sell"
  quantity := quantity
  currentWeightPct := current
  targetWeightPct := limit - 1 / 2
  limitPct := limit

def balanceOf (cash : Decimal) : Sources where
  listActive := .ok []
  positions := .ok ⟨[], by decide⟩
  getByTicker := none
  balances := some (.ok [cash])

/-- The rows after a sale of the first of them. -/
def appleSold (quantity : Decimal) (held : MarkedHoldings) : List Position :=
  changeRow (·.instrumentId) (sell quantity) "AAPL" (held.rows.map position)

theorem executed_apple {s : RemediationSuggestion} (apple : s.instrumentId = "AAPL")
    (held : MarkedHoldings) {proceeds : Decimal}
    (brings : (balanceOf 0).booked (s.quantity * 10) = proceeds) :
    Executed s 10 held.rows (appleSold s.quantity held) (balanceOf 0) (balanceOf proceeds) where
  positions := by
    rw [apple]
    exact .refl _
  cash := by
    intro cash read
    cases read
    rw [brings]
    simp [balanceOf, Sources.cash, Bind.bind, Except.bind, Pure.pure, Except.pure]

/-- 50.5 percent with a limit of 50: the proceeds of two shares are enough. -/
theorem cured_long : Cured (balanceOf 20) ⟨1, by decide⟩ (appleSold 2 (twoHoldings 101 99)) 50
    "AAPL" := by
  have suggested : suggestion (twoHoldings 101 99).rows (navOf (twoHoldings 101 99).rows)
      (reported 50 "AAPL is 50.50% of NAV (limit 50%)") = some (soldApple 2 (101 / 2) 50) := by
    decide +kernel
  obtain ⟨pos, held, limitPct, price, named, limit, priced, cured⟩ := cured_iff suggested
  obtain rfl : pos = shares "AAPL" 101 := by
    rcases List.mem_pair.mp held with apple | microsoft
    · exact apple
    · subst microsoft
      exact absurd named (by decide +kernel)
  cases limit
  have ten : price = 10 := Option.some.inj (priced.symm.trans (by decide +kernel))
  subst ten
  have suffices' : Suffices (balanceOf 0) 0 (navOf (twoHoldings 101 99).rows) 50 50
      (shares "AAPL" 101) 10 := by decide +kernel
  have empty : (balanceOf 0).cash = .ok 0 := by decide +kernel
  exact (cured _ _ 0 50 _ _ empty (executed_apple rfl (twoHoldings 101 99) (by decide +kernel))).mpr
    suffices'

/-- A short half of a portfolio, with a limit of 20 percent. The sale of 61 shares makes it
larger, and the monitor finds it at 1000 of 2610. -/
theorem uncured_short :
    soldApple 61 50 20 ∈ suggestRemediation [reported 20 "AAPL is 50.00% of NAV (limit 20%)"]
        (twoHoldings (-100) 100).rows ∧
      Executed (soldApple 61 50 20) 10 (twoHoldings (-100) 100).rows
        (appleSold 61 (twoHoldings (-100) 100)) (balanceOf 0) (balanceOf 610) ∧
      ¬ Cured (balanceOf 610) ⟨1, by decide⟩ (appleSold 61 (twoHoldings (-100) 100)) 20 "AAPL" := by
  refine ⟨by decide +kernel, executed_apple rfl _ (by decide +kernel), ?_⟩
  have built : (balanceOf 610).actualState ⟨1, by decide⟩ (appleSold 61 (twoHoldings (-100) 100)) =
      .ok ⟨⟨1, by decide⟩, [("AAPL", ⟨"AAPL", -161, 1000, "", "", ""⟩),
        ("MSFT", ⟨"MSFT", 100, 1000, "", "", ""⟩)], 2610, []⟩ := by decide +kernel
  rw [cured_state built]
  decide +kernel

end MiniHedge.Compliance
