import MiniHedge.CashManagement.Projected
import MiniHedge.Eod.NavCalculator
import MiniHedge.Positions.MarkToMarket

/-! A trade at the mark, and the NAV before and after it.

The trade is projected on its position, its cash effect is registered as a
settlement, and then the price comes in that the trade was made at. A short
position is marked with the size of its quantity, and an option or a bond with a
factor that the settlement does not have.
-/

set_option autoImplicit false

namespace MiniHedge.Eod

open MiniHedge.Python MiniHedge.Library
open MiniHedge.MarketData
open MiniHedge.Positions hiding Projects
open MiniHedge.CashManagement (Date SettlementRequest Cause CashBalance till returning createSettlement)

/-! ## The trade -/

/-- What `handle_trade_executed` makes of the event of a trade. -/
def settlementOf (trade : Trade) (orderId : Option UUID) (tradeDate : Date) : SettlementRequest :=
  let totalCost := trade.quantity * trade.price
  { account := ⟨trade.portfolioId, trade.currency⟩
    orderId
    instrumentId := trade.instrumentId
    amount := if trade.side = .buy then -totalCost else totalCost
    tradeDate }

/-- The quantity with the sign of the side. -/
def signedQuantity (trade : Trade) : Decimal :=
  if trade.side = .buy then trade.quantity else -trade.quantity

theorem settlementOf_amount (trade : Trade) (orderId : Option UUID) (tradeDate : Date) :
    (settlementOf trade orderId tradeDate).amount = -(signedQuantity trade * trade.price) := by
  unfold settlementOf signedQuantity
  split
  · rfl
  · ring

section Trades

variable (getByTicker : String → Except Exc (Option String))
variable (getAssetClass : String → Option AssetClass)

/-- The books before a trade and after it: `updated` is whether the price has come in. -/
structure Traded (books : FundBooks) (trade : Trade) (updated : Bool) (after : FundBooks) : Prop where
  positions : ∃ clock key positions downstream,
    applyTrade books.positions clock trade key = .ok (positions, some downstream) ∧
      after.positions = if updated then
        positions.handlePriceUpdate getAssetClass trade.instrumentId trade.price else positions
  cash : ∃ orderId tradeDate, (till getByTicker).run ⟨books.cash, []⟩
    (.call (.create (settlementOf trade orderId tradeDate)) :: returning 5) = some ⟨after.cash, []⟩
  country : ∃ country, getByTicker trade.instrumentId = .ok (some country) ∧ country ≠ ""
  fees : after.fees = books.fees

/-- The books are as every run leaves them, the position is marked at the price of the trade
and in its currency, and the amount of the trade has no more places than cash. -/
structure AtMark (books : FundBooks) (trade : Trade) : Prop where
  consistent : Consistent books.positions
  unique : (books.positions.positions.map fun row => (row.portfolioId, row.instrumentId)).Nodup
  balances : ∀ account, ((books.cash.balance account).getD {}).Kept
  currency : ∀ row, books.positions.position trade.portfolioId trade.instrumentId = some row →
    row.currency = trade.currency
  marked : ∀ row strategy, books.positions.position trade.portfolioId trade.instrumentId =
      some row → (getAssetClass trade.instrumentId).bind getPositionStrategy = some strategy →
    row.marketValue = strategy.marketValue {} row.quantity trade.price
  booked : OnGrid 4 (trade.quantity * trade.price)

end Trades

/-! ## What the trade does to the two parts of a NAV -/

section Parts

variable {getByTicker : String → Except Exc (Option String)}
variable {getAssetClass : String → Option AssetClass}
variable {books after : FundBooks} {trade : Trade} {updated : Bool}

theorem create_run {r : SettlementRequest} {country : String}
    (found : getByTicker r.instrumentId = .ok (some country)) (named : country ≠ "")
    (t : CashManagement.Tables) : ∃ settlementDate,
      (till getByTicker).run ⟨t, []⟩ (.call (.create r) :: returning 5) =
        some ⟨(t.insertSettlement (r.row settlementDate)).storeBalance r.account
          ((Cause.registered r).balance (t.balance r.account)), []⟩ := by
  refine ⟨CashManagement.calculateSettlementDate r.tradeDate country, ?_⟩
  have fresh : ∀ record : Option CashBalance, ¬ (record = none ∧ record.isSome = true) := by
    rintro record ⟨rfl, found⟩
    cases found
  simp only [returning, List.replicate, System.run_cons, till, CashManagement.Call.program,
    createSettlement, if_true, Option.bind_some, CashManagement.Program.next,
    CashManagement.Statement.execute, found, Bind.bind, Except.bind, List.append_nil,
    List.nil_append, Option.pure_def, Bool.not_eq_true', Option.isSome_eq_false_iff,
    Option.isNone_iff_eq_none]
  rw [if_neg (fresh _)]
  rfl

theorem cashBalance_eq (calculator : NAVCalculator) (books : FundBooks) (portfolioId : UUID) :
    calculator.cashBalance books portfolioId = (books.cash.balances.map fun e =>
      if e.1.portfolioId = portfolioId then
        e.2.totalBalance * baseRate calculator.fx e.1.currency calculator.currency else 0).sum := by
  simp only [NAVCalculator.cashBalance, FundBooks.getBalances, List.map_map, sum_map_filter,
    decide_eq_true_eq, Function.comp_def, toBase_eq]

/-- The balance of the account moves by what the trade costs. -/
theorem balances_traded (atMark : AtMark getAssetClass books trade)
    (traded : Traded getByTicker getAssetClass books trade updated after) : ∃ b : CashBalance,
      after.cash.balances = setItem ⟨trade.portfolioId, trade.currency⟩ b books.cash.balances ∧
        b.totalBalance = ((books.cash.balances.lookup ⟨trade.portfolioId, trade.currency⟩).getD
          {}).totalBalance - signedQuantity trade * trade.price := by
  obtain ⟨orderId, tradeDate, ran⟩ := traded.cash
  obtain ⟨country, found, named⟩ := traded.country
  obtain ⟨settlementDate, created⟩ := create_run (r := settlementOf trade orderId tradeDate)
    found named books.cash
  have cash : after.cash = _ :=
    congrArg CashManagement.Till.tables (Option.some.inj (ran.symm.trans created))
  have exactly : OnGrid 4 (settlementOf trade orderId tradeDate).amount := by
    unfold settlementOf
    dsimp only
    split
    · exact atMark.booked.neg
    · exact atMark.booked
  have total := CashManagement.total_registered (r := settlementOf trade orderId tradeDate)
    (atMark.balances ⟨trade.portfolioId, trade.currency⟩)
  rw [exactly.numeric_eq, settlementOf_amount, ← sub_eq_add_neg] at total
  exact ⟨_, by rw [cash]; rfl, total⟩

theorem cashBalance_traded (calculator : NAVCalculator)
    (atMark : AtMark getAssetClass books trade)
    (traded : Traded getByTicker getAssetClass books trade updated after) :
    calculator.cashBalance after trade.portfolioId =
      calculator.cashBalance books trade.portfolioId -
        signedQuantity trade * trade.price *
          baseRate calculator.fx trade.currency calculator.currency := by
  obtain ⟨b, balances, total⟩ := balances_traded atMark traded
  rw [cashBalance_eq, cashBalance_eq, balances, sum_setItem
    fun (account : CashManagement.Account) (b : CashBalance) =>
      if account.portfolioId = trade.portfolioId then
        b.totalBalance * baseRate calculator.fx account.currency calculator.currency else 0]
  cases held : books.cash.balances.lookup ⟨trade.portfolioId, trade.currency⟩ with
  | none =>
    have empty : (none.getD {} : CashBalance).totalBalance = 0 := by
      simp [CashBalance.totalBalance]
    rw [held, empty] at total
    simp only [if_true, total, Option.map_none, Option.getD_none]
    ring
  | some old =>
    rw [held, Option.getD_some] at total
    simp only [if_true, total, Option.map_some, Option.getD_some]
    ring

theorem after_trade_quantity (a : PositionAggregate) (trade : Trade) (now : Datetime)
    (key : Option String) :
    (a.after (trade.command now key).event).quantity = a.quantity + signedQuantity trade := by
  unfold signedQuantity
  cases side : trade.side with
  | buy =>
    have event : (trade.command now key).event = ⟨.tradeBuy, now, .trade trade.data⟩ := by
      simp [Trade.command, Trade.eventType, side]
    rw [event, PositionAggregate.after_buy, if_pos rfl]
    rfl
  | sell =>
    have event : (trade.command now key).event = ⟨.tradeSell, now, .trade trade.data⟩ := by
      simp [Trade.command, Trade.eventType, side]
    rw [event, PositionAggregate.after_sell, if_neg (by simp), ← sub_eq_add_neg]
    rfl

/-- The strategy that the row is marked with after the trade, if any. -/
def markedBy (getAssetClass : String → Option AssetClass) (trade : Trade) (updated : Bool) :
    Option PositionStrategy :=
  if updated then (getAssetClass trade.instrumentId).bind getPositionStrategy else none

def revalue (trade : Trade) : Option PositionStrategy → CurrentPositionRecord → CurrentPositionRecord
  | none, row => row
  | some strategy, row =>
    if row.instrumentId = trade.instrumentId then row.mark strategy trade.price else row

/-- The rows after the trade. -/
theorem rows_traded (consistent : Consistent books.positions)
    (traded : Traded getByTicker getAssetClass books trade updated after) : ∃ row,
      after.positions.positions = (putPosition row books.positions.positions).map
        (revalue trade (markedBy getAssetClass trade updated)) ∧
      row.At trade.portfolioId trade.instrumentId ∧
      TradedRow books.positions ((holdingOf books.positions trade.portfolioId
        trade.instrumentId).quantity + signedQuantity trade) trade.currency row := by
  obtain ⟨clock, key, positions, downstream, applied, rows⟩ := traded.positions
  obtain ⟨row, put, own, a, holding, traded⟩ :=
    submit_row consistent (trade.command_for clock.now _) applied
  refine ⟨row, ?_, own, ?_⟩
  · have unmarked : positions.positions.map (revalue trade none) = positions.positions :=
      List.map_id _
    rw [rows, ← put]
    unfold markedBy Database.handlePriceUpdate
    split
    · cases (getAssetClass trade.instrumentId).bind getPositionStrategy with
      | none => exact unmarked.symm
      | some strategy => rfl
    · exact unmarked.symm
  · have quantity : a.quantity =
        (holdingOf books.positions trade.portfolioId trade.instrumentId).quantity :=
      congrArg Holding.quantity holding
    rw [after_trade_quantity, quantity] at traded
    exact traded

/-- What the rows are worth in the portfolio. -/
def rowValue (calculator : NAVCalculator) (portfolioId : UUID) (row : CurrentPositionRecord) :
    Decimal :=
  if row.portfolioId = portfolioId then
    row.marketValue * baseRate calculator.fx row.currency calculator.currency else 0

theorem netMarketValue_eq (calculator : NAVCalculator) (books : FundBooks) (portfolioId : UUID) :
    calculator.netMarketValue books portfolioId =
      (books.positions.positions.map (rowValue calculator portfolioId)).sum := by
  simp only [NAVCalculator.netMarketValue, NAVCalculator.marketValues, FundBooks.getByPortfolio,
    sum_map_filter, decide_eq_true_eq, toBase_eq]
  rfl

theorem rowValue_revalue {calculator : NAVCalculator} {row : CurrentPositionRecord}
    (strategy : Option PositionStrategy)
    (other : ¬ row.At trade.portfolioId trade.instrumentId) :
    rowValue calculator trade.portfolioId (revalue trade strategy row) =
      rowValue calculator trade.portfolioId row := by
  cases strategy with
  | none => rfl
  | some strategy =>
    by_cases instrument : row.instrumentId = trade.instrumentId
    · have portfolio : row.portfolioId ≠ trade.portfolioId := fun same => other ⟨same, instrument⟩
      simp [revalue, instrument, rowValue, CurrentPositionRecord.mark, portfolio]
    · simp [revalue, instrument]

theorem sum_revalue {calculator : NAVCalculator} {rows : List CurrentPositionRecord}
    (strategy : Option PositionStrategy)
    (others : ∀ row ∈ rows, ¬ row.At trade.portfolioId trade.instrumentId) :
    ((rows.map (revalue trade strategy)).map (rowValue calculator trade.portfolioId)).sum =
      (rows.map (rowValue calculator trade.portfolioId)).sum := by
  rw [List.map_map]
  exact congrArg List.sum (List.map_congr_left fun row member =>
    rowValue_revalue strategy (others row member))

/-- The market value that the row of the trade had. -/
def heldValue (books : FundBooks) (trade : Trade) : Decimal :=
  ((books.positions.position trade.portfolioId trade.instrumentId).map (·.marketValue)).getD 0

/-- The market value that the row of the trade has then. -/
def newValue (books : FundBooks) (trade : Trade) : Option PositionStrategy → Decimal
  | none => heldValue books trade
  | some strategy => strategy.marketValue {} ((holdingOf books.positions trade.portfolioId
      trade.instrumentId).quantity + signedQuantity trade) trade.price

theorem rowValue_traded {calculator : NAVCalculator} (atMark : AtMark getAssetClass books trade)
    (strategy : Option PositionStrategy) {row : CurrentPositionRecord}
    (own : row.At trade.portfolioId trade.instrumentId)
    (written : TradedRow books.positions ((holdingOf books.positions trade.portfolioId
      trade.instrumentId).quantity + signedQuantity trade) trade.currency row) :
    rowValue calculator trade.portfolioId (revalue trade strategy row) =
      newValue books trade strategy * baseRate calculator.fx trade.currency calculator.currency := by
  obtain ⟨portfolio, instrument⟩ := own
  have currency : row.currency = trade.currency := by
    rw [written.currency, portfolio, instrument]
    cases held : books.positions.position trade.portfolioId trade.instrumentId with
    | none => rfl
    | some old => exact atMark.currency old held
  cases strategy with
  | none =>
    have value : row.marketValue = heldValue books trade := by
      rw [written.marketValue, portfolio, instrument]
      rfl
    simp [revalue, rowValue, newValue, portfolio, currency, value]
  | some strategy =>
    simp [revalue, rowValue, newValue, CurrentPositionRecord.mark, portfolio, instrument, currency,
      written.quantity]

/-- The positions of the portfolio move by what the row of the trade does. -/
theorem netMarketValue_traded (calculator : NAVCalculator)
    (atMark : AtMark getAssetClass books trade)
    (traded : Traded getByTicker getAssetClass books trade updated after) :
    calculator.netMarketValue after trade.portfolioId =
      calculator.netMarketValue books trade.portfolioId +
        (newValue books trade (markedBy getAssetClass trade updated) - heldValue books trade) *
          baseRate calculator.fx trade.currency calculator.currency := by
  obtain ⟨row, rows, own, written⟩ := rows_traded atMark.consistent traded
  have value : rowValue calculator trade.portfolioId
      (revalue trade (markedBy getAssetClass trade updated) row) = _ :=
    rowValue_traded atMark (markedBy getAssetClass trade updated) own written
  obtain ⟨portfolio, instrument⟩ := own
  rw [netMarketValue_eq, netMarketValue_eq, rows]
  rcases putPosition_cases row books.positions.positions with
    ⟨absent, put⟩ | ⟨before, old, later, found, split, put⟩
  · rw [portfolio, instrument] at absent
    have others : ∀ r ∈ books.positions.positions,
        ¬ r.At trade.portfolioId trade.instrumentId := by
      simpa using absent
    have nothing : heldValue books trade = 0 := by
      rw [heldValue, Database.position, absent]
      rfl
    rw [put, List.map_append, List.map_append, List.sum_append, sum_revalue _ others, nothing]
    simp [value]
  · rw [portfolio, instrument] at found
    have ownOld : old.At trade.portfolioId trade.instrumentId := Database.position_at found
    have held : heldValue books trade = old.marketValue := by
      rw [heldValue, Database.position, found]
      rfl
    have oldValue : rowValue calculator trade.portfolioId old = old.marketValue *
        baseRate calculator.fx trade.currency calculator.currency := by
      rw [rowValue, if_pos ownOld.1, atMark.currency old found]
    -- no other row has the key
    have keys := atMark.unique
    rw [split, List.map_append, List.map_cons, List.nodup_append, List.nodup_cons] at keys
    obtain ⟨-, ⟨notLater, -⟩, apart⟩ := keys
    have key : ∀ r : CurrentPositionRecord, r.At trade.portfolioId trade.instrumentId →
        (r.portfolioId, r.instrumentId) = (old.portfolioId, old.instrumentId) := fun r at' => by
      rw [at'.1, at'.2, ownOld.1, ownOld.2]
    have othersBefore : ∀ r ∈ before, ¬ r.At trade.portfolioId trade.instrumentId :=
      fun r member at' => apart _ (List.mem_map_of_mem member) _ List.mem_cons_self (key r at')
    have othersLater : ∀ r ∈ later, ¬ r.At trade.portfolioId trade.instrumentId :=
      fun r member at' => notLater (key r at' ▸ List.mem_map_of_mem member)
    rw [put, split]
    simp only [List.map_append, List.map_cons, List.sum_append, List.sum_cons,
      sum_revalue _ othersBefore, sum_revalue _ othersLater, value, held, oldValue]
    ring

/-- The NAV that `calculate_nav` returns. -/
def calculatedNav (calculator : NAVCalculator) (books : FundBooks) (portfolioId : UUID) :
    Option Decimal :=
  match calculator.calculateNav portfolioId books with
  | .ok snapshot _ => some snapshot.nav
  | .error _ _ => none

theorem nav_traded (calculator : NAVCalculator) (atMark : AtMark getAssetClass books trade)
    (traded : Traded getByTicker getAssetClass books trade updated after) :
    calculator.nav after trade.portfolioId = calculator.nav books trade.portfolioId +
      (newValue books trade (markedBy getAssetClass trade updated) - heldValue books trade -
        signedQuantity trade * trade.price) *
          baseRate calculator.fx trade.currency calculator.currency := by
  have fees : calculator.accruedFees after trade.portfolioId =
      calculator.accruedFees books trade.portfolioId := by
    simp only [NAVCalculator.accruedFees, traded.fees]
  rw [NAVCalculator.nav, NAVCalculator.nav, fees, netMarketValue_traded calculator atMark traded,
    cashBalance_traded calculator atMark traded]
  ring

/-- The trade costs nothing; or it is in shares or futures, and neither before nor after it
is the position short; or the size of an option position happens to move by a hundredth of
the trade. -/
def KeepsNav (assetClass : Option AssetClass) (held signed price : Decimal) : Prop :=
  signed * price = 0 ∨
    match assetClass with
    | some .equity | some .etf | some .future => 0 ≤ held ∧ 0 ≤ held + signed
    | some .option => (|held + signed| - |held|) * 100 = signed
    | _ => False

theorem abs_moves_iff {held signed : Decimal} :
    |held + signed| - |held| = signed ↔ signed = 0 ∨ (0 ≤ held ∧ 0 ≤ held + signed) := by
  constructor
  · intro moves
    rcases le_or_gt 0 held with long | short
    · rw [abs_of_nonneg long] at moves
      refine .inr ⟨long, abs_eq_self.mp ?_⟩
      linarith
    · rw [abs_of_neg short] at moves
      rcases le_or_gt 0 (held + signed) with long | still
      · rw [abs_of_nonneg long] at moves
        linarith
      · rw [abs_of_neg still] at moves
        left
        linarith
  · rintro (rfl | ⟨before, after⟩)
    · simp
    · rw [abs_of_nonneg before, abs_of_nonneg after]
      ring

/-- Whether what a class is marked with moves by what the trade costs. -/
theorem keepsNav_iff (assetClass : AssetClass) (held signed price : Decimal) :
    ((match getPositionStrategy assetClass with
      | none => (0 : Decimal)
      | some strategy => strategy.marketValue {} (held + signed) price -
          strategy.marketValue {} held price) = signed * price) ↔
      KeepsNav (some assetClass) held signed price := by
  have sized : |held + signed| * price - |held| * price = signed * price ↔
      signed * price = 0 ∨ (0 ≤ held ∧ 0 ≤ held + signed) := by
    rw [← sub_mul, mul_eq_mul_right_iff, abs_moves_iff, mul_eq_zero]
    tauto
  cases assetClass with
  | equity | etf => exact sized
  | future => simpa [getPositionStrategy, futurePositionStrategy, KeepsNav] using sized
  | fixedIncome =>
    have hundredth : (held + signed) * price / 100 + 0 - (held * price / 100 + 0) =
        signed * price ↔ signed * price = 0 := by
      constructor
      · intro moves
        linarith
      · intro free
        linarith
    simpa [getPositionStrategy, fixedIncomePositionStrategy, KeepsNav] using hundredth
  | option =>
    have hundredfold : |held + signed| * price * 100 - |held| * price * 100 = signed * price ↔
        signed * price = 0 ∨ (|held + signed| - |held|) * 100 = signed := by
      have factored : |held + signed| * price * 100 - |held| * price * 100 =
          ((|held + signed| - |held|) * 100) * price := by ring
      have still : signed = 0 → (|held + signed| - |held|) * 100 = signed := by
        rintro rfl
        simp
      rw [factored, mul_eq_mul_right_iff, mul_eq_zero]
      tauto
    exact hundredfold
  | fx | fxForward | swap | privateAsset =>
    simp [getPositionStrategy, KeepsNav, eq_comm]

theorem marketValue_zero {assetClass : AssetClass} {strategy : PositionStrategy}
    (marks : getPositionStrategy assetClass = some strategy) (price : Decimal) :
    strategy.marketValue {} 0 price = 0 := by
  cases assetClass <;> cases marks <;>
    simp [equityPositionStrategy, fixedIncomePositionStrategy, optionPositionStrategy,
      futurePositionStrategy]

/-- At the mark, a position has the value that its strategy gives it. -/
theorem heldValue_eq (atMark : AtMark getAssetClass books trade) {assetClass : AssetClass}
    {strategy : PositionStrategy} (classified : getAssetClass trade.instrumentId = some assetClass)
    (marks : getPositionStrategy assetClass = some strategy) :
    heldValue books trade = strategy.marketValue {}
      (holdingOf books.positions trade.portfolioId trade.instrumentId).quantity trade.price := by
  unfold heldValue holdingOf
  cases found : books.positions.position trade.portfolioId trade.instrumentId with
  | none => exact (marketValue_zero marks trade.price).symm
  | some row =>
    refine atMark.marked row strategy found ?_
    rw [classified]
    exact marks

end Parts

/-! ## The first trade of a fund -/

section First

def equities (_ : String) : Option AssetClass := some .equity

/-- Ten shares at 100 dollars. -/
def tenAtHundred (side : TradeSide) : Trade :=
  ⟨.ofNat 1, "AAPL", side, 10, 100, "USD", .ofNat 2⟩

def firstTraded (trade : Trade) : Option FundBooks :=
  match applyTrade {} ⟨0, fun _ => 0⟩ trade none,
    (till CashManagement.american).run {}
      (.call (.create (settlementOf trade none 1)) :: returning 5) with
  | .ok (positions, some _), some ⟨cash, []⟩ => some {
      positions := positions.handlePriceUpdate equities trade.instrumentId trade.price
      cash }
  | _, _ => none

theorem traded_first {trade : Trade} {after : FundBooks} (ran : firstTraded trade = some after) :
    Traded CashManagement.american equities {} trade true after := by
  unfold firstTraded at ran
  split at ran
  · rename_i positions downstream cash applied booked
    cases ran
    exact ⟨⟨_, _, positions, downstream, applied, rfl⟩, ⟨_, _, booked⟩, ⟨"US", rfl, by decide⟩, rfl⟩
  · cases ran

theorem atMark_first (side : TradeSide) : AtMark equities {} (tenAtHundred side) where
  consistent := Consistent.start
  unique := List.nodup_nil
  balances _ := CashManagement.kept_empty
  currency := by
    intro row held
    cases held
  marked := by
    intro row strategy held
    cases held
  booked := ⟨10000000, by norm_num [tenAtHundred]⟩

end First

end MiniHedge.Eod
