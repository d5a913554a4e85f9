import MiniHedge.Compliance.Gate
import MiniHedge.Library.Raising
import MiniHedge.Orders.Allocation

/-! The compliance check before a trade: of an order, and of each leg of a block.

Both entry points ask the gate about a request with a price, and the gate puts
the value of that request into the portfolio. An order without a limit trades at
the price of the market, which neither of them reads.
-/

set_option autoImplicit false

namespace MiniHedge.Orders

open MiniHedge.Python MiniHedge.Library MiniHedge.Compliance

/-! ## Orders -/

/-- What `create_order` and `create_algo_order` read of a request up to the check. -/
structure CreateOrderRequest where
  portfolioId : UUID
  instrumentId : String
  side : OrderSide
  quantity : Decimal
  limitPrice : Option Decimal := none
  deriving DecidableEq, Repr

/-- A row of `compliance_results`. -/
structure ComplianceRow where
  ruleId : String
  ruleName : String
  passed : Bool
  severity : Severity
  deriving DecidableEq, Repr

def complianceData (decision : ComplianceDecision) : List ComplianceRow :=
  decision.results.map fun r => ⟨r.ruleId.str, r.ruleName, r.passed, r.severity⟩

def CreateOrderRequest.tradeCheck (request : CreateOrderRequest) : Compliance.TradeCheckRequest where
  portfolioId := request.portfolioId
  instrumentId := request.instrumentId
  side := request.side.value
  quantity := request.quantity
  -- a limit of zero is false, like one that is not given
  price := (request.limitPrice.filter (· ≠ 0)).getD 100

/-- `ComplianceOrchestrator.pre_check`. -/
def preCheck (sources : Sources) (request : CreateOrderRequest) :
    ComplianceDecision × List ComplianceRow :=
  let decision := sources.checkTrade request.tradeCheck
  (decision, complianceData decision)

/-! ## Legs -/

/-- The request as the gate takes it. -/
def TradeCheckRequest.gateway (request : TradeCheckRequest) : Compliance.TradeCheckRequest where
  portfolioId := request.portfolioId
  instrumentId := request.instrumentId
  side := request.side.value
  quantity := request.quantity
  price := request.price

/-- The decision on a leg in `create_block_allocation`. -/
def checkLeg (sources : Sources) (request : CreateBlockAllocationRequest)
    (leg : AllocationLegRecord) : ComplianceDecision :=
  sources.checkTrade (request.tradeCheck leg).gateway

/-! ## The price -/

/-- The check of a request uses its value at that price, and decides accordingly,
whatever the rules and the portfolio are. -/
def CheckedAt (price : Decimal) (request : Compliance.TradeCheckRequest)
    (decision : Sources → ComplianceDecision) : Prop :=
  request.tradeValue = request.quantity * price ∧
    ∀ sources, decision sources = sources.checkTrade { request with price }

/-- What a unit costs: the limit where one is given, otherwise what the market asks. -/
def cost (limitPrice : Option Decimal) (market : Decimal) : Decimal := limitPrice.getD market

/-- Nothing is traded, the limit is not zero, or the market is at the price that
stands for a missing limit. -/
def Priced (quantity : Decimal) (limitPrice : Option Decimal) (market : Decimal) : Prop :=
  quantity = 0 ∨
    match limitPrice with
    | some limit => limit ≠ 0
    | none => market = 100

/-- The gate sees of the price only the value of the trade. -/
theorem checkTrade_of_tradeValue (sources : Sources) (request : Compliance.TradeCheckRequest)
    {price : Decimal} (value : request.tradeValue = request.quantity * price) :
    sources.checkTrade request = sources.checkTrade { request with price } := by
  have same : Compliance.TradeCheckRequest.tradeValue { request with price } = request.tradeValue :=
    value.symm
  have traded : sources.traded { request with price } = sources.traded request := by
    funext held
    cases held with
    | none => simp only [Sources.traded, same]; rfl
    | some existing => simp only [Sources.traded, same]; rfl
  have state : sources.hypotheticalState { request with price } =
      sources.hypotheticalState request := by
    funext positions
    unfold Sources.hypotheticalState
    rw [traded]
    rfl
  unfold Sources.checkTrade Sources.evaluateRules
  rw [state]

theorem checkedAt_iff {price : Decimal} {request : Compliance.TradeCheckRequest}
    {decision : Sources → ComplianceDecision}
    (decides : ∀ sources, decision sources = sources.checkTrade request) :
    CheckedAt price request decision ↔ request.quantity = 0 ∨ request.price = price := by
  constructor
  · rintro ⟨value, -⟩
    exact (mul_eq_mul_left_iff.mp value).symm
  · intro priced
    have value : request.tradeValue = request.quantity * price :=
      mul_eq_mul_left_iff.mpr priced.symm
    refine ⟨value, fun sources => ?_⟩
    rw [decides, checkTrade_of_tradeValue sources request value]

/-- The price of a check is the cost just where that is known. -/
theorem priced_iff (quantity : Decimal) (limitPrice : Option Decimal) (market : Decimal) :
    quantity = 0 ∨ (limitPrice.filter (· ≠ 0)).getD 100 = cost limitPrice market ↔
      Priced quantity limitPrice market := by
  refine or_congr_right ?_
  cases limitPrice with
  | none => exact eq_comm
  | some limit =>
    by_cases zero : limit = 0
    · simp [cost, zero, Option.filter]
    · simp [cost, zero, Option.filter]

/-- Orders and legs are checked at what they cost exactly where nothing is traded,
or the price is given or happens to be the one that stands for it. -/
theorem checkedAtCost_iff (market : Decimal) :
    (∀ request : CreateOrderRequest,
      CheckedAt (cost request.limitPrice market) request.tradeCheck
          (fun sources => (preCheck sources request).1) ↔
        Priced request.quantity request.limitPrice market) ∧
    ∀ (request : CreateBlockAllocationRequest) (leg : AllocationLegRecord),
      CheckedAt (cost request.limitPrice market) (request.tradeCheck leg).gateway
          (fun sources => checkLeg sources request leg) ↔
        Priced leg.targetQuantity request.limitPrice market := by
  constructor
  · intro request
    exact (checkedAt_iff fun _ => rfl).trans
      (priced_iff request.quantity request.limitPrice market)
  · intro request leg
    exact (checkedAt_iff fun _ => rfl).trans
      (priced_iff leg.targetQuantity request.limitPrice market)

/-! ## Without a limit -/

/-- Cash of 10000, and no more than a tenth of the portfolio in one instrument. -/
def tenthOfCash : Sources where
  listActive := .ok [⟨"00000000-0000-0000-0000-000000000001", "Single name", "concentration_limit",
    "block", [("max_pct", .number 10 "10")], true, none⟩]
  positions := .ok ⟨[], List.nodup_nil⟩
  getByTicker := none
  balances := some (.ok [10000])

def marketOrder : CreateOrderRequest := ⟨.ofNat 1, "AAPL", .buy, 10, none⟩

/-- Ten shares at 250 are a fifth of the portfolio, and pass as a tenth of it. -/
theorem marketOrder_approved :
    ¬ CheckedAt (cost marketOrder.limitPrice 250) marketOrder.tradeCheck
        (fun sources => (preCheck sources marketOrder).1) ∧
      (preCheck tenthOfCash marketOrder).1.approved = true ∧
      (tenthOfCash.checkTrade { marketOrder.tradeCheck with price := 250 }).approved = false := by
  have approved : (preCheck tenthOfCash marketOrder).1.approved = true := by decide +kernel
  have blocked : (tenthOfCash.checkTrade { marketOrder.tradeCheck with price := 250 }).approved =
      false := by decide +kernel
  refine ⟨fun checked => ?_, approved, blocked⟩
  have same : (preCheck tenthOfCash marketOrder).1 =
      tenthOfCash.checkTrade { marketOrder.tradeCheck with price := 250 } := checked.2 tenthOfCash
  rw [same, blocked] at approved
  cases approved

end MiniHedge.Orders
