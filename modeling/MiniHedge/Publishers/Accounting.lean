import MiniHedge.Publishers.Trading

/-! The events that cash management, capital accounts, fee accounting, currency
hedging, cost analysis, fund structures, regulatory reporting and the investor
operations publish.
-/

set_option autoImplicit false

namespace MiniHedge.Publishers

open MiniHedge.Python MiniHedge.Shared

section Cash

variable (str : Decimal → String) (fundSlug portfolioId : String)

inductive SettlementEventType where
  | created
  | settled
  deriving DecidableEq, Repr

def SettlementEventType.value : SettlementEventType → String
  | .created => "cash.settlement.created"
  | .settled => "cash.settlement.settled"

/-- The type is `created` when its text contains this word. -/
def SettlementEventType.status : SettlementEventType → String
  | .created => "created"
  | .settled => "settled"

def publishSettlementEvent (eventType : SettlementEventType) (instrumentId : String)
    (amount : Decimal) (settlementDate : String) : Publication where
  topic := fundTopic fundSlug s!"cash.settlement.{eventType.status}"
  eventType := eventType.value
  data := [("portfolio_id", .text portfolioId), ("instrument_id", .text instrumentId),
    ("settlement_amount", .text (str amount)), ("settlement_date", .text settlementDate),
    ("status", .text eventType.status)]
  fundSlug := some fundSlug

def publishCashProjected (horizonDays : Int) (baseCurrency : String)
    (closingBalances : List Decimal) : Publication where
  topic := fundTopic fundSlug "cash.projected"
  eventType := "cash.projected"
  data := [("portfolio_id", .text portfolioId), ("horizon_days", whole horizonDays),
    ("base_currency", .text baseCurrency),
    ("min_projected_balance", .text (str (closingBalances.min?.getD 0))),
    ("entries_count", whole closingBalances.length)]
  fundSlug := some fundSlug

def publishSettlementDue (instrumentId : String) (amount : Decimal) (settlementDate : String)
    (daysUntilDue : Int) : Publication where
  topic := fundTopic fundSlug "cash.settlement_due"
  eventType := "cash.settlement_due"
  data := [("portfolio_id", .text portfolioId), ("instrument_id", .text instrumentId),
    ("amount", .text (str amount)), ("settlement_date", .text settlementDate),
    ("days_until_due", whole daysUntilDue)]
  fundSlug := some fundSlug

def publishBalanceWarning (projectedBalance : Decimal) (warningDate : String) : Publication where
  topic := fundTopic fundSlug "cash.balance_warning"
  eventType := "cash.balance_warning"
  data := [("portfolio_id", .text portfolioId), ("projected_balance", .text (str projectedBalance)),
    ("warning_date", .text warningDate),
    ("severity", .text (if projectedBalance < 0 then "critical" else "warning"))]
  fundSlug := some fundSlug

end Cash

section Capital

variable (str : Decimal → String) (businessDate : String) (navPerShare : Decimal)

def allocateDaily (count : Nat) (fundPnl : Decimal) : Publication where
  topic := sharedTopic "capital.allocation"
  eventType := "capital.allocation"
  data := [("business_date", .text businessDate), ("accounts_allocated", whole count),
    ("fund_pnl", .text (str fundPnl)), ("nav_per_share", .text (str navPerShare))]
  actorId := some "eod-orchestrator"

def processSubscription (investorId shareClass accountId : String) (amount shares : Decimal) :
    Publication where
  topic := sharedTopic "capital.subscription"
  eventType := "capital.subscription"
  data := [("investor_id", .text investorId), ("amount", .text (str amount)),
    ("shares", .text (str shares)), ("nav_per_share", .text (str navPerShare)),
    ("share_class", .text shareClass), ("business_date", .text businessDate),
    ("account_id", .text accountId)]

def processRedemption (investorId shareClass accountId : String) (amount sharesToRedeem : Decimal) :
    Publication where
  topic := sharedTopic "capital.redemption"
  eventType := "capital.redemption"
  data := [("investor_id", .text investorId), ("amount", .text (str amount)),
    ("shares_redeemed", .text (str sharesToRedeem)), ("nav_per_share", .text (str navPerShare)),
    ("share_class", .text shareClass), ("business_date", .text businessDate),
    ("account_id", .text accountId)]

end Capital

section Fees

variable (str : Decimal → String) (fundSlug portfolioId shareClass businessDate : String)

def accrueDailyFees (managementFee performanceFee nav : Decimal) : Publication where
  topic := fundTopic fundSlug "fees.accrued"
  eventType := "fee.accrued"
  data := [("portfolio_id", .text portfolioId), ("share_class", .text shareClass),
    ("business_date", .text businessDate), ("management_fee", .text (str managementFee)),
    ("performance_fee", .text (str performanceFee)), ("nav", .text (str nav))]
  actorId := some "eod-orchestrator"
  fundSlug := some fundSlug

def crystallizeFees : Publication where
  topic := fundTopic fundSlug "fees.crystallized"
  eventType := "fee.crystallized"
  data := [("portfolio_id", .text portfolioId), ("share_class", .text shareClass),
    ("business_date", .text businessDate)]
  actorId := some "eod-orchestrator"
  fundSlug := some fundSlug

def approveAccruals (approvedIds : List String) (actorId : Option String) : Publication where
  topic := fundTopic fundSlug "fees.approved"
  eventType := "fee.approved"
  data := [("accrual_ids", texts approvedIds), ("count", whole approvedIds.length)]
  actorId := actorId
  fundSlug := some fundSlug

end Fees

section Hedging

variable (str : Decimal → String) (fundSlug : String)

/-- The hedging service names the fund in the topic only. -/
def publishHedgingEvent (eventType : String) (data : Parameters) : Publication where
  topic := fundTopic fundSlug "fx-hedging.events"
  eventType := eventType
  data := data

def openForward (forwardId baseCurrency quoteCurrency direction maturityDate : String)
    (notional contractRate : Decimal) : Publication :=
  publishHedgingEvent fundSlug "fx.forward.opened"
    [("forward_id", .text forwardId), ("base_currency", .text baseCurrency),
      ("quote_currency", .text quoteCurrency), ("notional", .text (str notional)),
      ("direction", .text direction), ("contract_rate", .text (str contractRate)),
      ("maturity_date", .text maturityDate)]

def closeForward (forwardId : String) (closeRate realizedPnl : Decimal) : Publication :=
  publishHedgingEvent fundSlug "fx.forward.closed"
    [("forward_id", .text forwardId), ("close_rate", .text (str closeRate)),
      ("realized_pnl", .text (str realizedPnl))]

def rollForward (oldForwardId newForwardId newMaturityDate : String) (newContractRate : Decimal) :
    Publication :=
  publishHedgingEvent fundSlug "fx.forward.rolled"
    [("old_forward_id", .text oldForwardId), ("new_forward_id", .text newForwardId),
      ("new_maturity_date", .text newMaturityDate),
      ("new_contract_rate", .text (str newContractRate))]

def markToMarketAll (portfolioId : String) (forwards : Nat) : Publication :=
  publishHedgingEvent fundSlug "fx.forward.mtm"
    [("portfolio_id", .text portfolioId), ("forwards_count", whole forwards)]

def getHedgeRecommendations (portfolioId : String) (recommendations : Nat) : Publication :=
  publishHedgingEvent fundSlug "fx.hedge.recommended"
    [("portfolio_id", .text portfolioId), ("recommendations_count", whole recommendations)]

def computeForOrder (orderId instrumentId : String)
    (totalCostBps implementationShortfallBps : Decimal) : Publication where
  topic := fundTopic fundSlug "tca.computed"
  eventType := "tca.computed"
  data := [("order_id", .text orderId), ("instrument_id", .text instrumentId),
    ("total_cost_bps", .text (str totalCostBps)),
    ("implementation_shortfall_bps", .text (str implementationShortfallBps))]
  actorId := some "tca-service"
  fundSlug := some fundSlug

end Hedging

section Structures

variable (str : Decimal → String)

def createMasterFeederLink (linkId masterSlug feederSlug : String) (allocationPct : Decimal) :
    Publication where
  topic := sharedTopic "audit"
  eventType := "fund_structures.link.created"
  data := [("link_id", .text linkId), ("master_fund_slug", .text masterSlug),
    ("feeder_fund_slug", .text feederSlug), ("allocation_pct", .text (str allocationPct))]
  fundSlug := some masterSlug

def createBook (bookId fundSlug name level : String) (parentId : Option String)
    (targetPct : Decimal) : Publication where
  topic := sharedTopic "audit"
  eventType := "fund_structures.book.created"
  data := [("book_id", .text bookId), ("fund_slug", .text fundSlug), ("name", .text name),
    ("level", .text level), ("parent_id", BaseEvent.textOrNull parentId),
    ("target_pct", .text (str targetPct))]
  fundSlug := some fundSlug

def addFofHolding (holdingId fofSlug underlyingName : String) (underlyingSlug : Option String)
    (allocationPct : Decimal) (isInternal : Bool) : Publication where
  topic := sharedTopic "audit"
  eventType := "fund_structures.fof.holding_added"
  data := [("holding_id", .text holdingId), ("fof_fund_slug", .text fofSlug),
    ("underlying_fund_name", .text underlyingName),
    ("underlying_fund_slug", BaseEvent.textOrNull underlyingSlug),
    ("allocation_pct", .text (str allocationPct)), ("is_internal", .bool isInternal)]
  fundSlug := some fofSlug

end Structures

section Regulatory

/-- The regulatory service publishes all its events on one topic. -/
def publishRegulatory (eventType : String) (data : Parameters) (fundSlug : Option String) :
    Publication where
  topic := sharedTopic "regulatory"
  eventType := eventType
  data := data
  actorId := some "regulatory-service"
  fundSlug := fundSlug

def generateFormPf (filingId fundSlug reportingPeriod frequency : String) : Publication :=
  publishRegulatory "regulatory.form_pf.generated"
    [("filing_id", .text filingId), ("fund_slug", .text fundSlug),
      ("reporting_period", .text reportingPeriod), ("frequency", .text frequency)] (some fundSlug)

def generate13f (filingId fundSlug reportingPeriod : String) (totalPositions : Nat) : Publication :=
  publishRegulatory "regulatory.13f.generated"
    [("filing_id", .text filingId), ("fund_slug", .text fundSlug),
      ("reporting_period", .text reportingPeriod), ("total_positions", whole totalPositions)]
    (some fundSlug)

def generateInvestorStatement (statementId investorId periodStart periodEnd : String) :
    Publication :=
  publishRegulatory "regulatory.investor_statement.generated"
    [("statement_id", .text statementId), ("investor_id", .text investorId),
      ("period_start", .text periodStart), ("period_end", .text periodEnd)] none

def generatePerformanceLetter (letterId fundSlug period : String) : Publication :=
  publishRegulatory "regulatory.performance_letter.generated"
    [("letter_id", .text letterId), ("fund_slug", .text fundSlug), ("period", .text period)]
    (some fundSlug)

end Regulatory

/-! ## Investor operations: subscriptions, redemptions and screenings -/

/-- All of them go to one topic. -/
def investorOperation (eventType : String) (data : Parameters) : Publication where
  topic := sharedTopic "investor-operations"
  eventType := eventType
  data := data

section Requests

variable (str : Decimal → String) (requestId investorId : String)

def submitSubscription (amount : Decimal) (shareClass : String) : Publication :=
  investorOperation "investor_ops.subscription.submitted"
    [("request_id", .text requestId), ("investor_id", .text investorId),
      ("amount", .text (str amount)), ("share_class", .text shareClass)]

/-- The three decisions on a subscription are published alike. -/
def subscriptionDecision (eventType : String) (approved : Bool) (decisionBy : String) :
    Publication :=
  investorOperation eventType
    [("request_id", .text requestId), ("approved", .bool approved),
      ("decision_by", .text decisionBy)]

def recordKycDecision (approved : Bool) (decisionBy : String) : Publication :=
  subscriptionDecision requestId "investor_ops.subscription.kyc_decided" approved decisionBy

def opsReview (approved : Bool) (decisionBy : String) : Publication :=
  subscriptionDecision requestId "investor_ops.subscription.ops_reviewed" approved decisionBy

def gpDecision (approved : Bool) (decisionBy : String) : Publication :=
  subscriptionDecision requestId "investor_ops.subscription.gp_decided" approved decisionBy

def confirmWire (wireReference : String) : Publication :=
  investorOperation "investor_ops.subscription.wire_confirmed"
    [("request_id", .text requestId), ("wire_reference", .text wireReference)]

def executeSubscriptions (requestedAmount navPerShare shares : Decimal) : Publication :=
  investorOperation "investor_ops.subscription.executed"
    [("request_id", .text requestId), ("investor_id", .text investorId),
      ("amount", .text (str requestedAmount)), ("nav_per_share", .text (str navPerShare)),
      ("shares_issued", .text (str shares))]

def cancelSubscription (reason cancelledBy : String) : Publication :=
  investorOperation "investor_ops.subscription.cancelled"
    [("request_id", .text requestId), ("reason", .text reason), ("cancelled_by", .text cancelledBy)]

def submitRedemption (amount : Decimal) (noticeDate : String) : Publication :=
  investorOperation "investor_ops.redemption.submitted"
    [("request_id", .text requestId), ("investor_id", .text investorId),
      ("amount", .text (str amount)), ("notice_date", .text noticeDate)]

def validateRedemption (validated : Bool) (failedReason : Option String) : Publication :=
  investorOperation "investor_ops.redemption.validated"
    [("request_id", .text requestId), ("validated", .bool validated),
      ("reason", .text (failedReason.getD ""))]

def runGateCheck (dealingDate : String) (totalRequested totalApproved gateCapacity : Decimal) :
    Publication :=
  investorOperation "investor_ops.redemption.gate_applied"
    [("dealing_date", .text dealingDate), ("total_requested", .text (str totalRequested)),
      ("total_approved", .text (str totalApproved)), ("gate_capacity", .text (str gateCapacity))]

def executeRedemptions (redemptionAmount navPerShare shares : Decimal) : Publication :=
  investorOperation "investor_ops.redemption.executed"
    [("request_id", .text requestId), ("investor_id", .text investorId),
      ("amount", .text (str redemptionAmount)), ("nav_per_share", .text (str navPerShare)),
      ("shares_redeemed", .text (str shares))]

def confirmPayment (paymentReference : String) : Publication :=
  investorOperation "investor_ops.redemption.payment_confirmed"
    [("request_id", .text requestId), ("payment_reference", .text paymentReference)]

def cancelRedemption (reason cancelledBy : String) : Publication :=
  investorOperation "investor_ops.redemption.cancelled"
    [("request_id", .text requestId), ("reason", .text reason), ("cancelled_by", .text cancelledBy)]

def screenInvestor (kycStatus amlStatus screeningProvider : String) (sanctionsClear pepFlag : Bool) :
    Publication :=
  investorOperation "investor_ops.kyc.screened"
    [("investor_id", .text investorId), ("kyc_status", .text kycStatus),
      ("aml_status", .text amlStatus), ("sanctions_clear", .bool sanctionsClear),
      ("pep_flag", .bool pepFlag), ("screening_provider", .text screeningProvider)]

end Requests

end MiniHedge.Publishers
