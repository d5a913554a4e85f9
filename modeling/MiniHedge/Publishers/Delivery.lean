import MiniHedge.Publishers.Accounting
import MiniHedge.Publishers.Research
import MiniHedge.Shared.AvroBinary

/-! Which of the events that the application publishes arrive as they were sent.

A publisher and the table of schemas are written apart. The events of some
publishers have a type without a schema and are dropped; those of some others
lack a field that their schema has, and are dropped or come back with a null
in it; and those of two have a field more than their schema, which is lost.
-/

set_option autoImplicit false

namespace MiniHedge.Publishers

open MiniHedge.Python MiniHedge.Library MiniHedge.Shared

/-! ## Publishers -/

/-- The places that publish events. -/
inductive Publisher where
  | handleTrade | publishDownstream | handlePriceUpdate
  | publishCreated | publishTradeDecision | publishTradeExecuted | publishFilled | allocateFills
  | complianceDecision | publishViolation | publishViolationResolved
  | publishExposureEvent | publishRiskEvent | publishLimitBreach
  | calculateBrinsonFachler | calculateCumulative | publishIntentsEvent | processSingle
  | publishSettlementEvent | publishCashProjected | publishSettlementDue | publishBalanceWarning
  | allocateDaily | processSubscription | processRedemption
  | accrueDailyFees | crystallizeFees | approveAccruals
  | openForward | closeForward | rollForward | markToMarketAll | getHedgeRecommendations
  | computeForOrder | createMasterFeederLink | createBook | addFofHolding
  | generateFormPf | generate13f | generateInvestorStatement | generatePerformanceLetter
  | submitSubscription | recordKycDecision | opsReview | gpDecision | confirmWire
  | executeSubscriptions | cancelSubscription
  | submitRedemption | validateRedemption | runGateCheck | executeRedemptions | confirmPayment
  | cancelRedemption | screenInvestor
  | publishSnapshot | makePriceEvent | publishFeedStatus | bridgePriceEvent
  | publishInstrumentEvent | submitBacktest
  | computeFactorExposures | detectRegime | createFeed | ingestData
  | registerFeature | computeFeaturesBatch | runAnalysis | createResearchNote
  deriving DecidableEq, Repr

section Built

variable (str : Decimal → String)

/-- What a publisher builds. -/
inductive Published : Publisher → Publication → Prop
  | handleTrade (context : Positions.RequestContext) (trade : Positions.Trade) :
    Published .handleTrade (handleTrade str context trade)
  | publishDownstream {position next : Positions.PositionAggregate} {event : Positions.TradeEvent}
    {downstream : List Positions.DownstreamEvent}
    (applied : position.apply event = .ok (next, downstream))
    (fundSlug actorId actorType : Option String) {message : Positions.Message}
    (member : message ∈ Positions.publishDownstream fundSlug actorId actorType downstream) :
    Published .publishDownstream (ofMessage str message)
  | handlePriceUpdate (fundSlug : String) (data : PnLMarkToMarketData) :
    Published .handlePriceUpdate (handlePriceUpdate str fundSlug data)
  | publishCreated (order : PublishedOrder) (fundSlug : String) :
    Published .publishCreated (publishCreated str order fundSlug)
  | publishTradeDecision (order : PublishedOrder) (fundSlug : String) (approved : Bool) :
    Published .publishTradeDecision (publishTradeDecision str order fundSlug approved)
  | publishTradeExecuted (order : PublishedOrder) (fundSlug tradeId : String)
    (fillQuantity fillPrice : Decimal) :
    Published .publishTradeExecuted
      (publishTradeExecuted str order fundSlug tradeId fillQuantity fillPrice)
  | publishFilled (order : PublishedOrder) (fundSlug : String) (fillQuantity fillPrice : Decimal) :
    Published .publishFilled (publishFilled str order fundSlug fillQuantity fillPrice)
  | allocateFills (fundSlug allocationId portfolioId instrumentId tradeId : String)
    (side : Orders.OrderSide) (fillQty avgPrice : Decimal) :
    Published .allocateFills (allocateFills str fundSlug allocationId portfolioId instrumentId
      tradeId side fillQty avgPrice)
  | complianceDecision (fundSlug portfolioId instrumentId side : String) (quantity price : Decimal)
    (approved : Bool) (blockedBy : List String) :
    Published .complianceDecision (Compliance.publishTradeDecision str fundSlug portfolioId
      instrumentId side quantity price approved blockedBy)
  | publishViolation (fundSlug portfolioId : String) (record : PublishedViolation) :
    Published .publishViolation (publishViolation str fundSlug portfolioId record)
  | publishViolationResolved (fundSlug portfolioId : String) (record : PublishedViolation) :
    Published .publishViolationResolved (publishViolationResolved str fundSlug portfolioId record)
  | publishExposureEvent (fundSlug portfolioId : String)
    (grossExposure netExposure longExposure shortExposure : Decimal) :
    Published .publishExposureEvent (publishExposureEvent str fundSlug portfolioId grossExposure
      netExposure longExposure shortExposure)
  | publishRiskEvent (fundSlug portfolioId : String)
    (nav var951d var991d expectedShortfall95 : Decimal) :
    Published .publishRiskEvent (publishRiskEvent str fundSlug portfolioId nav var951d var991d
      expectedShortfall95)
  | publishLimitBreach (fundSlug portfolioId : String) (nav var951d : Decimal)
    (varPct limitPct : String) :
    Published .publishLimitBreach
      (publishLimitBreach str fundSlug portfolioId nav var951d varPct limitPct)
  | calculateBrinsonFachler (fundSlug portfolioId periodStart periodEnd : String)
    (activeReturn totalAllocation totalSelection : Decimal) :
    Published .calculateBrinsonFachler (calculateBrinsonFachler str fundSlug portfolioId periodStart
      periodEnd activeReturn totalAllocation totalSelection)
  | calculateCumulative (fundSlug portfolioId periodStart periodEnd : String) (periods : Nat)
    (cumulativeActiveReturn : Decimal) :
    Published .calculateCumulative (calculateCumulative str fundSlug portfolioId periodStart
      periodEnd periods cumulativeActiveReturn)
  | publishIntentsEvent (fundSlug portfolioId objective : String) (intentCount : Nat)
    (intents : String) :
    Published .publishIntentsEvent
      (publishIntentsEvent fundSlug portfolioId objective intentCount intents)
  | processSingle {processed after : List CorporateActions.ProcessedCorporateActionRecord}
    {position : UUID → String → Option Positions.CurrentPositionRecord}
    {fundSlug portfolioId : String} {draws : Nat → UUID} {action : CorporateActions.CorporateAction}
    {messages : List Positions.Message}
    (ran : CorporateActions.processSingle processed position fundSlug portfolioId draws action =
      .ok (after, messages)) {message : Positions.Message} (member : message ∈ messages) :
    Published .processSingle (ofMessage str message)
  | publishSettlementEvent (fundSlug portfolioId : String) (eventType : SettlementEventType)
    (instrumentId : String) (amount : Decimal) (settlementDate : String) :
    Published .publishSettlementEvent (publishSettlementEvent str fundSlug portfolioId eventType
      instrumentId amount settlementDate)
  | publishCashProjected (fundSlug portfolioId : String) (horizonDays : Int) (baseCurrency : String)
    (closingBalances : List Decimal) :
    Published .publishCashProjected
      (publishCashProjected str fundSlug portfolioId horizonDays baseCurrency closingBalances)
  | publishSettlementDue (fundSlug portfolioId instrumentId : String) (amount : Decimal)
    (settlementDate : String) (daysUntilDue : Int) :
    Published .publishSettlementDue (publishSettlementDue str fundSlug portfolioId instrumentId
      amount settlementDate daysUntilDue)
  | publishBalanceWarning (fundSlug portfolioId : String) (projectedBalance : Decimal)
    (warningDate : String) :
    Published .publishBalanceWarning
      (publishBalanceWarning str fundSlug portfolioId projectedBalance warningDate)
  | allocateDaily (businessDate : String) (navPerShare : Decimal) (count : Nat)
    (fundPnl : Decimal) :
    Published .allocateDaily (allocateDaily str businessDate navPerShare count fundPnl)
  | processSubscription (businessDate : String) (navPerShare : Decimal)
    (investorId shareClass accountId : String) (amount shares : Decimal) :
    Published .processSubscription (processSubscription str businessDate navPerShare investorId
      shareClass accountId amount shares)
  | processRedemption (businessDate : String) (navPerShare : Decimal)
    (investorId shareClass accountId : String) (amount sharesToRedeem : Decimal) :
    Published .processRedemption (processRedemption str businessDate navPerShare investorId
      shareClass accountId amount sharesToRedeem)
  | accrueDailyFees (fundSlug portfolioId shareClass businessDate : String)
    (managementFee performanceFee nav : Decimal) :
    Published .accrueDailyFees (accrueDailyFees str fundSlug portfolioId shareClass businessDate
      managementFee performanceFee nav)
  | crystallizeFees (fundSlug portfolioId shareClass businessDate : String) :
    Published .crystallizeFees (crystallizeFees fundSlug portfolioId shareClass businessDate)
  | approveAccruals (fundSlug : String) (approvedIds : List String) (actorId : Option String) :
    Published .approveAccruals (approveAccruals fundSlug approvedIds actorId)
  | openForward (fundSlug forwardId baseCurrency quoteCurrency direction maturityDate : String)
    (notional contractRate : Decimal) :
    Published .openForward (openForward str fundSlug forwardId baseCurrency quoteCurrency direction
      maturityDate notional contractRate)
  | closeForward (fundSlug forwardId : String) (closeRate realizedPnl : Decimal) :
    Published .closeForward (closeForward str fundSlug forwardId closeRate realizedPnl)
  | rollForward (fundSlug oldForwardId newForwardId newMaturityDate : String)
    (newContractRate : Decimal) :
    Published .rollForward
      (rollForward str fundSlug oldForwardId newForwardId newMaturityDate newContractRate)
  | markToMarketAll (fundSlug portfolioId : String) (forwards : Nat) :
    Published .markToMarketAll (markToMarketAll fundSlug portfolioId forwards)
  | getHedgeRecommendations (fundSlug portfolioId : String) (recommendations : Nat) :
    Published .getHedgeRecommendations
      (getHedgeRecommendations fundSlug portfolioId recommendations)
  | computeForOrder (fundSlug orderId instrumentId : String)
    (totalCostBps implementationShortfallBps : Decimal) :
    Published .computeForOrder (computeForOrder str fundSlug orderId instrumentId totalCostBps
      implementationShortfallBps)
  | createMasterFeederLink (linkId masterSlug feederSlug : String) (allocationPct : Decimal) :
    Published .createMasterFeederLink
      (createMasterFeederLink str linkId masterSlug feederSlug allocationPct)
  | createBook (bookId fundSlug name level : String) (parentId : Option String)
    (targetPct : Decimal) :
    Published .createBook (createBook str bookId fundSlug name level parentId targetPct)
  | addFofHolding (holdingId fofSlug underlyingName : String) (underlyingSlug : Option String)
    (allocationPct : Decimal) (isInternal : Bool) :
    Published .addFofHolding
      (addFofHolding str holdingId fofSlug underlyingName underlyingSlug allocationPct isInternal)
  | generateFormPf (filingId fundSlug reportingPeriod frequency : String) :
    Published .generateFormPf (generateFormPf filingId fundSlug reportingPeriod frequency)
  | generate13f (filingId fundSlug reportingPeriod : String) (totalPositions : Nat) :
    Published .generate13f (generate13f filingId fundSlug reportingPeriod totalPositions)
  | generateInvestorStatement (statementId investorId periodStart periodEnd : String) :
    Published .generateInvestorStatement
      (generateInvestorStatement statementId investorId periodStart periodEnd)
  | generatePerformanceLetter (letterId fundSlug period : String) :
    Published .generatePerformanceLetter (generatePerformanceLetter letterId fundSlug period)
  | submitSubscription (requestId investorId : String) (amount : Decimal) (shareClass : String) :
    Published .submitSubscription (submitSubscription str requestId investorId amount shareClass)
  | recordKycDecision (requestId : String) (approved : Bool) (decisionBy : String) :
    Published .recordKycDecision (recordKycDecision requestId approved decisionBy)
  | opsReview (requestId : String) (approved : Bool) (decisionBy : String) :
    Published .opsReview (opsReview requestId approved decisionBy)
  | gpDecision (requestId : String) (approved : Bool) (decisionBy : String) :
    Published .gpDecision (gpDecision requestId approved decisionBy)
  | confirmWire (requestId wireReference : String) :
    Published .confirmWire (confirmWire requestId wireReference)
  | executeSubscriptions (requestId investorId : String)
    (requestedAmount navPerShare shares : Decimal) :
    Published .executeSubscriptions
      (executeSubscriptions str requestId investorId requestedAmount navPerShare shares)
  | cancelSubscription (requestId reason cancelledBy : String) :
    Published .cancelSubscription (cancelSubscription requestId reason cancelledBy)
  | submitRedemption (requestId investorId : String) (amount : Decimal) (noticeDate : String) :
    Published .submitRedemption (submitRedemption str requestId investorId amount noticeDate)
  | validateRedemption (requestId : String) (validated : Bool) (failedReason : Option String) :
    Published .validateRedemption (validateRedemption requestId validated failedReason)
  | runGateCheck (dealingDate : String) (totalRequested totalApproved gateCapacity : Decimal) :
    Published .runGateCheck
      (runGateCheck str dealingDate totalRequested totalApproved gateCapacity)
  | executeRedemptions (requestId investorId : String)
    (redemptionAmount navPerShare shares : Decimal) :
    Published .executeRedemptions
      (executeRedemptions str requestId investorId redemptionAmount navPerShare shares)
  | confirmPayment (requestId paymentReference : String) :
    Published .confirmPayment (confirmPayment requestId paymentReference)
  | cancelRedemption (requestId reason cancelledBy : String) :
    Published .cancelRedemption (cancelRedemption requestId reason cancelledBy)
  | screenInvestor (investorId kycStatus amlStatus screeningProvider : String)
    (sanctionsClear pepFlag : Bool) :
    Published .screenInvestor
      (screenInvestor investorId kycStatus amlStatus screeningProvider sanctionsClear pepFlag)
  | publishSnapshot (publishTopic : String) (snapshot : PriceSnapshot) :
    Published .publishSnapshot (publishSnapshot str publishTopic snapshot)
  | makePriceEvent (publishTopic instrumentId : String) (bid ask mid : Decimal) (volume : Int)
    (timestamp : String) :
    Published .makePriceEvent
      (makePriceEvent str publishTopic instrumentId bid ask mid volume timestamp)
  | publishFeedStatus (totalFeeds healthyFeeds staleFeeds : Nat) (staleInstruments : List String)
    (allHealthy : Bool) (checkedAt : String) :
    Published .publishFeedStatus
      (publishFeedStatus totalFeeds healthyFeeds staleFeeds staleInstruments allHealthy checkedAt)
  | publishInstrumentEvent (instrumentId ticker assetClass currency : String)
    (changes : Option (List String)) :
    Published .publishInstrumentEvent
      (publishInstrumentEvent instrumentId ticker assetClass currency changes)
  | backtestSubmitted (backtestId strategyName signalName : String) :
    Published .submitBacktest (backtestSubmitted backtestId strategyName signalName)
  | backtestCompleted (backtestId strategyName : String)
    (totalReturn sharpeRatio maxDrawdown : Decimal) :
    Published .submitBacktest
      (backtestCompleted str backtestId strategyName totalReturn sharpeRatio maxDrawdown)
  | backtestFailed (backtestId strategyName : String) :
    Published .submitBacktest (backtestFailed backtestId strategyName)
  | computeFactorExposures (factorName factorId asOfDate : String) (instrumentCount : Nat) :
    Published .computeFactorExposures
      (computeFactorExposures factorName factorId asOfDate instrumentCount)
  | detectRegime (regimeType confidence detectionMethod snapshotId : String) :
    Published .detectRegime (detectRegime regimeType confidence detectionMethod snapshotId)
  | createFeed (feedId name source frequency : String) (instruments : List String) :
    Published .createFeed (createFeed feedId name source frequency instruments)
  | ingestData (feedId : String) (records newCount : Nat) :
    Published .ingestData (ingestData feedId records newCount)
  | registerFeature (featureId name featureType computeMethod entityType : String) :
    Published .registerFeature
      (registerFeature featureId name featureType computeMethod entityType)
  | computeFeaturesBatch (featureNames : List String) (entityCount valuesComputed : Nat) :
    Published .computeFeaturesBatch
      (computeFeaturesBatch featureNames entityCount valuesComputed)
  | runAnalysis (analysisId analysisType modelUsed : String) (tokensUsed : Int)
    (instruments : List String) :
    Published .runAnalysis (runAnalysis analysisId analysisType modelUsed tokensUsed instruments)
  | createResearchNote (noteId title analysisType : String) (instruments tags : List String) :
    Published .createResearchNote
      (createResearchNote noteId title analysisType instruments tags)

/-- An event that a publisher publishes, with its topic. -/
inductive Publishes : Publisher → String → Shared.BaseEvent → Prop
  | publication {publisher : Publisher} {p : Publication} (built : Published str publisher p)
    (eventId timestamp : String) : Publishes publisher p.topic (p.event eventId timestamp)
  | bridge (envelope : VendorEnvelope) :
    Publishes .bridgePriceEvent (sharedTopic "prices.normalized")
      (Publishers.bridgePriceEvent envelope)

end Built

/-- The publishers whose events have all the fields of their schemas, and no others. -/
def intact : List Publisher :=
  [.handleTrade, .publishDownstream, .handlePriceUpdate, .publishCreated, .publishTradeDecision,
    .publishTradeExecuted, .publishFilled, .publishViolationResolved, .publishExposureEvent,
    .publishRiskEvent, .publishSettlementEvent]

/-- The publishers whose payloads lack a key of their schema, or have one that it lacks. -/
def misfits : List Publisher :=
  [.allocateFills, .complianceDecision, .publishViolation, .calculateBrinsonFachler, .calculateCumulative,
    .publishIntentsEvent, .publishCashProjected, .publishBalanceWarning, .publishFeedStatus, .allocateDaily,
    .processSubscription, .processRedemption]

/-! ## Schemas and payloads -/

variable {codec : AvroCodec} {str : Decimal → String}

/-- The type has a schema, and the data fits it. -/
def Fitting (codec : AvroCodec) (eventType : String) (data : Parameters) : Prop :=
  ∃ schema, eventSchemas.lookup eventType = some schema ∧ codec.Fits schema data

section Payload

variable {eventType : String} {data : Parameters}

theorem not_fitting_unregistered (missing : eventSchemas.lookup eventType = none) :
    ¬ Fitting codec eventType data := by
  rintro ⟨schema, found, -⟩
  rw [missing] at found
  cases found

/-- The schema has a field that the payload lacks, or the other way around. -/
theorem not_fitting_key (schema : AvroSchema)
    (found : eventSchemas.lookup eventType = some schema) (key : String)
    (apart : ¬ (key ∈ data.map (·.1) ↔ key ∈ schema.names)) : ¬ Fitting codec eventType data := by
  rintro ⟨other, same, fits⟩
  rw [found, Option.some.injEq] at same
  subst same
  exact apart (fits.has_key key)

theorem fitting_ordered (schema : AvroSchema) (found : eventSchemas.lookup eventType = some schema)
    (items : List.Forall₂ (fun field item =>
      field.name = item.1 ∧ field.type.accepts codec.exact item.2 = true) schema data) :
    Fitting codec eventType data :=
  ⟨schema, found, .of_forall₂ (eventSchemas_distinct found) items⟩

end Payload

theorem trade_fits {tradeType : String}
    (found : eventSchemas.lookup tradeType = some tradesExecutedV1)
    {portfolioId instrumentId sideText quantity price tradeId currencyCode : String}
    (known : sideText = "buy" ∨ sideText = "sell") :
    Fitting codec tradeType [("portfolio_id", .text portfolioId),
      ("instrument_id", .text instrumentId), ("side", .text sideText), ("quantity", .text quantity),
      ("price", .text price), ("trade_id", .text tradeId), ("currency", .text currencyCode)] := by
  apply fitting_ordered _ found
  simpa [tradesExecutedV1, side, currency, strings, avroField, AvroType.accepts] using known

theorem orderSide_known (side : Orders.OrderSide) : side.value = "buy" ∨ side.value = "sell" := by
  cases side <;> decide

theorem tradeSide_known (side : Positions.TradeSide) :
    side.value = "buy" ∨ side.value = "sell" := by
  cases side <;> decide

/-- The aggregate emits two kinds of events, under their own types. -/
theorem apply_downstream {position next : Positions.PositionAggregate}
    {event : Positions.TradeEvent}
    {downstream : List Positions.DownstreamEvent}
    (applied : position.apply event = .ok (next, downstream)) {d : Positions.DownstreamEvent}
    (member : d ∈ downstream) :
    (∃ data, d = .positionChanged .positionChanged data) ∨
      ∃ data, d = .pnlRealized .pnlRealized data := by
  have changed (a : Positions.PositionAggregate) (emitted : d = a.positionChangedEvent) :
      (∃ data, d = .positionChanged .positionChanged data) ∨
        ∃ data, d = .pnlRealized .pnlRealized data := .inl ⟨_, emitted⟩
  have both (a : Positions.PositionAggregate) (amount price : Decimal)
      (emitted : d ∈ [a.positionChangedEvent, a.pnlRealizedEvent amount price]) :
      (∃ data, d = .positionChanged .positionChanged data) ∨
        ∃ data, d = .pnlRealized .pnlRealized data := by
    rcases List.mem_pair.mp emitted with first | second
    · exact changed a first
    · exact .inr ⟨_, second⟩
  unfold Positions.PositionAggregate.apply at applied
  split at applied
  next =>
    unfold Positions.PositionAggregate.applyBuy at applied
    split at applied
    · cases applied
    · cases applied
      exact changed _ (List.mem_singleton.mp member)
  next =>
    unfold Positions.PositionAggregate.applySell at applied
    split at applied
    · cases applied
    · cases applied
      exact both _ _ _ member
  next =>
    unfold Positions.PositionAggregate.applySplit at applied
    split at applied
    · cases applied
    · obtain ⟨lots, -, result⟩ := bind_eq_ok.mp applied
      cases result
      exact changed _ (List.mem_singleton.mp member)
  next =>
    unfold Positions.PositionAggregate.applyDividend at applied
    split at applied
    · cases applied
    · cases applied
      exact both _ _ _ member
  next =>
    cases applied
    cases member

theorem downstream_fits {position next : Positions.PositionAggregate}
    {event : Positions.TradeEvent}
    {downstream : List Positions.DownstreamEvent}
    (applied : position.apply event = .ok (next, downstream))
    {fundSlug actorId actorType : Option String} {message : Positions.Message}
    (member : message ∈ Positions.publishDownstream fundSlug actorId actorType downstream) :
    Fitting codec (ofMessage str message).eventType (ofMessage str message).data := by
  obtain ⟨d, emitted, rfl⟩ := List.mem_map.mp member
  rcases apply_downstream applied emitted with ⟨data, rfl⟩ | ⟨data, rfl⟩
  · apply fitting_ordered positionsChangedV1 rfl
    simp [ofMessage, shown, Positions.DownstreamEvent.serializedData, positionsChangedV1, currency,
      strings, avroField, AvroType.accepts]
  · apply fitting_ordered positionsPnlRealizedV1 rfl
    simp [ofMessage, shown, Positions.DownstreamEvent.serializedData, positionsPnlRealizedV1,
      currency, strings, avroField, AvroType.accepts]

theorem processed_unregistered
    {processed after : List CorporateActions.ProcessedCorporateActionRecord}
    {position : UUID → String → Option Positions.CurrentPositionRecord}
    {fundSlug portfolioId : String} {draws : Nat → UUID} {action : CorporateActions.CorporateAction}
    {messages : List Positions.Message}
    (ran : CorporateActions.processSingle processed position fundSlug portfolioId draws action =
      .ok (after, messages)) {message : Positions.Message} (member : message ∈ messages) :
    eventSchemas.lookup message.event.eventType = none := by
  unfold CorporateActions.processSingle at ran
  split at ran
  next =>
    cases ran
    cases member
  next =>
    obtain ⟨portfolio, -, rest⟩ := bind_eq_ok.mp ran
    dsimp only at rest
    split at rest
    next =>
      cases rest
      cases member
    next actionType typed =>
      split at rest
      next =>
        cases rest
        cases member
      next adjustments computed =>
        cases rest
        rcases List.mem_append.mp member with adjustment | processed
        · obtain ⟨⟨adj, i⟩, -, sent⟩ := List.mem_flatMap.mp adjustment
          rcases List.mem_append.mp sent with quantity | cash
          · split at quantity
            · rw [List.mem_singleton.mp quantity]
              cases actionType <;> rfl
            · cases quantity
          · split at cash
            · rw [List.mem_singleton.mp cash]
              cases actionType <;> rfl
            · cases cash
        · rw [List.mem_singleton.mp processed]
          rfl

theorem fits_of_intact {publisher : Publisher} {p : Publication} (built : Published str publisher p)
    (member : publisher ∈ intact) : Fitting codec p.eventType p.data := by
  cases built with
  | handleTrade context trade =>
    refine trade_fits ?_ (tradeSide_known trade.side)
    unfold handleTrade Positions.Trade.eventType
    split <;> rfl
  | publishDownstream applied fundSlug actorId actorType inside => exact downstream_fits applied inside
  | handlePriceUpdate fundSlug data =>
    refine fitting_ordered positionsPnlMtmV1 rfl ?_
    simp [handlePriceUpdate, positionsPnlMtmV1, currency, strings, avroField, AvroType.accepts]
  | publishCreated order fundSlug =>
    refine fitting_ordered ordersCreatedV1 rfl ?_
    simpa [publishCreated, orderCreatedData, ordersCreatedV1, side, strings, avroField,
      AvroType.accepts] using orderSide_known order.side
  | publishTradeDecision order fundSlug approved =>
    refine trade_fits ?_ (orderSide_known order.side)
    cases approved <;> rfl
  | publishTradeExecuted order fundSlug tradeId fillQuantity fillPrice =>
    refine trade_fits ?_ (orderSide_known order.side)
    unfold publishTradeExecuted
    split <;> rfl
  | publishFilled order fundSlug fillQuantity fillPrice =>
    refine fitting_ordered ordersFilledV1 rfl ?_
    simpa [publishFilled, orderFilledData, ordersFilledV1, side, strings, avroField,
      AvroType.accepts] using orderSide_known order.side
  | publishViolationResolved fundSlug portfolioId record =>
    refine fitting_ordered complianceViolationV1 rfl ?_
    simp [publishViolationResolved, complianceViolationV1, strings, avroField, AvroType.accepts]
  | publishExposureEvent =>
    refine fitting_ordered exposureUpdatedV1 rfl ?_
    simp [publishExposureEvent, exposureUpdatedV1, strings, avroField, AvroType.accepts]
  | publishRiskEvent =>
    refine fitting_ordered riskUpdatedV1 rfl ?_
    simp [publishRiskEvent, riskUpdatedV1, strings, avroField, AvroType.accepts]
  | publishSettlementEvent fundSlug portfolioId eventType =>
    refine fitting_ordered cashSettlementV1 ?_ ?_
    · cases eventType <;> rfl
    · simp [publishSettlementEvent, cashSettlementV1, strings, avroField, AvroType.accepts]
  | _ => exact absurd member (by decide)

theorem not_fitting_of_misfit {publisher : Publisher} {p : Publication} (built : Published str publisher p)
    (member : publisher ∈ misfits) : ¬ Fitting codec p.eventType p.data := by
  cases built with
  | allocateFills fundSlug allocationId portfolioId instrumentId tradeId orderSide =>
    refine not_fitting_key tradesExecutedV1 ?_ "block_allocation_id" ?_
    · cases orderSide <;> rfl
    · simp [allocateFills, tradesExecutedV1, RecordSchema.names, side, currency, strings, avroField]
  | complianceDecision fundSlug portfolioId instrumentId sideText quantity price approved =>
    refine not_fitting_key tradesExecutedV1 ?_ "trade_id" ?_
    · cases approved <;> rfl
    · simp [Compliance.publishTradeDecision, tradesExecutedV1, RecordSchema.names, side, currency,
        strings, avroField]
  | publishViolation =>
    refine not_fitting_key complianceViolationV1 rfl "breach_type" ?_
    simp [publishViolation, complianceViolationV1, RecordSchema.names, strings, avroField]
  | calculateBrinsonFachler =>
    refine not_fitting_key attributionCalculatedV1 rfl "method" ?_
    simp [calculateBrinsonFachler, publishAttributionEvent, attributionCalculatedV1,
      RecordSchema.names, strings, avroField]
  | calculateCumulative =>
    refine not_fitting_key attributionCalculatedV1 rfl "method" ?_
    simp [calculateCumulative, publishAttributionEvent, attributionCalculatedV1,
      RecordSchema.names, strings, avroField]
  | publishIntentsEvent =>
    refine not_fitting_key ordersIntentsGeneratedV1 rfl "intent_id" ?_
    simp [publishIntentsEvent, ordersIntentsGeneratedV1, RecordSchema.names, side, strings,
      avroField]
  | publishCashProjected =>
    refine not_fitting_key cashProjectedV1 rfl "horizon_date" ?_
    simp [publishCashProjected, cashProjectedV1, RecordSchema.names, strings, avroField]
  | publishBalanceWarning =>
    refine not_fitting_key cashBalanceWarningV1 rfl "message" ?_
    simp [publishBalanceWarning, cashBalanceWarningV1, RecordSchema.names, strings, avroField]
  | publishFeedStatus =>
    refine not_fitting_key marketDataStatusV1 rfl "source" ?_
    simp [publishFeedStatus, marketDataStatusV1, RecordSchema.names, strings, avroField]
  | allocateDaily =>
    refine not_fitting_key capitalTransactionV1 rfl "investor_id" ?_
    simp [allocateDaily, capitalTransactionV1, RecordSchema.names, avroField]
  | processSubscription =>
    refine not_fitting_key capitalTransactionV1 rfl "fund_pnl" ?_
    simp [processSubscription, capitalTransactionV1, RecordSchema.names, avroField]
  | processRedemption =>
    refine not_fitting_key capitalTransactionV1 rfl "fund_pnl" ?_
    simp [processRedemption, capitalTransactionV1, RecordSchema.names, avroField]
  | _ => exact absurd member (by decide)

/-- The types that the others publish have no schema. -/
theorem unregistered {publisher : Publisher} {p : Publication} (built : Published str publisher p)
    (changed : publisher ∉ intact) (fits : publisher ∉ misfits) : eventSchemas.lookup p.eventType = none := by
  cases built with
  | processSingle ran member => exact processed_unregistered ran member
  | publishInstrumentEvent instrumentId ticker assetClass currency changes =>
    unfold publishInstrumentEvent
    split <;> rfl
  | _ => first | rfl | exact absurd (by decide) changed | exact absurd (by decide) fits

/-- A publication fits its schema just when its publisher is one of those. -/
theorem fitting_iff {publisher : Publisher} {p : Publication} (built : Published str publisher p) :
    Fitting codec p.eventType p.data ↔ publisher ∈ intact := by
  constructor
  · intro fits
    by_contra changed
    by_cases misfit : publisher ∈ misfits
    · exact not_fitting_of_misfit built misfit fits
    · exact not_fitting_unregistered (unregistered built changed misfit) fits
  · exact fits_of_intact built

/-! ## Delivery -/

/-- What the vendor sends for a price. -/
theorem vendor_price_fits (instrumentId bid ask mid volume timestamp source : String) :
    Fitting codec "price.updated" [("instrument_id", .text instrumentId), ("bid", .text bid),
      ("ask", .text ask), ("mid", .text mid), ("volume", .text volume),
      ("timestamp", .text timestamp), ("source", .text source)] := by
  apply fitting_ordered pricesNormalizedV1 rfl
  simp [pricesNormalizedV1, strings, avroField, AvroType.accepts]

/-- An event that is published arrives with its type and its data just when its publisher is
one of those that keep to the schemas, or it comes from the vendor and fits its schema. -/
theorem published_arrives_iff {accepts : ProducerRecord → Bool}
    (taken : ∀ record, accepts record = true) {publisher : Publisher} {topic : String}
    {event : Shared.BaseEvent} (published : Publishes str publisher topic event) :
    Delivered codec accepts loadSchemas topic event ↔
      publisher ∈ intact ∨
        publisher = .bridgePriceEvent ∧ Fitting codec event.eventType event.data := by
  cases published with
  | publication built eventId timestamp =>
    rw [delivered_iff taken (by simp [Publication.event]) (by simp [Publication.event])]
    have other : publisher ≠ .bridgePriceEvent := by
      rintro rfl
      cases built
    simp only [other, false_and, or_false]
    exact fitting_iff built
  | bridge envelope =>
    rw [delivered_iff taken envelope.lower envelope.upper]
    have outside : Publisher.bridgePriceEvent ∉ intact := by decide
    simp only [outside, true_and, false_or]
    rfl

section Buy

def buyContext : Positions.RequestContext := ⟨some "alpha", some "u-1", some "user"⟩

def buyTrade : Positions.Trade where
  portfolioId := .ofNat 1
  instrumentId := "AAPL"
  side := .buy
  quantity := 100
  price := 10
  currency := "USD"
  tradeId := .ofNat 2

theorem published_arrives_buy :
    Delivered binaryCodec (fun _ => true) loadSchemas (handleTrade toString buyContext buyTrade).topic
      ((handleTrade toString buyContext buyTrade).event "e-1" "2024-01-02T00:00:00+00:00") :=
  (published_arrives_iff (fun _ => rfl) (.publication (.handleTrade buyContext buyTrade) _ _)).mpr
    (.inl (by decide))

end Buy

section Split

def splitAction : CorporateActions.CorporateAction where
  actionId := "a-1"
  instrumentId := "AAPL"
  actionType := "stock_split"
  amount := some 2

def splitPosition (portfolioId : UUID) (instrumentId : String) :
    Option Positions.CurrentPositionRecord :=
  some {
    portfolioId, instrumentId
    quantity := 100, avgCost := 10, costBasis := 1000, realizedPnl := 0, marketPrice := 10
    marketValue := 1000, unrealizedPnl := 0, currency := "USD" }

def splitMessage : Positions.Message where
  topic := fundTopic "alpha" "trades.executed"
  event := CorporateActions.quantityEvent "alpha" (UUID.ofNat 1).str (.ofNat 2)
    splitAction .stockSplit {
      instrumentId := "AAPL", quantityDelta := 100 * (2 - 1)
      costBasisAdjustment := 1000 * (1 / 2 - 1), cashAmount := 0 }

theorem split_published : Published toString .processSingle (ofMessage toString splitMessage) := by
  have doubled : CorporateActions.computeAdjustments .exact splitAction 100 1000 =
      .ok [{
        instrumentId := "AAPL", quantityDelta := 100 * (2 - 1)
        costBasisAdjustment := 1000 * (1 / 2 - 1), cashAmount := 0 }] := by
    decide +kernel
  have typed : splitAction.actionType = CorporateActions.ActionType.stockSplit.value := rfl
  have new : ∀ r ∈ ([] : List CorporateActions.ProcessedCorporateActionRecord),
      r.actionId ≠ splitAction.actionId := by simp
  refine .processSingle (CorporateActions.processSingle_typed splitPosition "alpha"
    (.ofNat 1) (fun _ => .ofNat 2) typed new doubled) ?_
  apply List.mem_append_left
  norm_num [List.zipIdx, CorporateActions.adjustmentMessages, splitMessage, fundTopic]

/-- A split doubles a position; its event, which the positions are to follow, is dropped. -/
theorem split_dropped :
    ∃ event, Publishes toString .processSingle (fundTopic "alpha" "trades.executed") event ∧
      event.eventType = "corporate_action.stock_split" ∧
      ∀ codec accepts,
        publish codec accepts loadSchemas (fundTopic "alpha" "trades.executed") event = .ok none ∧
        ¬ Delivered codec accepts loadSchemas (fundTopic "alpha" "trades.executed") event := by
  refine ⟨(ofMessage toString splitMessage).event "e-1" "2024-01-02T00:00:00+00:00",
    .publication split_published _ _, rfl, fun codec accepts => ?_⟩
  have dropped : publish codec accepts loadSchemas (fundTopic "alpha" "trades.executed")
      ((ofMessage toString splitMessage).event "e-1" "2024-01-02T00:00:00+00:00") = .ok none :=
    publish_unregistered rfl
  refine ⟨dropped, ?_⟩
  rintro ⟨record, sent, -⟩
  rw [dropped] at sent
  cases sent

end Split

end MiniHedge.Publishers
