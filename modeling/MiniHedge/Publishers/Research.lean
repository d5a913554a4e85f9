import MiniHedge.Publishers.Trading

/-! The events that market data, the security master, backtesting, quantitative
research, alternative data, the feature store and the analyses publish.
-/

set_option autoImplicit false

namespace MiniHedge.Publishers

open MiniHedge.Python MiniHedge.Shared

section MarketData

variable (str : Decimal → String)

structure PriceSnapshot where
  instrumentId : String
  bid : Decimal
  ask : Decimal
  mid : Decimal
  volume : Option String
  timestamp : String
  source : String
  deriving DecidableEq, Repr

/-- Ingestion publishes a price that it accepts, to the topic that it is given. -/
def publishSnapshot (publishTopic : String) (snapshot : PriceSnapshot) : Publication where
  topic := publishTopic
  eventType := "prices.normalized"
  data := [("instrument_id", .text snapshot.instrumentId), ("bid", .text (str snapshot.bid)),
    ("ask", .text (str snapshot.ask)), ("mid", .text (str snapshot.mid)),
    ("volume", BaseEvent.textOrNull snapshot.volume), ("timestamp", .text snapshot.timestamp),
    ("source", .text snapshot.source)]

/-- The three replays build their events alike; an event is given the time of its price. -/
def makePriceEvent (publishTopic instrumentId : String) (bid ask mid : Decimal) (volume : Int)
    (timestamp : String) : Publication where
  topic := publishTopic
  eventType := "prices.normalized"
  data := [("instrument_id", .text instrumentId), ("bid", .text (str bid)),
    ("ask", .text (str ask)), ("mid", .text (str mid)), ("volume", whole volume),
    ("timestamp", .text timestamp)]

def publishFeedStatus (totalFeeds healthyFeeds staleFeeds : Nat) (staleInstruments : List String)
    (allHealthy : Bool) (checkedAt : String) : Publication where
  topic := sharedTopic "market-data.status"
  eventType := "market_data.status"
  data := [("total_feeds", whole totalFeeds), ("healthy_feeds", whole healthyFeeds),
    ("stale_feeds", whole staleFeeds), ("stale_instruments", texts staleInstruments),
    ("all_healthy", .bool allHealthy), ("checked_at", .text checkedAt)]

/-- The envelope of the vendor's message; the versions of events are 32-bit integers. -/
structure VendorEnvelope where
  eventId : String
  eventType : String
  eventVersion : Int := 1
  timestamp : String
  data : Parameters
  actorId : Option String := none
  actorType : Option String := none
  fundSlug : Option String := none
  lower : -2 ^ 31 ≤ eventVersion := by decide
  upper : eventVersion < 2 ^ 31 := by decide

/-- The market data adapter publishes what the vendor sends. -/
def bridgePriceEvent (envelope : VendorEnvelope) : Shared.BaseEvent where
  eventId := envelope.eventId
  eventType := envelope.eventType
  eventVersion := envelope.eventVersion
  timestamp := envelope.timestamp
  data := envelope.data
  actorId := envelope.actorId
  actorType := envelope.actorType
  fundSlug := envelope.fundSlug

/-- `changes` is given for an update; when it names no field, the event does not either. -/
def publishInstrumentEvent (instrumentId ticker assetClass currency : String)
    (changes : Option (List String)) : Publication where
  topic := sharedTopic (if changes = none then "instruments.created" else "instruments.updated")
  eventType := if changes = none then "instrument.created" else "instrument.updated"
  data := [("instrument_id", .text instrumentId), ("ticker", .text ticker),
    ("asset_class", .text assetClass), ("currency", .text currency)] ++
      match changes.filter (· ≠ []) with
      | some names => [("changed_fields", texts names)]
      | none => []

end MarketData

section Audited

variable (str : Decimal → String)

/-- These services publish on the topic of the audit. -/
def auditEvent (eventType : String) (data : Parameters) : Publication where
  topic := sharedTopic "audit"
  eventType := eventType
  data := data

def backtestSubmitted (backtestId strategyName signalName : String) : Publication :=
  auditEvent "backtesting.submitted"
    [("backtest_id", .text backtestId), ("strategy_name", .text strategyName),
      ("signal_name", .text signalName)]

def backtestCompleted (backtestId strategyName : String)
    (totalReturn sharpeRatio maxDrawdown : Decimal) : Publication :=
  auditEvent "backtesting.completed"
    [("backtest_id", .text backtestId), ("strategy_name", .text strategyName),
      ("total_return", .text (str totalReturn)), ("sharpe_ratio", .text (str sharpeRatio)),
      ("max_drawdown", .text (str maxDrawdown))]

def backtestFailed (backtestId strategyName : String) : Publication :=
  auditEvent "backtesting.failed"
    [("backtest_id", .text backtestId), ("strategy_name", .text strategyName),
      ("error", .text "Internal engine error")]

def computeFactorExposures (factorName factorId asOfDate : String) (instrumentCount : Nat) :
    Publication :=
  auditEvent "quant_research.factor.computed"
    [("factor_name", .text factorName), ("factor_id", .text factorId),
      ("instrument_count", whole instrumentCount), ("as_of_date", .text asOfDate)]

def detectRegime (regimeType confidence detectionMethod snapshotId : String) : Publication :=
  auditEvent "quant_research.regime.detected"
    [("regime_type", .text regimeType), ("confidence", .text confidence),
      ("detection_method", .text detectionMethod), ("snapshot_id", .text snapshotId)]

def createFeed (feedId name source frequency : String) (instruments : List String) : Publication :=
  auditEvent "alt_data.feed.created"
    [("feed_id", .text feedId), ("name", .text name), ("source", .text source),
      ("frequency", .text frequency), ("instruments", texts instruments)]

def ingestData (feedId : String) (records newCount : Nat) : Publication :=
  auditEvent "alt_data.ingested"
    [("feed_id", .text feedId), ("data_points_ingested", whole records),
      ("total_record_count", whole newCount)]

def registerFeature (featureId name featureType computeMethod entityType : String) : Publication :=
  auditEvent "feature_store.feature.registered"
    [("feature_id", .text featureId), ("name", .text name), ("feature_type", .text featureType),
      ("compute_method", .text computeMethod), ("entity_type", .text entityType)]

def computeFeaturesBatch (featureNames : List String) (entityCount valuesComputed : Nat) :
    Publication :=
  auditEvent "feature_store.feature.computed"
    [("feature_names", texts featureNames), ("entity_count", whole entityCount),
      ("values_computed", whole valuesComputed)]

def runAnalysis (analysisId analysisType modelUsed : String) (tokensUsed : Int)
    (instruments : List String) : Publication :=
  auditEvent "ai_analysis.completed"
    [("analysis_id", .text analysisId), ("analysis_type", .text analysisType),
      ("model_used", .text modelUsed), ("tokens_used", whole tokensUsed),
      ("instruments", texts instruments)]

def createResearchNote (noteId title analysisType : String) (instruments tags : List String) :
    Publication :=
  auditEvent "ai_analysis.note.created"
    [("note_id", .text noteId), ("title", .text title), ("analysis_type", .text analysisType),
      ("instruments", texts instruments), ("tags", texts tags)]

end Audited

end MiniHedge.Publishers
