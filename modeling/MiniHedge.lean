import MiniHedge.Positions.Fifo
import MiniHedge.Positions.TotalPnl
import MiniHedge.Positions.Delivery
import MiniHedge.Positions.Replay
import MiniHedge.Positions.Marks
import MiniHedge.Positions.Idempotency
import MiniHedge.CorporateActions.Agreement
import MiniHedge.CorporateActions.Holders
import MiniHedge.Orders.Redelivery
import MiniHedge.Orders.Parent
import MiniHedge.Orders.AlgoRunner
import MiniHedge.Orders.FeasibleLegs
import MiniHedge.Auth.Sessions
import MiniHedge.Auth.RevokeAccess
import MiniHedge.Auth.InvestorFunds
import MiniHedge.Eod.DailyPnl
import MiniHedge.Compliance.FailClosed
import MiniHedge.Compliance.ViolationRuns
import MiniHedge.CashManagement.Projected
import MiniHedge.CashManagement.Once
import MiniHedge.CashManagement.Ledger
import MiniHedge.InvestorOperations.Approvals
import MiniHedge.InvestorOperations.ExecutedOnce
import MiniHedge.InvestorOperations.Notice
import MiniHedge.InvestorOperations.Queueing
import MiniHedge.CapitalAccounts.OwnershipRuns
import MiniHedge.Audit.OrderChanges
import MiniHedge.Audit.CdcFormat
import MiniHedge.Audit.CdcConsumer
import MiniHedge.Audit.Tampering
import MiniHedge.Audit.Archives
import MiniHedge.Middleware.Once
import MiniHedge.Publishers.Delivery
import MiniHedge.FeeAccounting.Performance
import MiniHedge.Orders.RoutedQuantities
import MiniHedge.FxHedging.Hedged
import MiniHedge.FxHedging.Rolls
import MiniHedge.Shared.CircuitTrips
import MiniHedge.MockExchange.Cancels
import MiniHedge.MockExchange.BookRefinement
import MiniHedge.InvestorOperations.GateEngine
import MiniHedge.InvestorOperations.WholeRedemption
import MiniHedge.FeeAccounting.DailyAccruals
import MiniHedge.CapitalAccounts.FundCapital
import MiniHedge.Eod.ExactMatching
import MiniHedge.Orders.PreCheck
import MiniHedge.Compliance.RestrictedList
import MiniHedge.Orders.AlgoStrategies
import MiniHedge.Shared.DlqReplay
import MiniHedge.CashManagement.SettlementLadder
import MiniHedge.Compliance.Remediation
import MiniHedge.Compliance.GenericLimits
import MiniHedge.Exposure.Service
import MiniHedge.CashManagement.BusinessDays
import MiniHedge.CashManagement.Netting
import MiniHedge.CorporateActions.Basis
import MiniHedge.MarketData.Fx
import MiniHedge.Tca.CostEngine
import MiniHedge.Attribution.BrinsonFachler
import MiniHedge.Attribution.Linking
import MiniHedge.Attribution.Fx
import MiniHedge.CapitalAccounts.Distribution
import MiniHedge.Backtesting.LookAhead
import MiniHedge.Backtesting.Reproducible
import MiniHedge.MarketData.Ingestion
import MiniHedge.InvestorOperations.DealingDates
import MiniHedge.Regulatory.Statements
import MiniHedge.Auth.ServicingEdges
import MiniHedge.Backtesting.TearSheet
import MiniHedge.MockExchange.Scenarios
import MiniHedge.MockExchange.TradeTape
import MiniHedge.MockExchange.TradingHours
import MiniHedge.Realtime.Streams
import MiniHedge.RiskEngine.Calculator
import MiniHedge.AlphaEngine.WhatIf
