import NiftyShield.Client.SharedRateLimiter
import NiftyShield.Lib.Raising
import NiftyShield.Lib.Run
import NiftyShield.Lib.Selection
import NiftyShield.Paper.TrackSnapshot
import NiftyShield.Paper.CyclePnl
import NiftyShield.Payoff.Core
import NiftyShield.Portfolio.Replay
import NiftyShield.Portfolio.Rolls
import NiftyShield.Portfolio.OverlayQuantities
import NiftyShield.Portfolio.OverlayCoverage
import NiftyShield.Portfolio.Backups
import NiftyShield.Strategy.PriceUtils
import NiftyShield.Strategy.Protocol
import NiftyShield.Strategy.Executor
import NiftyShield.Strategy.ExecutorFailures
import NiftyShield.Strategy.CollarOverlay
import NiftyShield.Strategy.CollarEntry
import NiftyShield.Strategy.CollarSignals
import NiftyShield.Strategy.CspRoll
import NiftyShield.Strategy.CspNiftyV1
import NiftyShield.Strategy.CspClosing
import NiftyShield.Strategy.WarnEpisodes
import NiftyShield.Strategy.ProxyBreachDays
import NiftyShield.Strategy.TrackComparison
import NiftyShield.Strategy.IronCondor
import NiftyShield.ThreeTrack.EodExits
import NiftyShield.Strategy.SignalBooks
import NiftyShield.Strategy.SignalMarks
import NiftyShield.Signals.Pipeline
import NiftyShield.Signals.Majority
import NiftyShield.NiftyCalendar.MonthlyExpiries
import NiftyShield.NiftyCalendar.Selector
import NiftyShield.NiftyCalendar.PlanShape
import NiftyShield.Strategy.NiftyCalendarEntry
import NiftyShield.Paper.Closing
import NiftyShield.Notifications.ApprovalFlow
import NiftyShield.Notifications.ApprovalRuns
import NiftyShield.Notifications.Polling
import NiftyShield.Notifications.Telegram
import NiftyShield.Mf.Redemption
import NiftyShield.Mvp.SplitNeutrality
import NiftyShield.Mvp.Backfill
import NiftyShield.Mvp.Watch
import NiftyShield.Strategy.IcCycles
import NiftyShield.Strategy.IcCoverage
import NiftyShield.Strategy.IcPlainCondor
import NiftyShield.Strategy.ProfitLockFloor
import NiftyShield.Strategy.IcRollOrder
import NiftyShield.Strategy.IcRollCredit
import NiftyShield.Strategy.IcEntry
import NiftyShield.Strategy.PostExpiryGate
import NiftyShield.Strategy.SettlementRuns
import NiftyShield.Gamma.DailyWatch
import NiftyShield.Gamma.ExitCalls
import NiftyShield.Gamma.ScanRuns
import NiftyShield.Gamma.ExpiryRuns
import NiftyShield.Gamma.Calibration
import NiftyShield.Strategy.MonitorFaults
import NiftyShield.Strategy.ReEntryNotices
import NiftyShield.ThreeTrack.OverlayAlerts
import NiftyShield.ThreeTrack.PutRolls
import NiftyShield.ThreeTrack.ShortCalls
import NiftyShield.ThreeTrack.BaseRolls
import NiftyShield.Paper.Reconstruction
import NiftyShield.Client.CapabilityRouter
import NiftyShield.Client.ChainRows
import NiftyShield.Backtest.BhavcopySymbols
import NiftyShield.Backtest.VixIngest
import NiftyShield.Strategy.SymbolicKeys
import NiftyShield.Strategy.CollarRouting
import NiftyShield.Risk.EntryGate
import NiftyShield.Risk.CollateralGate
