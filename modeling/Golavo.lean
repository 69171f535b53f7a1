import Golavo.Archive.Content
import Golavo.Archive.Export
import Golavo.Archive.Host
import Golavo.Archive.Inspect
import Golavo.Archive.Names
import Golavo.Archive.Overlay
import Golavo.Archive.Packing
import Golavo.Archive.Restore
import Golavo.Archive.RestoreCrash
import Golavo.Archive.RestoreEnds
import Golavo.Archive.RestoreRuns
import Golavo.Archive.RoundTrip
import Golavo.Clock
import Golavo.Connector.Disabling
import Golavo.Corrections.Chain
import Golavo.Corrections.Heads
import Golavo.Corrections.Lifecycle
import Golavo.Corrections.Requests
import Golavo.Corrections.Sanitize
import Golavo.Corrections.Sanitized
import Golavo.Corrections.Store
import Golavo.Corrections.Transactions
import Golavo.Corrections.Validation
import Golavo.Corrections.Verdicts
import Golavo.Corrections.Writes
import Golavo.Facts.Citations
import Golavo.Facts.Events
import Golavo.Facts.Evidence
import Golavo.Facts.Guardrails
import Golavo.Facts.History
import Golavo.Facts.Render
import Golavo.Follows.CalendarExport
import Golavo.Follows.CalendarRoundTrip
import Golavo.Follows.Evidence
import Golavo.Follows.History
import Golavo.Follows.Idempotent
import Golavo.Follows.LostEvents
import Golavo.Follows.Notifications
import Golavo.Follows.OneFollow
import Golavo.Follows.Reconcile
import Golavo.Follows.Rekeying
import Golavo.Follows.Service
import Golavo.Follows.SettlementRecords
import Golavo.Follows.SoundRuns
import Golavo.Follows.SoundStore
import Golavo.Follows.Steps
import Golavo.Follows.Store
import Golavo.Follows.Validate
import Golavo.Forecast.Markets
import Golavo.Forecast.Prediction
import Golavo.Forecast.Probabilities
import Golavo.Forecast.Ratings
import Golavo.Forecast.RatingsReplay
import Golavo.Forecast.RestDays
import Golavo.Forecast.ScoreMatrix
import Golavo.Forecast.Trajectory
import Golavo.Identity
import Golavo.Ingest.Annotations
import Golavo.Ingest.DomesticHeaders
import Golavo.Ingest.DomesticLayout
import Golavo.Ingest.DomesticLines
import Golavo.Ingest.DomesticResults
import Golavo.Ingest.DomesticRoundTrip
import Golavo.Ingest.DomesticSides
import Golavo.Ingest.DomesticTxt
import Golavo.Ingest.MatchIds
import Golavo.Ingest.MatchIndex
import Golavo.Ingest.MatchTable
import Golavo.Ingest.Pack
import Golavo.Ingest.Snapshot
import Golavo.Ingest.TeamNames
import Golavo.Ingest.WorldCup
import Golavo.Jobs.Lanes
import Golavo.Jobs.Safety
import Golavo.Jobs.Store
import Golavo.Ledger.AnchorOrder
import Golavo.Ledger.Artifact
import Golavo.Ledger.AuditTrail
import Golavo.Ledger.Calibration
import Golavo.Ledger.CalibrationCounts
import Golavo.Ledger.Canonical
import Golavo.Ledger.CheckpointChain
import Golavo.Ledger.CheckpointCrash
import Golavo.Ledger.CheckpointTamper
import Golavo.Ledger.Checkpoints
import Golavo.Ledger.Integrity
import Golavo.Ledger.PackStore
import Golavo.Ledger.Proof
import Golavo.Ledger.ProofBuilt
import Golavo.Ledger.ProofOfForecast
import Golavo.Ledger.Resolution
import Golavo.Ledger.ResolutionValid
import Golavo.Ledger.RoundTrip
import Golavo.Ledger.Seal
import Golavo.Ledger.SealIdentity
import Golavo.Ledger.SealMatch
import Golavo.Ledger.SealOnce
import Golavo.Ledger.SealValid
import Golavo.Ledger.Settlement
import Golavo.Ledger.SettlementReport
import Golavo.Ledger.SingleResolution
import Golavo.Ledger.SoundLedger
import Golavo.Ledger.Store
import Golavo.Ledger.Tamper
import Golavo.Lib.Apportion
import Golavo.Lib.Bins
import Golavo.Lib.Calendar
import Golavo.Lib.Check
import Golavo.Lib.Closure
import Golavo.Lib.Commute
import Golavo.Lib.Crash
import Golavo.Lib.Decimal
import Golavo.Lib.Depth
import Golavo.Lib.Dict
import Golavo.Lib.Directory
import Golavo.Lib.Effects
import Golavo.Lib.Fields
import Golavo.Lib.Folding
import Golavo.Lib.HashChain
import Golavo.Lib.Interleave
import Golavo.Lib.InverseCdf
import Golavo.Lib.Json
import Golavo.Lib.JsonIndent
import Golavo.Lib.JsonRoundTrip
import Golavo.Lib.JsonText
import Golavo.Lib.KeyedLog
import Golavo.Lib.Language
import Golavo.Lib.Lines
import Golavo.Lib.Ranking
import Golavo.Lib.RegexScan
import Golavo.Lib.Runs
import Golavo.Lib.Scan
import Golavo.Lib.Schema
import Golavo.Lib.Squeeze
import Golavo.Lib.Table
import Golavo.Lib.Words
import Golavo.Matches.Retired
import Golavo.Matches.Snapshots
import Golavo.Matches.Weather
import Golavo.Matches.WeatherRuns
import Golavo.Narration.Shape
import Golavo.Narration.ShapeLoss
import Golavo.Narration.ShapeRepair
import Golavo.Narration.SoftLanes
import Golavo.Narration.Tokens
import Golavo.Outlook.Bracket
import Golavo.Outlook.Knockout
import Golavo.Outlook.Planning
import Golavo.Outlook.Published
import Golavo.Outlook.Schedule
import Golavo.Outlook.ScoreSampling
import Golavo.Outlook.SeasonSlots
import Golavo.Outlook.SimulatedOrder
import Golavo.Outlook.Simulation
import Golavo.Outlook.Standings
import Golavo.Outlook.TableInvariance
import Golavo.Picks.Additive
import Golavo.Picks.File
import Golavo.Picks.LateCalls
import Golavo.Picks.OnePick
import Golavo.Picks.Record
import Golavo.Picks.Service
import Golavo.Picks.Steps
import Golavo.Picks.Summary
import Golavo.Refresh.Coordinator
import Golavo.Refresh.Generations
import Golavo.Refresh.JobEnds
import Golavo.Refresh.LastKnownGood
import Golavo.Refresh.Quarantine
import Golavo.Refresh.Receipts
import Golavo.Refresh.RuntimePack
import Golavo.Refresh.SilentGap
import Golavo.Research.Extract
import Golavo.Research.Importable
import Golavo.Time
