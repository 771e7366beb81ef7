import QuantPlatform.AiContext.Columns
import QuantPlatform.AiContext.Extraction
import QuantPlatform.AiContext.History
import QuantPlatform.AiContext.Persistence
import QuantPlatform.AiContext.RoundTrip
import QuantPlatform.AiContext.Schema
import QuantPlatform.Core.Exceptions
import QuantPlatform.Core.LogStream
import QuantPlatform.Core.Logging
import QuantPlatform.Db.Columns
import QuantPlatform.Db.Database
import QuantPlatform.Db.Downgrade
import QuantPlatform.Db.EventUpsert
import QuantPlatform.Db.GetOrInsert
import QuantPlatform.Db.LatestSnapshot
import QuantPlatform.Db.MarketData
import QuantPlatform.Db.Migration
import QuantPlatform.Db.News
import QuantPlatform.Db.Orders
import QuantPlatform.Db.Periods
import QuantPlatform.Db.PlainEvents
import QuantPlatform.Db.PointInTime
import QuantPlatform.Db.Positions
import QuantPlatform.Db.Quality
import QuantPlatform.Db.RacingWriters
import QuantPlatform.Db.RevisionNumbers
import QuantPlatform.Db.Revisions
import QuantPlatform.Db.Runs
import QuantPlatform.Db.Strategy
import QuantPlatform.Db.SystemEvents
import QuantPlatform.Db.Upsert
import QuantPlatform.Effects.Budget
import QuantPlatform.Effects.Interleaving
import QuantPlatform.Effects.Program
import QuantPlatform.Effects.Record
import QuantPlatform.Effects.Retrying
import QuantPlatform.Effects.Twin
import QuantPlatform.Files.Tree
import QuantPlatform.Ingest.CandleHistory
import QuantPlatform.Ingest.Ingestors
import QuantPlatform.Ingest.Redelivery
import QuantPlatform.Ingest.Scheduler
import QuantPlatform.Ingest.StrategyMirror
import QuantPlatform.Ingest.StrategySync
import QuantPlatform.Ingest.Ticks
import QuantPlatform.Models.Alignment
import QuantPlatform.Models.Artifact
import QuantPlatform.Models.ArtifactStore
import QuantPlatform.Models.Calibration
import QuantPlatform.Models.Coherence
import QuantPlatform.Models.Completeness
import QuantPlatform.Models.Dataset
import QuantPlatform.Models.Evaluation
import QuantPlatform.Models.Features
import QuantPlatform.Models.Grouping
import QuantPlatform.Models.Leakage
import QuantPlatform.Models.OwnReturn
import QuantPlatform.Models.Storage
import QuantPlatform.Models.Training
import QuantPlatform.Python.Arithmetic
import QuantPlatform.Python.Data
import QuantPlatform.Python.Datetime
import QuantPlatform.Python.DecimalOrder
import QuantPlatform.Python.DecimalRange
import QuantPlatform.Python.JsonText
import QuantPlatform.Python.LiveDict
import QuantPlatform.Python.Objects
import QuantPlatform.Python.Raise
import QuantPlatform.Python.Sequences
import QuantPlatform.Python.StrEnum
import QuantPlatform.Regime.Classifier
import QuantPlatform.Regime.History
import QuantPlatform.Relational.Ascending
import QuantPlatform.Relational.Identity
import QuantPlatform.Relational.Query
import QuantPlatform.Relational.Table
import QuantPlatform.Relational.Upserts
import QuantPlatform.Research.Catalog
import QuantPlatform.Research.Models
import QuantPlatform.Research.Refinement
import QuantPlatform.Research.Registry
import QuantPlatform.Research.Savers
import QuantPlatform.Scanners.Definedness
import QuantPlatform.Scanners.Events
import QuantPlatform.Scanners.Gate
import QuantPlatform.Scanners.Isolation
import QuantPlatform.Scanners.Observations
import QuantPlatform.Scanners.Persistence
import QuantPlatform.Scanners.Pipeline
import QuantPlatform.Scanners.Replay
import QuantPlatform.Scanners.Resume
import QuantPlatform.Scanners.Segregation
import QuantPlatform.Scanners.SignalHistory
import QuantPlatform.Scanners.Stages
import QuantPlatform.Scanners.StrategyRules
import QuantPlatform.Scanners.Tightening
import QuantPlatform.Scanners.Totality
import QuantPlatform.Scanners.Universe
import QuantPlatform.Signals.Engine
import QuantPlatform.Signals.Parity
import QuantPlatform.Temporal.Fact
import QuantPlatform.Temporal.Rounds
import QuantPlatform.Toss.Auth
import QuantPlatform.Toss.Budget
import QuantPlatform.Toss.Client
import QuantPlatform.Toss.Errors
import QuantPlatform.Toss.Factory
import QuantPlatform.Toss.Freshness
import QuantPlatform.Toss.Gateway
import QuantPlatform.Toss.Grants
import QuantPlatform.Toss.Health
import QuantPlatform.Toss.HttpClient
import QuantPlatform.Toss.Leak
import QuantPlatform.Toss.Numbers
import QuantPlatform.Toss.Pacing
import QuantPlatform.Toss.RateLimit
import QuantPlatform.Toss.Records
import QuantPlatform.Toss.Recovery
import QuantPlatform.Toss.Retry
import QuantPlatform.Toss.Secrets
import QuantPlatform.Toss.Traffic
import QuantPlatform.Toss.Transport
import QuantPlatform.Toss.Wire
import QuantPlatform.Toss.World
import QuantPlatform.Transactions.Upserts
