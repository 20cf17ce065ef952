import Daku.Base.Int64
import Daku.Base.Text
import Daku.Base.Newest
import Daku.Base.Streak
import Daku.Base.Prog
import Daku.Base.Ledger
import Daku.Protocol.Json
import Daku.Protocol.Health
import Daku.Protocol.Environment
import Daku.Store.Db
import Daku.Store.Statements
import Daku.Health.Decide
import Daku.Health.Events
import Daku.Health.Due
import Daku.Health.Recorded
import Daku.Health.Debounce
import Daku.Health.CrashSafety
import Daku.Health.Dashboard
import Daku.Collector.Collect
import Daku.Collector.Loop
import Daku.Environments.Registry
import Daku.Environments.File
import Daku.Health.Republish
import Daku.Health.Rollup
import Daku.Health.SignalStreams
import Daku.Health.Retired
import Daku.Base.Interference
import Daku.Webhook.Relay
import Daku.Webhook.Requeue
import Daku.Webhook.Daemon
import Daku.Webhook.Cursor
import Daku.Webhook.Delivery
import Daku.Base.Triple
import Daku.Http.Client
import Daku.Http.Rules
import Daku.Http.Rotation
import Daku.Signals.Calendar
import Daku.Signals.Availability
import Daku.Signals.Platforms
import Daku.Http.Replies
import Daku.Environments.TestEnvironment
import Daku.Environments.Binding
import Daku.Environments.Fresh
import Daku.Readers.Mcp
import Daku.Readers.Digest
import Daku.Readers.OneHealth
import Daku.Wire.Message
import Daku.Desktop.DashboardState
import Daku.Wire.Cache
import Daku.Desktop.SameDashboard
import Daku.Desktop.Notifications
import Daku.Desktop.AnnouncedOnce
import Daku.Base.Machine
import Daku.Base.Parts
import Daku.Base.Bounded
import Daku.Base.Publication
import Daku.Wire.Assembly
import Daku.Wire.Interleaving
import Daku.Wire.Reader
import Daku.Client.Threads
import Daku.Client.Requests
import Daku.Client.Subscriptions
import Daku.Wire.Split
import Daku.Wire.Hub
import Daku.Wire.Blocks
import Daku.Wire.Traffic
import Daku.Wire.Delivery
import Daku.Wire.Replays
import Daku.Wire.Resync
import Daku.Desktop.SyncDrops
import Daku.Health.Informational
import Daku.Desktop.Summaries
import Daku.Desktop.AlertSurfaces
import Daku.Environments.Edits
import Daku.Store.Migrations
import Daku.Store.Openers
import Daku.Store.AppliedOnce
import Daku.Base.Semaphore
import Daku.Http.Limits
import Daku.Http.Balanced
import Daku.Http.InFlight
import Daku.Http.Crowding
import Daku.Http.CrowdedRuns
import Daku.Client.Supervisor
import Daku.Client.CurrentDaemon
import Daku.Wire.Lossless
import Daku.Readers.Tools
import Daku.Readers.Stdio
import Daku.Readers.Answered
import Daku.Base.Float64
import Daku.Signals.Tables
import Daku.Signals.Probes
import Daku.Signals.Decided
import Daku.Collector.Stored
import Daku.Signals.NoFalseHealthy
import Daku.Signals.Counted
import Daku.Base.Decimal
import Daku.Base.Cuts
import Daku.Base.Civil
import Daku.Base.Gregorian
import Daku.Signals.DayNumbers
import Daku.Signals.LastDay
import Daku.Readers.Redacted
import Daku.Base.Uri
import Daku.Webhook.Urls
import Daku.Diagnostics.Scrub
import Daku.Base.UriGrammar
import Daku.Webhook.Policy
import Daku.Desktop.DrillIn
import Daku.Desktop.Links
import Daku.Signals.StoredUrls
import Daku.Base.Walks
import Daku.Signals.Drift
import Daku.Base.Tokens
import Daku.Desktop.EnvSheet
import Daku.Desktop.Unedited
import Daku.Environments.Setup
import Daku.Http.Retries
import Daku.Base.FormUrlencoded
import Daku.Http.TokenForm
import Daku.Signals.Ages
import Daku.Base.Sums
import Daku.Protocol.Payload
import Daku.Signals.Sessions
import Daku.Signals.Written
import Daku.Desktop.CountSums
import Daku.Signals.DriftCollector
import Daku.Signals.LastCloneCollector
import Daku.Signals.Rounds
import Daku.Signals.EveryEnvironment
import Daku.Desktop.Seam
import Daku.Desktop.Sparkline
import Daku.Signals.RowQueries
import Daku.Desktop.HiddenRows
import Daku.Base.Joined
import Daku.Collector.Ticks
import Daku.Collector.Isolation
import Daku.Base.Retention
import Daku.Health.Retention
import Daku.Health.Startup
import Daku.Base.Register
import Daku.Base.Disk
import Daku.Files.AtomicWrite
import Daku.Files.Replaced
import Daku.Protocol.JsonText
import Daku.Files.Credentials
import Daku.Files.Linearized
import Daku.Files.PrettyJson
import Daku.Files.Answered
import Daku.Files.Settings
import Daku.Files.InEffect
import Daku.Wire.Gate
import Daku.Wire.Outside
import Daku.Wire.Authenticated
import Daku.Base.LastWrite
import Daku.Base.Alike
import Daku.Health.Notes
import Daku.Collector.NotesApart
import Daku.Desktop.Windows
import Daku.Desktop.Mutes
import Daku.Desktop.WeeklyDigest
import Daku.Collector.Pacing
import Daku.Webhook.Ticks
import Daku.Webhook.SingleFlight
import Daku.Desktop.AddSheet
import Daku.Desktop.CompareStrip
