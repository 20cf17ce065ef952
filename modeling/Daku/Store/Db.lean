import Daku.Base.Newest
import Mathlib.Data.Rat.Defs
import Mathlib.Tactic.Common

/-!
# The state database

Rows and tables of `crates/daku-core/src/persistence.rs` and the migrations under
`db/migrations`. A table is the list of its rows in insertion (rowid) order; a table that is
only ever addressed by its whole primary key is a map. Sample and roll-up values, `f64` in the
source, are exact rationals. Queries read, statements (`Daku.Store.Statements`) write.
-/

namespace Daku.Store

open Daku.Base

/-- Latest observation of one Signal (`persistence.rs:212–219`). -/
structure SignalSnapshot where
  environmentId : String
  signalId : String
  observedAt : Int
  state : String
  payloadJson : String
  deriving DecidableEq, Repr

/-- One raw sample of a trend Signal (`persistence.rs:408–415`). -/
structure SignalSample where
  environmentId : String
  signalId : String
  observedAt : Int
  valueReal : Option Rat
  valueJson : Option String
  deriving DecidableEq, Repr

/-- One hour bucket (`persistence.rs:477–485`). -/
structure SignalRollup where
  environmentId : String
  signalId : String
  hourStart : Int
  avgReal : Option Rat
  maxReal : Option Rat
  sampleCount : Int
  deriving DecidableEq, Repr

/-- One health or build event (`persistence.rs:560–571`). -/
structure HealthEvent where
  environmentId : String
  observedAt : Int
  kind : String
  fromHealth : Option String
  toHealth : String
  build : Option String
  note : Option String
  deriving DecidableEq, Repr

/-- Streak state of one Environment (`persistence.rs:682–688`). -/
structure PublishState where
  lastHealth : String
  consecutive : Int
  previousHealth : Option String
  lastBuild : Option String
  deriving DecidableEq, Repr

/-- One confirmed Signal transition (`persistence.rs:692–699`). -/
structure SignalEvent where
  environmentId : String
  signalId : String
  observedAt : Int
  fromState : Option String
  toState : String
  deriving DecidableEq, Repr

/-- Streak state of one Signal (`persistence.rs:782–787`). -/
structure SignalPublishState where
  lastState : String
  consecutive : Int
  previousState : Option String
  deriving DecidableEq, Repr

/-- One undeliverable webhook event (`persistence.rs:999–1005`). -/
structure WebhookDeadLetter where
  environmentId : String
  observedAt : Int
  kind : String
  error : String
  deriving DecidableEq, Repr

/-- The tables the daemon and its command line share. -/
structure Db where
  signalSnapshots : List SignalSnapshot
  signalSamples : List SignalSample
  signalRollupsHourly : List SignalRollup
  healthEvents : List HealthEvent
  signalEvents : List SignalEvent
  dashboardPublishState : String → Option PublishState
  signalPublishState : String × String → Option SignalPublishState
  webhookCursor : String → Option Int
  webhookDeadLetters : List WebhookDeadLetter

namespace Db

/-- A fresh database after the migrations. -/
def empty : Db where
  signalSnapshots := []
  signalSamples := []
  signalRollupsHourly := []
  healthEvents := []
  signalEvents := []
  dashboardPublishState := fun _ ↦ none
  signalPublishState := fun _ ↦ none
  webhookCursor := fun _ ↦ none
  webhookDeadLetters := []

end Db

/-- Raw sample retention (`persistence.rs:470`). -/
def sampleRetentionSecs : Int := 24 * 60 * 60

/-- Roll-up retention (`persistence.rs:473`). -/
def rollupRetentionSecs : Int := 90 * 24 * 60 * 60

/-- Width of a roll-up bucket (`persistence.rs:474`). -/
def rollupBucketSecs : Int := 60 * 60

/-- Age bound of both event logs (`persistence.rs:557`). -/
def healthEventsRetentionSecs : Int := 90 * 24 * 60 * 60

/-- Count bound of both event logs for one Environment (`persistence.rs:558`). -/
def healthEventsMaxPerEnv : Nat := 500

/-- Dead letters kept for one Environment (`persistence.rs:969–976`). -/
def deadLettersMaxPerEnv : Nat := 500

namespace SignalSnapshot

/-- Primary key of `signal_snapshots`. -/
def key (s : SignalSnapshot) : String × String := (s.environmentId, s.signalId)

end SignalSnapshot

namespace SignalRollup

/-- Primary key of `signal_rollups_hourly`. -/
def key (r : SignalRollup) : String × String × Int := (r.environmentId, r.signalId, r.hourStart)

end SignalRollup

namespace HealthEvent

/-- Primary key of `health_events`. -/
def key (e : HealthEvent) : String × Int × String := (e.environmentId, e.observedAt, e.kind)

end HealthEvent

namespace SignalEvent

/-- Primary key of `signal_events`. -/
def key (e : SignalEvent) : String × String × Int := (e.environmentId, e.signalId, e.observedAt)

end SignalEvent

namespace WebhookDeadLetter

/-- Primary key of `webhook_dead_letters`. -/
def key (l : WebhookDeadLetter) : String × Int × String := (l.environmentId, l.observedAt, l.kind)

/-- `ORDER BY observed_at, kind`. -/
def le (a b : WebhookDeadLetter) : Prop :=
  a.observedAt < b.observedAt ∨ (a.observedAt = b.observedAt ∧ a.kind ≤ b.kind)

instance (a b : WebhookDeadLetter) : Decidable (le a b) := by
  unfold le
  infer_instance

end WebhookDeadLetter

section Queries

/-- Every snapshot, by Environment id and Signal id (`persistence.rs:359–379`). -/
def loadAllSignalSnapshots (db : Db) : List SignalSnapshot :=
  db.signalSnapshots.insertionSort fun a b ↦
    a.environmentId < b.environmentId ∨
      (a.environmentId = b.environmentId ∧ a.signalId ≤ b.signalId)

/-- The snapshot of one Signal (`persistence.rs:381–406`). -/
def loadSignalSnapshot (environmentId signalId : String) (db : Db) : Option SignalSnapshot :=
  db.signalSnapshots.find? fun s ↦ s.key = (environmentId, signalId)

/-- The newest `limit` events of one Environment, oldest first (`persistence.rs:618–652`). -/
def loadHealthEvents (environmentId : String) (limit : Nat) (db : Db) : List HealthEvent :=
  oldestFirst HealthEvent.observedAt <|
    newest HealthEvent.observedAt limit <|
      db.healthEvents.filter fun e ↦ e.environmentId = environmentId

/-- Streak state of an Environment (`persistence.rs:841–864`). -/
def loadPublishState (environmentId : String) (db : Db) : Option PublishState :=
  db.dashboardPublishState environmentId

/-- Streak state of a Signal (`persistence.rs:789–812`). -/
def loadSignalPublishState (environmentId signalId : String) (db : Db) :
    Option SignalPublishState :=
  db.signalPublishState (environmentId, signalId)

/-- Persisted relay cursor of an Environment (`persistence.rs:916–931`). -/
def loadWebhookCursor (environmentId : String) (db : Db) : Option Int :=
  db.webhookCursor environmentId

/-- Dead letters of an Environment, oldest first (`persistence.rs:1007–1029`). -/
def loadWebhookDeadLetters (environmentId : String) (db : Db) : List WebhookDeadLetter :=
  (db.webhookDeadLetters.filter fun l ↦ l.environmentId = environmentId).insertionSort
    WebhookDeadLetter.le

@[simp] theorem mem_loadAllSignalSnapshots {db : Db} {s : SignalSnapshot} :
    s ∈ loadAllSignalSnapshots db ↔ s ∈ db.signalSnapshots := by
  simp [loadAllSignalSnapshots, List.mem_insertionSort]

@[simp] theorem mem_loadWebhookDeadLetters {environmentId : String} {db : Db}
    {l : WebhookDeadLetter} :
    l ∈ loadWebhookDeadLetters environmentId db ↔
      l ∈ db.webhookDeadLetters ∧ l.environmentId = environmentId := by
  simp [loadWebhookDeadLetters, List.mem_insertionSort]

/-- Loaded events are rows of their Environment. -/
theorem mem_of_mem_loadHealthEvents {environmentId : String} {limit : Nat} {db : Db}
    {e : HealthEvent} (h : e ∈ loadHealthEvents environmentId limit db) :
    e ∈ db.healthEvents ∧ e.environmentId = environmentId := by
  rw [loadHealthEvents, mem_oldestFirst] at h
  simpa using mem_of_mem_newest h

end Queries

end Daku.Store
