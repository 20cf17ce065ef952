import Daku.Base.Streak
import Daku.Health.Decide
import Daku.Store.Statements

/-!
# Publishing and event recording

`publish_dashboard`, `record_health_and_build_events` and `record_signal_events` of
`crates/daku-core/src/health.rs:176–573`, as programs over the state database that issue one
statement after the other. Serialized sizes and the throttle count, which only feed tick
telemetry, are left out.
-/

namespace Daku.Health

open Daku.Base Daku.Base.Prog Daku.Protocol Daku.Store

/-- Programs over the state database. -/
abbrev DbProg (α : Type) : Type := Prog Db Statement α

/-- Enforce both bounds of the health-event log (`persistence.rs:656–680`). -/
def pruneHealthEvents (environmentId : String) (now : Int) : DbProg Unit := do
  issue (.deleteHealthEventsBefore environmentId (satSub now healthEventsRetentionSecs))
  issue (.keepNewestHealthEvents environmentId)

/-- Enforce both bounds of the Signal-event log (`persistence.rs:756–780`). -/
def pruneSignalEvents (environmentId : String) (now : Int) : DbProg Unit := do
  issue (.deleteSignalEventsBefore environmentId (satSub now healthEventsRetentionSecs))
  issue (.keepNewestSignalEvents environmentId)

/-- Streak length and remembered value after one more sighting (`health.rs:435–443, 529–536`). -/
def extendStreak (current last : String) (consecutive : Int) (previous : Option String) :
    Int × Option String :=
  if current = last then (satAdd consecutive 1, previous) else (1, some last)

/-- Bounded `health_events` writes for one Environment publish (`health.rs:397–498`). -/
def recordHealthAndBuildEvents (environmentId : String) (health : EnvironmentHealth)
    (build : Option String) (now : Int) : DbProg Unit := do
  let current := health.asStr
  match ← query (loadPublishState environmentId) with
  | none =>
    issue (.storePublishState environmentId {
      lastHealth := current, consecutive := 1, previousHealth := none, lastBuild := build })
    match build with
    | some b =>
      issue (.recordHealthEvent {
        environmentId, observedAt := now, kind := HealthEventKind.build.asStr
        fromHealth := none, toHealth := current, build := some b, note := none })
    | none => pure ()
  | some state =>
    let (consecutive, previousHealth) :=
      extendStreak current state.lastHealth state.consecutive state.previousHealth
    -- Waiting never emits, and waiting to healthy is the first poll, not a recovery.
    let coldStartRecovery : Bool :=
      previousHealth = some EnvironmentHealth.waiting.asStr ∧
        current = EnvironmentHealth.healthy.asStr
    if current = state.lastHealth ∧ consecutive = 2 ∧
        current ≠ EnvironmentHealth.waiting.asStr ∧ ¬coldStartRecovery ∧
        previousHealth.any (· ≠ current) then
      issue (.recordHealthEvent {
        environmentId, observedAt := now, kind := HealthEventKind.health.asStr
        fromHealth := previousHealth, toHealth := current, build := none, note := none })
    if build.isSome ∧ build ≠ state.lastBuild then
      issue (.recordHealthEvent {
        environmentId, observedAt := now, kind := HealthEventKind.build.asStr
        fromHealth := some state.lastHealth, toHealth := current, build, note := none })
    issue (.storePublishState environmentId {
      lastHealth := current, consecutive, previousHealth, lastBuild := build })
  pruneHealthEvents environmentId now

/-- Writes for one vote (`health.rs:515–571`). -/
def recordSignalVote (environmentId : String) (now : Int) (vote : String × SignalState) :
    DbProg Unit := do
  let (signalId, state) := vote
  if state = .skipped then pure ()
  else
    let current := state.asStr
    match ← query (loadSignalPublishState environmentId signalId) with
    | none =>
      issue (.storeSignalPublishState environmentId signalId {
        lastState := current, consecutive := 1, previousState := none })
    | some stored =>
      let (consecutive, previousState) :=
        extendStreak current stored.lastState stored.consecutive stored.previousState
      if current = stored.lastState ∧ consecutive = 2 ∧ previousState.any (· ≠ current) then
        issue (.recordSignalEvent {
          environmentId, signalId, observedAt := now
          fromState := previousState, toState := current })
      issue (.storeSignalPublishState environmentId signalId {
        lastState := current, consecutive, previousState })

/-- Bounded per-Signal transition writes for one Environment publish (`health.rs:508–573`). -/
def recordSignalEvents (environmentId : String) (votes : List (String × SignalState))
    (now : Int) : DbProg Unit := do
  each votes (recordSignalVote environmentId now)
  pruneSignalEvents environmentId now

/-- Signals whose samples are published and rolled up (`health.rs:27`). -/
def trendSignals : List String := ["availability", "jobs", "syslog"]

/-- Events an Environment publishes (`health.rs:114`). -/
def healthEventPublishLimit : Nat := 100

/-- Summary of one published Environment (`protocol.rs:199–226`). -/
structure EnvironmentSummary where
  id : String
  label : String
  instanceUrl : String
  platformId : String
  health : EnvironmentHealth
  reachability : Reachability
  lastObservedAt : Option Int
  authMethod : AuthMethod
  cloneSource : Bool
  thresholds : Thresholds
  expectedDrift : List String
  sortOrder : Int
  pollIntervalSecs : Option Nat
  deriving DecidableEq, Repr

/-- A health event as it is published (`health.rs:321–336`). -/
structure HealthEventDto where
  observedAt : Int
  kind : HealthEventKind
  fromHealth : Option EnvironmentHealth
  toHealth : EnvironmentHealth
  build : Option String
  note : Option String
  deriving DecidableEq, Repr

/-- A Signal event as it is published (`health.rs:351–359`). -/
structure SignalEventDto where
  signalId : String
  observedAt : Int
  fromState : Option SignalState
  toState : SignalState
  deriving DecidableEq, Repr

/-- The dashboard messages one publish sends. -/
inductive ServerMessage where
  | environmentsUpdated (environments : List EnvironmentSummary)
  | signalSnapshotsUpdated (environmentId : String) (snapshots : List SignalSnapshot)
  | signalSamplesUpdated (environmentId signalId : String) (points : List (Int × Option Rat))
  | signalRollupsUpdated (environmentId signalId : String) (points : List SignalRollup)
  | healthEventsUpdated (environmentId : String) (events : List HealthEventDto)
  | signalEventsUpdated (environmentId : String) (events : List SignalEventDto)

/-- A stored event on the wire; unreadable rows are left out (`health.rs:322–336`). -/
def healthEventDto (event : HealthEvent) : Option HealthEventDto := do
  let kind ← HealthEventKind.parse event.kind
  let toHealth ← EnvironmentHealth.parse event.toHealth
  some {
    observedAt := event.observedAt, kind
    fromHealth := event.fromHealth.bind EnvironmentHealth.parse
    toHealth, build := event.build
    note := event.note.filter fun note ↦ trim note ≠ "" }

/-- A stored Signal event on the wire (`health.rs:352–359`). -/
def signalEventDto (event : SignalEvent) : Option SignalEventDto := do
  let toState ← SignalState.parse event.toState
  some {
    signalId := event.signalId, observedAt := event.observedAt
    fromState := event.fromState.bind SignalState.parse, toState }

/-- Snapshots of one Environment among the loaded ones (`health.rs:197–215`). -/
def environmentSnapshots (environmentId : String) (snapshots : List SignalSnapshot) :
    List SignalSnapshot :=
  snapshots.filter fun s ↦ s.environmentId = environmentId

/-- The summary an Environment is published with (`health.rs:221–239`). -/
def environmentSummary (decided : DecideOut) (envSnaps : List SignalSnapshot)
    (pollIntervalSecs : Nat) (environment : EnvironmentConfig) : EnvironmentSummary where
  id := environment.id
  label := environment.label
  instanceUrl := environment.instanceUrl
  platformId := environment.platform.id
  health := decided.health
  reachability := decided.reachability
  lastObservedAt := (envSnaps.map SignalSnapshot.observedAt).max?
  authMethod := environment.authMethod
  cloneSource := environment.cloneSource
  thresholds := environment.thresholds
  expectedDrift := environment.expectedDrift
  sortOrder := environment.sortOrder
  pollIntervalSecs := some (max pollIntervalSecs 1)

/-- Events and summary of one Environment (`health.rs:205–239`). -/
def publishEnvironment (fromStr : FromStr) (snapshots : List SignalSnapshot) (now : Int)
    (pollIntervalSecs : Nat) (environment : EnvironmentConfig) : DbProg EnvironmentSummary := do
  let envSnaps := environmentSnapshots environment.id snapshots
  let decided := decide fromStr envSnaps
  recordHealthAndBuildEvents environment.id decided.health decided.build now
  recordSignalEvents environment.id decided.votes now
  pure (environmentSummary decided envSnaps pollIntervalSecs environment)

/-- Start of the hour bucket a clock reading falls in (`health.rs:292`). The remainder is the
truncating one of `i64`. -/
def hourStart (now : Int) : Int := now - now.tmod rollupBucketSecs

/-- Samples and roll-ups of one trend Signal (`health.rs:271–316`). -/
def publishTrend (environmentId : String) (now : Int) (signalId : String) :
    DbProg (List ServerMessage) := do
  let samples ← query fun db ↦
    (oldestFirst SignalSample.observedAt <|
      db.signalSamples.filter fun s ↦ s.environmentId = environmentId ∧ s.signalId = signalId)
  let points := (samples.filter fun s ↦ satSub now sampleRetentionSecs ≤ s.observedAt).map
    fun s ↦ (s.observedAt, s.valueReal)
  issue (.recordHourRollup environmentId signalId (hourStart now))
  let rollups ← query fun db ↦
    (oldestFirst SignalRollup.hourStart <|
      db.signalRollupsHourly.filter fun r ↦
        r.environmentId = environmentId ∧ r.signalId = signalId ∧
          satSub now rollupRetentionSecs ≤ r.hourStart)
  pure [.signalSamplesUpdated environmentId signalId points,
    .signalRollupsUpdated environmentId signalId rollups]

/-- Drill-down messages of one Environment (`health.rs:248–371`). -/
def publishDetails (snapshots : List SignalSnapshot) (now : Int)
    (environment : EnvironmentConfig) : DbProg (List ServerMessage) := do
  let trends ← collect trendSignals (publishTrend environment.id now)
  issue (.deleteSignalRollupsBefore (satSub now rollupRetentionSecs))
  let events ← query (loadHealthEvents environment.id healthEventPublishLimit)
  let signalEvents ← query fun db ↦
    (oldestFirst SignalEvent.observedAt <|
      newest SignalEvent.observedAt healthEventPublishLimit <|
        db.signalEvents.filter fun e ↦ e.environmentId = environment.id)
  pure <|
    .signalSnapshotsUpdated environment.id (environmentSnapshots environment.id snapshots) ::
    trends.flatten ++
    [.healthEventsUpdated environment.id (events.filterMap healthEventDto),
      .signalEventsUpdated environment.id (signalEvents.filterMap signalEventDto)]

/-- One publish: events of every Environment, then its messages (`health.rs:176–373`). -/
def publishDashboard (fromStr : FromStr) (environments : List EnvironmentConfig) (now : Int)
    (pollIntervalSecs : Nat) : DbProg (List ServerMessage) := do
  let snapshots ← query loadAllSignalSnapshots
  let published ← collect environments
    (publishEnvironment fromStr snapshots now pollIntervalSecs)
  let details ← collect environments (publishDetails snapshots now)
  pure (.environmentsUpdated published :: details.flatten)

end Daku.Health
