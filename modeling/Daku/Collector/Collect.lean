import Daku.Health.Decide
import Daku.Health.Events

/-!
# Collectors

One `collect` call of a registered collector, from `crates/daku-core/src/collector.rs:99–240`
and `availability.rs:97–120`: every Environment it covers gets one snapshot, trend Signals also
get a sample and prune the old ones. What a probe returns is given from outside, and so is what
the two inventory collectors (`drift.rs`, `last_clone.rs`) find out about each Environment.
-/

namespace Daku.Collector

open Daku.Base Daku.Base.Prog Daku.Protocol Daku.Store Daku.Health

/-- `Value::to_string`, the writer of `serde_json`. -/
abbrev ToText := Value → String

/-- `serde_json` on the empty object, the payload of the runs stated below. -/
def emptyObjectFromStr : FromStr := fun text ↦ if text = "{}" then some (.object []) else none

/-- A ServiceNow Environment, for the runs stated below. -/
def prod : EnvironmentConfig where
  id := "prod"
  label := "Prod"
  instanceUrl := "https://prod.example.com"
  authMethod := .basic
  sortOrder := 0
  cloneSource := false
  platform := .servicenow
  thresholds := .default
  expectedDrift := []

/-- An HTTP Environment, for the runs stated below. -/
def shop : EnvironmentConfig :=
  { prod with id := "shop", instanceUrl := "https://shop.example.com", platform := .http }

/-- The fixed part of a Signal (`collector.rs:102–121`). -/
structure Signal where
  id : String
  gatedByAvailability : Bool
  keepsSamples : Bool
  deriving DecidableEq, Repr

/-- What one probe of one Environment produced (`collector.rs:93–97`). -/
structure Observation where
  state : SignalState
  payload : Value
  sample : Option Rat

/-- One `collect` call and what the instances answered. -/
inductive CollectorRun where
  /-- `PerEnvironmentCollector::collect` with the outcome of each probe. -/
  | perEnvironment (signal : Signal) (environments : List EnvironmentConfig) (observedAt : Int)
      (probe : EnvironmentConfig → Except String Observation)
  /-- `collect` of an inventory collector with the snapshot each Environment gets. -/
  | inventory (signalId : String) (environments : List EnvironmentConfig) (observedAt : Int)
      (finding : EnvironmentConfig → SignalState × Value)

namespace CollectorRun

/-- Signal a run writes. -/
def signalId : CollectorRun → String
  | .perEnvironment signal _ _ _ => signal.id
  | .inventory signalId _ _ _ => signalId

/-- Environments a run covers. -/
def environments : CollectorRun → List EnvironmentConfig
  | .perEnvironment _ environments _ _ => environments
  | .inventory _ environments _ _ => environments

/-- Clock reading at the start of a run, the stamp of its rows. -/
def observedAt : CollectorRun → Int
  | .perEnvironment _ _ observedAt _ => observedAt
  | .inventory _ _ observedAt _ => observedAt

end CollectorRun

/-- How long a reachability reading is reused (`availability.rs:97`). -/
def reachabilityReuseSecs : Int := 300

/-- Reachability the availability Signal recorded lately (`availability.rs:101–120`). -/
def recentReachability (fromStr : FromStr) (environmentId : String) (observedAt maxAgeSecs : Int)
    (db : Db) : Option Reachability := do
  let snapshot ← loadSignalSnapshot environmentId availabilitySignalId db
  if maxAgeSecs < satSub observedAt snapshot.observedAt then none
  else
    let payload ← fromStr snapshot.payloadJson
    let text ← (payload.get "reachability").bind Value.asStr
    Reachability.parse text

/-- `persist_signal_snapshot` (`persistence.rs:330–357`). -/
def persistSignalSnapshot (toText : ToText) (environmentId signalId : String) (observedAt : Int)
    (state : SignalState) (payload : Value) : DbProg Unit :=
  issue (.upsertSignalSnapshot {
    environmentId, signalId, observedAt, state := state.asStr, payloadJson := toText payload })

/-- `persist_signal_skipped` (`persistence.rs:289–306`). -/
def persistSignalSkipped (toText : ToText) (environmentId signalId : String) (observedAt : Int)
    (reason : String) : DbProg Unit :=
  persistSignalSnapshot toText environmentId signalId observedAt .skipped
    (.object [("skipped", .string reason)])

/-- `persist_signal_down` (`persistence.rs:309–328`). -/
def persistSignalDown (toText : ToText) (environmentId signalId : String) (observedAt : Int)
    (message : String) : DbProg Unit :=
  persistSignalSnapshot toText environmentId signalId observedAt .down
    (.object [("reachability", .string Reachability.unreachable.asStr),
      ("detail", .string message)])

/-- A gated Signal is not probed while its Environment is asleep or unreachable
(`collector.rs:167–175`). -/
def gate (fromStr : FromStr) (signal : Signal) (environmentId : String) (observedAt : Int)
    (db : Db) : Option Reachability :=
  if signal.gatedByAvailability then
    (recentReachability fromStr environmentId observedAt reachabilityReuseSecs db).filter
      fun r ↦ r = .asleep ∨ r = .unreachable
  else none

/-- `PerEnvironmentCollector::collect_environment` (`collector.rs:161–220`). -/
def collectEnvironment (fromStr : FromStr) (toText : ToText) (signal : Signal) (observedAt : Int)
    (probe : EnvironmentConfig → Except String Observation) (environment : EnvironmentConfig) :
    DbProg Unit := do
  match ← query (gate fromStr signal environment.id observedAt) with
  | some reachability =>
    persistSignalSkipped toText environment.id signal.id observedAt reachability.asStr
  | none =>
    match probe environment with
    | .ok observation =>
      persistSignalSnapshot toText environment.id signal.id observedAt observation.state
        observation.payload
      if observation.sample.isSome then
        issue (.insertSignalSample {
          environmentId := environment.id, signalId := signal.id, observedAt
          valueReal := observation.sample, valueJson := none })
    | .error message =>
      persistSignalDown toText environment.id signal.id observedAt message

/-- `SignalCollector::collect` (`collector.rs:224–239`, `drift.rs:213–308`,
`last_clone.rs:172–285`). -/
def collect (fromStr : FromStr) (toText : ToText) : CollectorRun → DbProg Unit
  | .perEnvironment signal environments observedAt probe => do
    each environments (collectEnvironment fromStr toText signal observedAt probe)
    if signal.keepsSamples then
      issue (.deleteSignalSamplesBefore (satSub observedAt sampleRetentionSecs))
  | .inventory signalId environments observedAt finding =>
    each environments fun environment ↦
      persistSignalSnapshot toText environment.id signalId observedAt
        (finding environment).1 (finding environment).2

/-- The collectors of one tick, one after the other (`collector.rs:312–384`). The groups of
different Environments write and read different keys, so their order does not matter. -/
def tick (fromStr : FromStr) (toText : ToText) (runs : List CollectorRun) : DbProg Unit :=
  each runs (collect fromStr toText)

/-- Statements of the snapshot and sample tables. -/
def WritesObservations : Statement → Prop
  | .upsertSignalSnapshot _ => True
  | .insertSignalSample _ => True
  | .deleteSignalSamplesBefore _ => True
  | _ => False

section Statements

variable (fromStr : FromStr) (toText : ToText)

/-- What holds of every statement a run issues: snapshots of its Signal for its Environments,
samples, and the prune that goes with them. -/
theorem only_collect_run {P : Statement → Prop} (run : CollectorRun)
    (hsnapshot : ∀ row : SignalSnapshot, (∃ e ∈ run.environments, row.environmentId = e.id) →
      row.signalId = run.signalId → P (.upsertSignalSnapshot row))
    (hsample : ∀ row, P (.insertSignalSample row))
    (hprune : P (.deleteSignalSamplesBefore (satSub run.observedAt sampleRetentionSecs))) :
    Only P (collect fromStr toText run) := by
  cases run with
  | perEnvironment signal environments observedAt probe =>
    have hrow : ∀ e ∈ environments, ∀ (state : SignalState) (payload : Value),
        Only P (persistSignalSnapshot toText e.id signal.id observedAt state payload) :=
      fun e he state payload ↦ only_issue (hsnapshot _ ⟨e, he, rfl⟩ rfl)
    refine only_bind (only_each _ fun e he ↦ only_bind (only_query _ _) fun r ↦ ?_) fun _ ↦ ?_
    · cases r with
      | some r => exact hrow e he _ _
      | none =>
        simp only
        cases probe e with
        | ok observation =>
          refine only_bind (hrow e he _ _) fun _ ↦ ?_
          split
          · exact only_issue (hsample _)
          · exact only_done _ _
        | error message => exact hrow e he _ _
    · split
      · exact only_issue hprune
      · exact only_done _ _
  | inventory signalId environments observedAt finding =>
    exact only_each _ fun e he ↦ only_issue (hsnapshot _ ⟨e, he, rfl⟩ rfl)

/-- A tick writes snapshots and samples only. -/
theorem only_tick (runs : List CollectorRun) : Only WritesObservations (tick fromStr toText runs) :=
  only_each _ fun run _ ↦ only_collect_run fromStr toText run (fun _ _ _ ↦ trivial)
    (fun _ ↦ trivial) trivial

/-- Parts of the database that a tick leaves alone. -/
theorem commit_writesObservations {c : Statement} (h : WritesObservations c) (db : Db) :
    (commit c db).dashboardPublishState = db.dashboardPublishState ∧
    (commit c db).signalPublishState = db.signalPublishState ∧
    (commit c db).healthEvents = db.healthEvents ∧
    (commit c db).signalEvents = db.signalEvents ∧
    (commit c db).signalRollupsHourly = db.signalRollupsHourly := by
  cases c with
  | upsertSignalSnapshot | insertSignalSample | deleteSignalSamplesBefore =>
    exact ⟨rfl, rfl, rfl, rfl, rfl⟩
  | _ => cases h

/-- Every statement acts on the snapshots alone. -/
theorem acts_signalSnapshots : Acts Statement Db.signalSnapshots := by
  intro c s t h
  cases c with
  | recordHourRollup =>
    simp only [commit_eq, Db.commit]
    split <;> split <;> exact h
  | upsertSignalSnapshot row =>
    simp only [commit_eq, Db.commit, h]
  | _ => exact h

/-- What a tick writes depends on the database only through the stored snapshots. -/
theorem readsThrough_tick (runs : List CollectorRun) :
    ReadsThrough Db.signalSnapshots (tick fromStr toText runs) := by
  have hacts := acts_signalSnapshots
  refine readsThrough_each hacts _ fun run ↦ ?_
  cases run with
  | perEnvironment signal environments observedAt probe =>
    refine (readsThrough_each hacts _ fun e ↦ ?_).bind hacts fun _ ↦ ?_
    · refine (readsThrough_query fun s t h ↦ ?_).bind hacts fun r ↦ ?_
      · simp only [gate, recentReachability, loadSignalSnapshot, h]
      · cases r with
        | some r => exact readsThrough_issue _
        | none =>
          simp only
          cases probe e with
          | ok observation =>
            refine (readsThrough_issue _).bind hacts fun _ ↦ ?_
            split
            · exact readsThrough_issue _
            · exact readsThrough_done _
          | error message => exact readsThrough_issue _
    · split
      · exact readsThrough_issue _
      · exact readsThrough_done _
  | inventory signalId environments observedAt finding =>
    exact readsThrough_each hacts _ fun e ↦ readsThrough_issue _

end Statements

end Daku.Collector
