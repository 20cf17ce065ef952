import Daku.Readers.Mcp

/-!
# The weekly digest

`weekly_digest` of `crates/daku-core/src/digest.rs:14–122`: Markdown over the stored snapshots
and health events of one Environment.
-/

namespace Daku.Readers

open Daku.Base Daku.Protocol Daku.Store Daku.Health

/-- How long ago a time was (`digest.rs:113–122`). -/
def ago (now observedAt : Int) : String :=
  let secs := max (satSub now observedAt) 0
  if secs < 3600 then s!"{secs / 60}m ago"
  else if secs < 86400 then s!"{secs / 3600}h ago"
  else s!"{secs / 86400}d ago"

/-- The heading of a digest (`digest.rs:52–60`). -/
def digestHeading (environment : EnvironmentConfig) (days : Int) (health : EnvironmentHealth)
    (reachability : Reachability) : String :=
  s!"# Daku digest: {environment.label} ({environment.id})\n\nLast {days} day" ++
    (if days = 1 then "" else "s") ++
    (" · health " ++ health.asStr ++ " · " ++ reachability.asStr ++ "\n")

/-- The events of the digest's window, oldest first (`digest.rs:47–50`). -/
def digestEvents (db : Db) (environmentId : String) (now days : Int) : List HealthEvent :=
  let cutoff := satSub now (satMul days 86400)
  oldestFirst HealthEvent.observedAt <|
    (loadHealthEvents environmentId 500 db).filter fun e ↦ cutoff ≤ e.observedAt

/-- A section with one line for each event of a kind, or `none` (`digest.rs:61–98`). -/
def digestSection (title kind : String) (line : HealthEvent → String)
    (events : List HealthEvent) : String :=
  let rows := events.filter fun e ↦ e.kind = kind
  s!"\n## {title}\n" ++ if rows = [] then "none\n" else String.join (rows.map line)

/-- Everything below the heading (`digest.rs:61–109`). -/
def digestBody (now : Int) (events : List HealthEvent) (snapshots : List SignalSnapshot) :
    String :=
  digestSection "Health transitions" "health"
      (fun e ↦ "- " ++ ago now e.observedAt ++ ": " ++ e.fromHealth.getD "?" ++ " → " ++
        e.toHealth ++ "\n") events ++
    digestSection "Builds" "build"
      (fun e ↦ "- " ++ ago now e.observedAt ++ ": " ++ e.build.getD "?" ++ "\n") events ++
    "\n## Signals now\n" ++
    String.join ((snapshots.insertionSort fun a b ↦ a.signalId ≤ b.signalId).map fun s ↦
      s!"- {s.signalId}: {s.state}\n")

/-- The digest of one Environment (`digest.rs:14–110`). -/
def weeklyDigest (fromStr : FromStr) (db : Db) (environment : EnvironmentConfig)
    (now days : Int) : String :=
  let snapshots := environmentSnapshots environment.id (loadAllSignalSnapshots db)
  let votes := snapshots.map fun s ↦ (s.signalId, snapshotState s)
  let reachability :=
    ((snapshots.find? fun s ↦ s.signalId = availabilitySignalId).bind fun s ↦
      payloadReachability fromStr s.payloadJson).getD .reachable
  let health := healthRollup reachability votes
  digestHeading environment days health reachability ++
    digestBody now (digestEvents db environment.id now days) snapshots

/-- The digest's heading reports the roll-up by the availability row alone. -/
theorem weeklyDigest_eq (fromStr : FromStr) (db : Db) (environment : EnvironmentConfig)
    (now days : Int) :
    weeklyDigest fromStr db environment now days =
      let envSnaps := environmentSnapshots environment.id (loadAllSignalSnapshots db)
      digestHeading environment days
          (healthRollup (availabilityReachability fromStr envSnaps)
            (envSnaps.map fun s ↦ (s.signalId, snapshotState s)))
          (availabilityReachability fromStr envSnaps) ++
        digestBody now (digestEvents db environment.id now days) envSnaps := by
  have hreach : ∀ envSnaps : List SignalSnapshot,
      ((envSnaps.find? fun s ↦ s.signalId = availabilitySignalId).bind fun s ↦
        payloadReachability fromStr s.payloadJson).getD .reachable =
      availabilityReachability fromStr envSnaps := by
    intro envSnaps
    rw [availabilityReachability]
    cases envSnaps.find? fun s ↦ s.signalId = availabilitySignalId with
    | none => rfl
    | some s => exact getD_payloadReachability fromStr s.payloadJson
  simp only [weeklyDigest, hreach]

end Daku.Readers
