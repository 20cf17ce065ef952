import Daku.Health.Dashboard

/-!
# Health over MCP

`votes_of` and the two health tools of `crates/daku-core/src/mcp.rs:79–199`. A tool answers with
the pretty-printed text of a JSON document; the printer belongs to `serde_json`, and the
document is what is modelled.
-/

namespace Daku.Readers

open Daku.Protocol Daku.Store Daku.Health

/-- What the tools compute for one Environment (`mcp.rs:96–101`). -/
structure EnvVotes where
  reachability : Reachability
  votes : List (String × SignalState)
  payloads : List (String × String)
  observedAt : Int
  deriving DecidableEq, Repr

/-- The `reachability` text of a payload, if it is one of the three
(`mcp.rs:117–124`, `digest.rs:40–45`). -/
def payloadReachability (fromStr : FromStr) (payloadJson : String) : Option Reachability :=
  (fromStr payloadJson).bind fun payload ↦
    ((payload.get "reachability").bind Value.asStr).bind Reachability.parse

/-- The loop over the rows of one Environment (`mcp.rs:112–134`). -/
def votesOfRow (fromStr : FromStr) (acc : EnvVotes × Option Int) (snapshot : SignalSnapshot) :
    EnvVotes × Option Int :=
  let reachability :=
    if snapshot.signalId = availabilitySignalId then
      (payloadReachability fromStr snapshot.payloadJson).getD .reachable
    else acc.1.reachability
  let observedAt := max (acc.2.getD 0) snapshot.observedAt
  ({ reachability
     votes := acc.1.votes ++ [(snapshot.signalId, snapshotState snapshot)]
     payloads := acc.1.payloads ++ [(snapshot.signalId, snapshot.payloadJson)]
     observedAt }, some observedAt)

/-- The computed state of one Environment (`mcp.rs:103–141`). -/
def votesOf (fromStr : FromStr) (db : Db) (environmentId : String) : EnvVotes :=
  ((environmentSnapshots environmentId (loadAllSignalSnapshots db)).foldl
    (votesOfRow fromStr) (⟨.reachable, [], [], 0⟩, none)).1

/-- One row of `environments_list` (`mcp.rs:156–174`). The map behind `json!` sorts its keys. -/
def environmentRow (fromStr : FromStr) (db : Db) (environment : EnvironmentConfig) : Value :=
  let computed := votesOf fromStr db environment.id
  .object [
    ("health", .string (healthRollup computed.reachability computed.votes).asStr),
    ("id", .string environment.id),
    ("label", .string environment.label),
    ("platform", .string environment.platform.id),
    ("reachability", .string computed.reachability.asStr)]

/-- The answer of `environments_list` (`mcp.rs:154–176`). -/
def environmentsList (fromStr : FromStr) (db : Db) (environments : List EnvironmentConfig) :
    Value :=
  .array (environments.map (environmentRow fromStr db))

/-- The configured Environment of that id (`mcp.rs:83–91`). -/
def findEnvironment (environments : List EnvironmentConfig) (id : String) :
    Except String EnvironmentConfig :=
  match environments.find? fun e ↦ e.id = id with
  | some environment => .ok environment
  | none => .error s!"unknown environment {id}"

/-- The answer of `health_get` (`mcp.rs:177–199`). -/
def healthGet (fromStr : FromStr) (db : Db) (environments : List EnvironmentConfig)
    (envId : String) : Except String Value := do
  let environment ← findEnvironment environments envId
  let computed := votesOf fromStr db envId
  return .object [
    ("health", .string (healthRollup computed.reachability computed.votes).asStr),
    ("id", .string environment.id),
    ("label", .string environment.label),
    ("reachability", .string computed.reachability.asStr),
    ("votes", .array (computed.votes.map fun vote ↦
      .object [("signal_id", .string vote.1), ("state", .string vote.2.asStr)]))]

/-- Both payload readers agree on what a payload says. -/
theorem getD_payloadReachability (fromStr : FromStr) (payloadJson : String) :
    (payloadReachability fromStr payloadJson).getD .reachable =
      wireReachability fromStr payloadJson := by
  rw [payloadReachability, wireReachability]
  cases fromStr payloadJson <;> rfl

/-- The tools see the votes the verdict sees, whatever the loop started from. -/
private theorem votes_foldl (fromStr : FromStr) (snapshots : List SignalSnapshot)
    (acc : EnvVotes × Option Int) :
    (snapshots.foldl (votesOfRow fromStr) acc).1.votes =
      acc.1.votes ++ snapshots.map fun s ↦ (s.signalId, snapshotState s) := by
  induction snapshots generalizing acc with
  | nil => exact (List.append_nil _).symm
  | cons s snapshots ih =>
    rw [List.foldl_cons, ih, List.map_cons]
    simp [votesOfRow]

private theorem reachability_foldl_of_other (fromStr : FromStr) (snapshots : List SignalSnapshot)
    (h : ∀ s ∈ snapshots, s.signalId ≠ availabilitySignalId) (acc : EnvVotes × Option Int) :
    (snapshots.foldl (votesOfRow fromStr) acc).1.reachability = acc.1.reachability := by
  induction snapshots generalizing acc with
  | nil => rfl
  | cons s snapshots ih =>
    rw [List.foldl_cons, ih fun t ht ↦ h t (List.mem_cons_of_mem _ ht)]
    exact if_neg (h s List.mem_cons_self)

/-- With one row per Signal, the tools read reachability off the availability row. -/
private theorem reachability_foldl (fromStr : FromStr) (snapshots : List SignalSnapshot)
    (hnodup : (snapshots.map SignalSnapshot.signalId).Nodup) (acc : EnvVotes × Option Int) :
    (snapshots.foldl (votesOfRow fromStr) acc).1.reachability =
      match snapshots.find? fun s ↦ s.signalId = availabilitySignalId with
      | some snapshot => wireReachability fromStr snapshot.payloadJson
      | none => acc.1.reachability := by
  induction snapshots generalizing acc with
  | nil => rfl
  | cons s snapshots ih =>
    obtain ⟨hnew, hnodup⟩ := List.nodup_cons.mp hnodup
    by_cases hs : s.signalId = availabilitySignalId
    · have hother : ∀ t ∈ snapshots, t.signalId ≠ availabilitySignalId := fun t ht heq ↦
        hnew (hs ▸ heq ▸ List.mem_map_of_mem ht)
      rw [List.foldl_cons, reachability_foldl_of_other fromStr snapshots hother,
        List.find?_cons_of_pos (by simpa using hs)]
      simp only [votesOfRow, if_pos hs]
      exact getD_payloadReachability fromStr s.payloadJson
    · rw [List.foldl_cons, ih hnodup, List.find?_cons_of_neg (by simpa using hs)]
      simp only [votesOfRow, if_neg hs]

/-- Reachability by the availability row alone, reachable when there is none. -/
def availabilityReachability (fromStr : FromStr) (envSnaps : List SignalSnapshot) :
    Reachability :=
  match envSnaps.find? fun s ↦ s.signalId = availabilitySignalId with
  | some snapshot => wireReachability fromStr snapshot.payloadJson
  | none => .reachable

/-- What the tools compute of an Environment: its votes, and reachability by the availability
row alone. -/
theorem votesOf_eq (fromStr : FromStr) (db : Db) (hkeys : SnapshotsKeyed db.signalSnapshots)
    (environmentId : String) :
    (votesOf fromStr db environmentId).votes =
        (verdict fromStr (loadAllSignalSnapshots db) environmentId).votes ∧
      (votesOf fromStr db environmentId).reachability = availabilityReachability fromStr
        (environmentSnapshots environmentId (loadAllSignalSnapshots db)) := by
  have hnodup := nodup_votes fromStr (snapshotsKeyed_load hkeys) environmentId
  rw [verdict, Health.decide, List.map_map] at hnodup
  exact ⟨votes_foldl fromStr _ _, reachability_foldl fromStr _ hnodup _⟩

end Daku.Readers
