import Daku.Signals.Decided
import Daku.Signals.Sessions

/-!
# What probes write

The payload of every observation, by the Signal. A probe that ends has read its counts, and what
it writes has the counts and the rows under their keys, whatever else it was answered.
-/

namespace Daku.Signals

open Daku.Base Daku.Protocol Daku.Http Daku.Collector

section Probes

variable {codec : Codec} {texts : Texts} {environment : EnvironmentConfig}
  {credentials : CredentialStore} {s : Session} {o : Observation}

/-- The payload of a jobs probe, with the rows and flags that it has. -/
def jobsPayload (overdueReady error : Nat) (overdueRows errorRows : List Value)
    (overdueTruncated errorTruncated throttled : Bool) : Value :=
  .object [
    ("error", countValue error),
    ("error_rows", .array errorRows),
    ("error_rows_truncated", .bool errorTruncated),
    ("overdue_ready", countValue overdueReady),
    ("overdue_rows", .array overdueRows),
    ("overdue_rows_truncated", .bool overdueTruncated),
    ("throttled", .bool throttled),
    ("throttled_detail", throttledValue throttled)]

/-- The two counts that a jobs probe reads. -/
def JobsCounts (codec : Codec) (texts : Texts) (environment : EnvironmentConfig)
    (credentials : CredentialStore) (s : Session) (overdueReady error : Nat) : Prop :=
  outcome (fetchAggregateCount codec texts environment credentials jobsOverduePath) s =
      .ok overdueReady ∧
    outcome (fetchAggregateCount codec texts environment credentials jobsErrorPath)
      (final (fetchAggregateCount codec texts environment credentials jobsOverduePath s)) =
        .ok error

/-- A jobs probe that ends writes the counts it read. -/
theorem jobsProbe_written (h : outcome (jobsProbe codec texts environment credentials) s = .ok o) :
    ∃ overdueReady error overdueRows errorRows overdueTruncated errorTruncated throttled,
      JobsCounts codec texts environment credentials s overdueReady error ∧
        o.payload = jobsPayload overdueReady error overdueRows errorRows overdueTruncated
          errorTruncated throttled ∧
        o.sample = (toF64 ((overdueReady + error) % 2 ^ 64 : Nat)).toRat := by
  rw [jobsProbe, outcome_attemptResult_bind, outcome_attemptResult_bind] at h
  obtain ⟨overdueReady, hoverdue, h⟩ := ok_of_outcome_ofExcept_bind h
  obtain ⟨error, herror, h⟩ := ok_of_outcome_ofExcept_bind h
  obtain ⟨overdue, -, h⟩ := ok_of_outcome_bind h
  obtain ⟨errors, -, h⟩ := ok_of_outcome_bind h
  obtain rfl := eq_of_outcome_pure h
  exact ⟨overdueReady, error, _, _, _, _, _, ⟨hoverdue, herror⟩, rfl, rfl⟩

/-- A probe of one count that ends writes its payload. -/
theorem countedProbe_written {ρ : Type} {countPath rowsPath : String} {map : Value → Option ρ}
    {state : Nat → Thresholds → SignalState}
    {payload : Nat → List ρ → Bool → Bool → List (String × Value)} {sampled : Bool}
    (h : outcome (countedProbe codec texts environment credentials countPath rowsPath map state
      payload sampled) s = .ok o) :
    ∃ count rows truncated throttled,
      o.payload = .object (payload count rows truncated throttled) := by
  rw [countedProbe] at h
  obtain ⟨count, -, h⟩ := ok_of_outcome_bind h
  obtain ⟨rows, -, h⟩ := ok_of_outcome_bind h
  obtain rfl := eq_of_outcome_pure h
  exact ⟨count, _, _, _, rfl⟩

theorem midEccProbe_written
    (h : outcome (midEccProbe codec texts environment credentials) s = .ok o) :
    ∃ (total eccError eccOutputReady : Nat) (unhealthyList : List Value), o.payload = .object [
      ("agents_total", countValue total),
      ("agents_unhealthy", countValue unhealthyList.length),
      ("agents_unhealthy_list", .array (unhealthyList.take unhealthyListLimit)),
      ("agents_unhealthy_list_truncated", .bool (unhealthyListLimit < unhealthyList.length)),
      ("ecc_error", countValue eccError),
      ("ecc_output_ready", countValue eccOutputReady)] := by
  rw [midEccProbe, outcome_attemptResult_bind, outcome_attemptResult_bind,
    outcome_attemptResult_bind] at h
  obtain ⟨agents, -, h⟩ := ok_of_outcome_ofExcept_bind h
  obtain ⟨ready, -, h⟩ := ok_of_outcome_ofExcept_bind h
  obtain ⟨error, -, h⟩ := ok_of_outcome_ofExcept_bind h
  obtain rfl := eq_of_outcome_pure h
  exact ⟨agents.1, error, ready, agents.2, rfl⟩

theorem upgradeProbe_written {unixNow : Int}
    (h : outcome (upgradeProbe codec environment credentials unixNow) s = .ok o) :
    ∃ upgrades : List UpgradeRow, o.payload = .object [
      ("failed_7d", countValue (failedUpgrades unixNow upgrades)),
      ("last_age_days", (((upgrades.head?).bind fun row ↦
        ageDays row.upgradeFinished unixNow).map intValue).getD .null),
      ("last_finished", optionalText (upgrades.head?.map UpgradeRow.upgradeFinished)),
      ("last_from", optionalText (upgrades.head?.map UpgradeRow.fromVersion)),
      ("last_to", optionalText (upgrades.head?.map UpgradeRow.toVersion)),
      ("upgrades", .array (upgrades.map UpgradeRow.toValue)),
      ("upgrades_truncated", .bool (rowListLimit ≤ upgrades.length))] := by
  rw [upgradeProbe] at h
  obtain ⟨response, -, h⟩ := ok_of_outcome_bind h
  obtain ⟨upgrades, -, h⟩ := ok_of_outcome_ofExcept_bind h
  obtain rfl := eq_of_outcome_pure h
  exact ⟨upgrades, rfl⟩

theorem transactionProbe_written
    (h : outcome (transactionProbe codec texts environment credentials) s = .ok o) :
    ∃ (avgMs : F64) (rows : List Value) (truncated : Bool), o.payload = .object [
      ("slow_rows", .array rows),
      ("slow_rows_truncated", .bool truncated),
      ("transaction_avg_ms", f64Value avgMs)] := by
  rw [transactionProbe] at h
  obtain ⟨avgMs, -, h⟩ := ok_of_outcome_bind h
  obtain ⟨slow, -, h⟩ := ok_of_outcome_bind h
  obtain rfl := eq_of_outcome_pure h
  exact ⟨avgMs, _, _, rfl⟩

theorem updateSetsProbe_written
    (h : outcome (updateSetsProbe codec environment credentials) s = .ok o) :
    ∃ (openSets : List UpdateSetRow) (truncated : Bool), o.payload = .object [
      ("open_count", countValue openSets.length),
      ("open_rows", .array (openSets.map UpdateSetRow.toValue)),
      ("open_rows_truncated", .bool truncated)] := by
  rw [updateSetsProbe] at h
  obtain ⟨sets, -, h⟩ := ok_of_outcome_bind h
  obtain rfl := eq_of_outcome_pure h
  exact ⟨_, _, rfl⟩

theorem scanProbe_written (h : outcome (scanProbe codec environment credentials) s = .ok o) :
    ∃ findings, o = scanObservation environment.thresholds findings := by
  rw [scanProbe] at h
  obtain ⟨response, -, h⟩ := ok_of_outcome_bind h
  obtain ⟨findings, -, h⟩ := ok_of_outcome_ofExcept_bind h
  exact ⟨findings, (eq_of_outcome_pure h).symm⟩

theorem actionsProbe_written {unixNow : Int}
    (h : outcome (actionsProbe codec environment credentials unixNow) s = .ok o) :
    ∃ runs : List RunRow, o.payload = .object [
      ("failed_24h", countValue runs.length),
      ("reachability", .string "reachable"),
      ("run_rows", .array (runs.map RunRow.toValue)),
      ("run_rows_truncated", .bool (rowListLimit ≤ runs.length))] := by
  rw [actionsProbe] at h
  split at h
  · cases h
  · obtain ⟨token, -, h⟩ := ok_of_outcome_ofExcept_bind h
    obtain ⟨response, -, h⟩ := ok_of_outcome_bind h
    obtain ⟨runs, -, h⟩ := ok_of_outcome_ofExcept_bind h
    obtain rfl := eq_of_outcome_pure h
    exact ⟨runs, rfl⟩

theorem sessionsProbe_written
    (h : outcome (sessionsProbe codec environment credentials) s = .ok o) :
    ∃ (activeSessions : Nat) (rows : List Value) (rowsTruncated truncated : Bool),
      o.payload = .object [
        ("active_sessions", countValue activeSessions),
        ("session_rows", .array rows),
        ("session_rows_truncated", .bool rowsTruncated),
        ("truncated", .bool truncated)] := by
  rw [sessionsProbe] at h
  obtain ⟨response, -, h⟩ := ok_of_outcome_bind h
  obtain ⟨sessions, -, h⟩ := ok_of_outcome_ofExcept_bind h
  obtain rfl := eq_of_outcome_pure h
  exact ⟨_, _, _, _, rfl⟩

end Probes

end Daku.Signals
