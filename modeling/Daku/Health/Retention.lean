import Daku.Base.Retention
import Daku.Health.Events

/-!
# Retention of the event logs

`prune_health_events` and `prune_signal_events` of `crates/daku-core/src/persistence.rs` with
the number of rows they return. Of one Environment's events those of 90 days and less stay, at
most 500 and the newest of them; the programs of `Daku.Health.Events` are the case in which
`ORDER BY observed_at DESC` lists the events of one second backwards.
-/

namespace Daku.Health

open Daku.Base Daku.Store

/-- An event log as its table has it: a primary key, and timestamps of 64 bits
(`0001_petite_morbius.sql:9–17`, `0003_big_sister_grimm.sql:1–8`). -/
structure IsLog {α κ : Type} (key : α → κ) (observedAt : α → Int) (rows : List α) : Prop where
  nodup : (rows.map key).Nodup
  min_le : ∀ r ∈ rows, i64Min ≤ observedAt r

/-- Both deletions from one of the logs (`persistence.rs:661–678, 761–778`). -/
def pruneEvents {α : Type} [DecidableEq α] {observedAt : α → Int} (order : Descending observedAt)
    (env : α → String) (environmentId : String) (now : Int) (rows : List α) : ℕ × List α :=
  retain order (fun r ↦ env r = environmentId) (satSub now healthEventsRetentionSecs)
    healthEventsMaxPerEnv rows

/-- `prune_health_events`, whose `ORDER BY` leaves the order of one second's events open
(`persistence.rs:656–680`). -/
def pruneHealthEventsBy (order : Descending HealthEvent.observedAt) (environmentId : String)
    (now : Int) (db : Db) : ℕ × Db :=
  let pruned := pruneEvents order HealthEvent.environmentId environmentId now db.healthEvents
  (pruned.1, { db with healthEvents := pruned.2 })

/-- `prune_signal_events`, whose `ORDER BY` leaves the order of one second's events open
(`persistence.rs:756–780`). -/
def pruneSignalEventsBy (order : Descending SignalEvent.observedAt) (environmentId : String)
    (now : Int) (db : Db) : ℕ × Db :=
  let pruned := pruneEvents order SignalEvent.environmentId environmentId now db.signalEvents
  (pruned.1, { db with signalEvents := pruned.2 })

section Log

variable {α κ : Type} {key : α → κ} {env : α → String} {observedAt : α → Int}
  {order : Descending observedAt} {environmentId : String} {now : Int} {rows kept : List α}

theorem IsLog.sublist (h : IsLog key observedAt rows) (hkept : kept.Sublist rows) :
    IsLog key observedAt kept where
  nodup := h.nodup.sublist (hkept.map key)
  min_le r hr := h.min_le r (hkept.subset hr)

/-- A recorded event keeps a log one. -/
theorem IsLog.insertNew [DecidableEq κ] {row : α} (h : IsLog key observedAt rows)
    (hrow : i64Min ≤ observedAt row) : IsLog key observedAt (insertNew key row rows) where
  nodup := nodup_insertNew h.nodup
  min_le r hr := by
    rcases mem_of_mem_insertNew hr with hr | rfl
    · exact h.min_le r hr
    · exact hrow

/-- A cutoff that saturates is below every timestamp that can be stored. -/
theorem lt_cutoff_iff {t : Int} (hnow : now ≤ i64Max) (ht : i64Min ≤ t) :
    t < satSub now healthEventsRetentionSecs ↔ t < now - healthEventsRetentionSecs := by
  simp only [satSub, clampI64, healthEventsRetentionSecs, i64Min, i64Max] at *
  omega

variable [DecidableEq α]

/-- The deletions with the exact cutoff. -/
theorem IsLog.pruneEvents_eq (h : IsLog key observedAt rows) (hnow : now ≤ i64Max) :
    pruneEvents order env environmentId now rows =
      retain order (fun r ↦ env r = environmentId) (now - healthEventsRetentionSecs)
        healthEventsMaxPerEnv rows :=
  retain_congr fun r hr ↦ lt_cutoff_iff hnow (h.min_le r hr)

variable (env order environmentId) in
/-- Pruning a log keeps what it should. -/
theorem IsLog.retained_pruneEvents (h : IsLog key observedAt rows) (hnow : now ≤ i64Max) :
    Retained observedAt (fun r ↦ env r = environmentId) (now - healthEventsRetentionSecs)
      healthEventsMaxPerEnv rows (pruneEvents order env environmentId now rows).2 := by
  rw [h.pruneEvents_eq hnow]
  exact retained_retain (List.Nodup.of_map key h.nodup)

/-- A log that was pruned is not pruned further at the same time. -/
theorem IsLog.pruneEvents_pruneEvents (h : IsLog key observedAt rows) (hnow : now ≤ i64Max)
    (again : Descending observedAt) :
    pruneEvents again env environmentId now (pruneEvents order env environmentId now rows).2 =
      (0, (pruneEvents order env environmentId now rows).2) := by
  have hretained := h.retained_pruneEvents env order environmentId hnow
  rw [(h.sublist hretained.sublist).pruneEvents_eq hnow]
  exact hretained.retain_eq

/-- The two statements of a prune, where the events of one second are listed backwards. -/
theorem keepNewest_eq_pruneEvents : keepNewest env observedAt environmentId
      (rows.filter fun r ↦
        env r ≠ environmentId ∨ satSub now healthEventsRetentionSecs ≤ observedAt r) =
    (pruneEvents (.newestFirst observedAt) env environmentId now rows).2 := by
  have haged : (rows.filter fun r ↦
        env r ≠ environmentId ∨ satSub now healthEventsRetentionSecs ≤ observedAt r) =
      rows.filter fun r ↦
        ¬ (env r = environmentId ∧ observedAt r < satSub now healthEventsRetentionSecs) := by
    apply List.filter_congr
    intro r _
    rw [decide_eq_decide, not_and_or, not_lt]
  unfold keepNewest pruneEvents retain
  dsimp only [deleteWhere]
  rw [haged]
  apply List.filter_congr
  intro r _
  rw [decide_eq_decide, not_and_or, not_not]
  rfl

end Log

/-- The program of a prune leaves the same database. -/
theorem run_pruneHealthEvents (environmentId : String) (now : Int) (db : Db) :
    (pruneHealthEvents environmentId now).run db =
      (pruneHealthEventsBy (.newestFirst _) environmentId now db).2 := by
  unfold pruneHealthEventsBy
  dsimp only
  rw [← keepNewest_eq_pruneEvents]
  rfl

theorem run_pruneSignalEvents (environmentId : String) (now : Int) (db : Db) :
    (pruneSignalEvents environmentId now).run db =
      (pruneSignalEventsBy (.newestFirst _) environmentId now db).2 := by
  unfold pruneSignalEventsBy
  dsimp only
  rw [← keepNewest_eq_pruneEvents]
  rfl

theorem pruneHealthEventsBy_pruned {order : Descending HealthEvent.observedAt}
    {environmentId : String} {now : Int} {db : Db}
    (h : IsLog HealthEvent.key HealthEvent.observedAt db.healthEvents) (hnow : now ≤ i64Max)
    (again : Descending HealthEvent.observedAt) :
    pruneHealthEventsBy again environmentId now (pruneHealthEventsBy order environmentId now db).2 =
      (0, (pruneHealthEventsBy order environmentId now db).2) := by
  unfold pruneHealthEventsBy
  dsimp only
  rw [h.pruneEvents_pruneEvents hnow]

theorem pruneSignalEventsBy_pruned {order : Descending SignalEvent.observedAt}
    {environmentId : String} {now : Int} {db : Db}
    (h : IsLog SignalEvent.key SignalEvent.observedAt db.signalEvents) (hnow : now ≤ i64Max)
    (again : Descending SignalEvent.observedAt) :
    pruneSignalEventsBy again environmentId now (pruneSignalEventsBy order environmentId now db).2 =
      (0, (pruneSignalEventsBy order environmentId now db).2) := by
  unfold pruneSignalEventsBy
  dsimp only
  rw [h.pruneEvents_pruneEvents hnow]

/-- A prune removes of one Environment's log what is older than 90 days and all but the 500
newest of the rest. It returns how many events that are, changes nothing else, and finds nothing
to remove a second time, in whatever order either of them lists the events of one second. -/
theorem prune_retains_newest (health health' : Descending HealthEvent.observedAt)
    (signal signal' : Descending SignalEvent.observedAt) (environmentId : String) (now : Int)
    (hnow : now ≤ i64Max) (db : Db)
    (hhealth : IsLog HealthEvent.key HealthEvent.observedAt db.healthEvents)
    (hsignal : IsLog SignalEvent.key SignalEvent.observedAt db.signalEvents) :
    let ofHealth := pruneHealthEventsBy health environmentId now db
    let ofSignals := pruneSignalEventsBy signal environmentId now db
    (Retained HealthEvent.observedAt (fun e ↦ e.environmentId = environmentId)
        (now - healthEventsRetentionSecs) healthEventsMaxPerEnv db.healthEvents
        ofHealth.2.healthEvents ∧
      ofHealth.1 + ofHealth.2.healthEvents.length = db.healthEvents.length ∧
      ofHealth.2 = { db with healthEvents := ofHealth.2.healthEvents } ∧
      pruneHealthEventsBy health' environmentId now ofHealth.2 = (0, ofHealth.2)) ∧
    (Retained SignalEvent.observedAt (fun e ↦ e.environmentId = environmentId)
        (now - healthEventsRetentionSecs) healthEventsMaxPerEnv db.signalEvents
        ofSignals.2.signalEvents ∧
      ofSignals.1 + ofSignals.2.signalEvents.length = db.signalEvents.length ∧
      ofSignals.2 = { db with signalEvents := ofSignals.2.signalEvents } ∧
      pruneSignalEventsBy signal' environmentId now ofSignals.2 = (0, ofSignals.2)) := by
  intro ofHealth ofSignals
  constructor
  · exact ⟨hhealth.retained_pruneEvents _ _ _ hnow, length_retain, rfl,
      pruneHealthEventsBy_pruned hhealth hnow health'⟩
  · exact ⟨hsignal.retained_pruneEvents _ _ _ hnow, length_retain, rfl,
      pruneSignalEventsBy_pruned hsignal hnow signal'⟩

/-- An event of 93 days and an annotated one of now. -/
theorem prune_retains_newest_annotated :
    let events : List HealthEvent := [⟨"prod", -8035200, "health", none, "healthy", none, none⟩,
      ⟨"prod", 0, "health", some "healthy", "degraded", none, some "clone"⟩]
    let db : Db := { Db.empty with healthEvents := events }
    Retained HealthEvent.observedAt (fun e ↦ e.environmentId = "prod")
      (0 - healthEventsRetentionSecs) healthEventsMaxPerEnv events
      (pruneHealthEventsBy (.newestFirst _) "prod" 0 db).2.healthEvents := by
  intro events db
  exact (prune_retains_newest (.newestFirst _) (.newestFirst _) (.newestFirst _) (.newestFirst _)
    "prod" 0 (by decide) db ⟨by decide, by decide⟩ ⟨by decide, by decide⟩).1.1

end Daku.Health
