import Daku.Health.Retention
import Mathlib.Data.List.Dedup

/-!
# Retention over whole runs

What every statement keeps of the two event logs, and `prune_all_for_startup` of
`crates/daku-core/src/persistence.rs:179–208`: a daemon that starts brings every Environment's
events back within both bounds, also those of an Environment that is configured no more.
-/

namespace Daku.Health

open Daku.Base Daku.Base.Prog Daku.Store

/-- Both event logs are as their tables have them. -/
structure Logs (db : Db) : Prop where
  health : IsLog HealthEvent.key HealthEvent.observedAt db.healthEvents
  signal : IsLog SignalEvent.key SignalEvent.observedAt db.signalEvents

/-- The timestamp of a recorded event has 64 bits. -/
def Storable : Statement → Prop
  | .recordHealthEvent event => i64Min ≤ event.observedAt
  | .recordSignalEvent event => i64Min ≤ event.observedAt
  | _ => True

theorem logs_empty : Logs Db.empty where
  health := ⟨List.nodup_nil, fun _ hr ↦ absurd hr List.not_mem_nil⟩
  signal := ⟨List.nodup_nil, fun _ hr ↦ absurd hr List.not_mem_nil⟩

/-- A statement keeps the logs. -/
theorem Logs.commit {db : Db} (h : Logs db) {c : Statement} (hc : Storable c) :
    Logs (commit c db) := by
  cases c with
  | recordHealthEvent event => exact ⟨h.health.insertNew hc, h.signal⟩
  | recordSignalEvent event => exact ⟨h.health, h.signal.insertNew hc⟩
  | deleteHealthEventsBefore => exact ⟨h.health.sublist List.filter_sublist, h.signal⟩
  | keepNewestHealthEvents => exact ⟨h.health.sublist List.filter_sublist, h.signal⟩
  | deleteSignalEventsBefore => exact ⟨h.health, h.signal.sublist List.filter_sublist⟩
  | keepNewestSignalEvents => exact ⟨h.health, h.signal.sublist List.filter_sublist⟩
  | recordHourRollup =>
    simp only [commit_eq, Db.commit]
    split <;> exact ⟨h.health, h.signal⟩
  | _ => exact ⟨h.health, h.signal⟩

/-- So does a prune, in whatever order it lists the events of one second. -/
theorem Logs.pruneHealthEventsBy {db : Db} (h : Logs db) (order : Descending HealthEvent.observedAt)
    (environmentId : String) (now : Int) :
    Logs (pruneHealthEventsBy order environmentId now db).2 :=
  ⟨h.health.sublist (List.filter_sublist.trans List.filter_sublist), h.signal⟩

theorem Logs.pruneSignalEventsBy {db : Db} (h : Logs db) (order : Descending SignalEvent.observedAt)
    (environmentId : String) (now : Int) :
    Logs (pruneSignalEventsBy order environmentId now db).2 :=
  ⟨h.health, h.signal.sublist (List.filter_sublist.trans List.filter_sublist)⟩

/-- What statements make of a fresh database; prunes may list the events of one second in any
order, and in another one each time. -/
inductive Reached : Db → Prop where
  | created : Reached Db.empty
  | commit {db : Db} {c : Statement} : Reached db → Storable c → Reached (commit c db)
  | pruneHealth {db : Db} (order : Descending HealthEvent.observedAt) (environmentId : String)
      (now : Int) : Reached db → Reached (pruneHealthEventsBy order environmentId now db).2
  | pruneSignals {db : Db} (order : Descending SignalEvent.observedAt) (environmentId : String)
      (now : Int) : Reached db → Reached (pruneSignalEventsBy order environmentId now db).2

theorem Reached.logs {db : Db} (h : Reached db) : Logs db := by
  induction h with
  | created => exact logs_empty
  | commit _ hc ih => exact ih.commit hc
  | pruneHealth order environmentId now _ ih => exact ih.pruneHealthEventsBy order environmentId now
  | pruneSignals order environmentId now _ ih =>
    exact ih.pruneSignalEventsBy order environmentId now

/-- The Environments with an event in one of the logs (`persistence.rs:192–200`). -/
def loggedEnvironments (db : Db) : List String :=
  (db.healthEvents.map HealthEvent.environmentId ++
    db.signalEvents.map SignalEvent.environmentId).dedup

/-- One turn of the loop (`persistence.rs:202–203`). -/
def pruneEnvironment (now : Int) (environmentId : String) : DbProg Unit := do
  pruneHealthEvents environmentId now
  pruneSignalEvents environmentId now

/-- Retention of all tables when the daemon starts (`persistence.rs:183–208`). -/
def pruneAllForStartup (now : Int) : DbProg Unit := do
  let environments ← query loggedEnvironments
  each environments (pruneEnvironment now)
  issue (.deleteSignalSamplesBefore (satSub now sampleRetentionSecs))
  issue (.deleteSignalRollupsBefore (satSub now rollupRetentionSecs))

/-- Which of the events of one second each prune of the loop lists first is left open. -/
structure TieOrders where
  health : String → Descending HealthEvent.observedAt
  signal : String → Descending SignalEvent.observedAt

/-- The orders that list them backwards. -/
def TieOrders.newestFirst : TieOrders := ⟨fun _ ↦ .newestFirst _, fun _ ↦ .newestFirst _⟩

/-- One turn of the loop, with these orders. -/
def pruneEnvironmentBy (orders : TieOrders) (now : Int) (db : Db) (environmentId : String) : Db :=
  (pruneSignalEventsBy (orders.signal environmentId) environmentId now
    (pruneHealthEventsBy (orders.health environmentId) environmentId now db).2).2

/-- Retention of all tables when the daemon starts, with these orders. -/
def pruneAllForStartupBy (orders : TieOrders) (now : Int) (db : Db) : Db :=
  let pruned := (loggedEnvironments db).foldl (pruneEnvironmentBy orders now) db
  commit (Statement.deleteSignalRollupsBefore (satSub now rollupRetentionSecs))
    (commit (Statement.deleteSignalSamplesBefore (satSub now sampleRetentionSecs)) pruned)

theorem run_each_pruneEnvironment (now : Int) (environments : List String) (db : Db) :
    (each environments (pruneEnvironment now)).run db =
      environments.foldl (pruneEnvironmentBy .newestFirst now) db := by
  induction environments generalizing db with
  | nil => rfl
  | cons next rest ih =>
    rw [run_each_cons, ih, List.foldl_cons, pruneEnvironment, run_bind, run_pruneHealthEvents,
      run_pruneSignalEvents]
    rfl

/-- The program of a start leaves the same database. -/
theorem run_pruneAllForStartup (now : Int) (db : Db) :
    (pruneAllForStartup now).run db = pruneAllForStartupBy .newestFirst now db := by
  rw [pruneAllForStartup, run_bind, result_query, run_bind, pruneAllForStartupBy,
    ← run_each_pruneEnvironment]
  rfl

/-- A database without the tables that have a retention. -/
def withoutHistory (db : Db) : Db :=
  { db with signalSamples := [], signalRollupsHourly := [], healthEvents := [], signalEvents := [] }

theorem Logs.pruneEnvironmentBy {db : Db} (h : Logs db) (orders : TieOrders) (now : Int)
    (environmentId : String) : Logs (pruneEnvironmentBy orders now db environmentId) :=
  (h.pruneHealthEventsBy _ _ _).pruneSignalEventsBy _ _ _

section Each

variable {α κ : Type} [DecidableEq α] {key : α → κ} {env : α → String} {observedAt : α → Int}
  {order : String → Descending observedAt} {orders : TieOrders} {now : Int} {log : Db → List α}

/-- A loop leaves the events of the Environments it does not name. -/
theorem filter_each_of_notMem {environments : List String} {environmentId : String}
    (hlog : ∀ id db, log (pruneEnvironmentBy orders now db id) =
      (pruneEvents (order id) env id now (log db)).2)
    (hislog : ∀ db, Logs db → IsLog key observedAt (log db)) (hnow : now ≤ i64Max)
    (hnot : environmentId ∉ environments) {db : Db} (h : Logs db) :
    (log (environments.foldl (pruneEnvironmentBy orders now) db)).filter (env · = environmentId) =
      (log db).filter (env · = environmentId) := by
  induction environments generalizing db with
  | nil => rfl
  | cons next rest ih =>
    obtain ⟨hnext, hrest⟩ := not_or.mp (mt List.mem_cons.mpr hnot)
    rw [List.foldl_cons, ih hrest (h.pruneEnvironmentBy orders now next), hlog]
    apply ((hislog db h).retained_pruneEvents env (order next) next hnow).filter_other
    rintro r rfl heq
    exact hnext heq

/-- A loop retains the events of every Environment it names as its own prune does. -/
theorem retained_each {environments : List String} (hnodup : environments.Nodup)
    {environmentId : String}
    (hlog : ∀ id db, log (pruneEnvironmentBy orders now db id) =
      (pruneEvents (order id) env id now (log db)).2)
    (hislog : ∀ db, Logs db → IsLog key observedAt (log db)) (hnow : now ≤ i64Max)
    (hmem : environmentId ∈ environments) {db : Db} (h : Logs db) :
    Retained observedAt (env · = environmentId) (now - healthEventsRetentionSecs)
      healthEventsMaxPerEnv ((log db).filter (env · = environmentId))
      ((log (environments.foldl (pruneEnvironmentBy orders now) db)).filter
        (env · = environmentId)) := by
  induction environments generalizing db with
  | nil => exact absurd hmem List.not_mem_nil
  | cons next rest ih =>
    obtain ⟨hnext, hrest⟩ := List.nodup_cons.mp hnodup
    have hafter := h.pruneEnvironmentBy orders now next
    have hretained := (hislog db h).retained_pruneEvents env (order next) next hnow
    rw [List.foldl_cons]
    rcases List.mem_cons.mp hmem with rfl | hmem
    · rw [filter_each_of_notMem hlog hislog hnow hnext hafter, hlog]
      exact hretained.filter_own
    · -- The turn of another Environment leaves this one's events.
      have hother : (log (pruneEnvironmentBy orders now db next)).filter (env · = environmentId) =
          (log db).filter (env · = environmentId) := by
        rw [hlog]
        apply hretained.filter_other
        rintro r rfl heq
        exact hnext (heq ▸ hmem)
      rw [← hother]
      exact ih hrest hmem hafter

/-- The loop over all Environments with events retains the events of every Environment. -/
theorem retained_each_logged {db : Db} (h : Logs db) (hnow : now ≤ i64Max)
    (hlog : ∀ id db, log (pruneEnvironmentBy orders now db id) =
      (pruneEvents (order id) env id now (log db)).2)
    (hislog : ∀ db, Logs db → IsLog key observedAt (log db))
    (hlogged : ∀ r ∈ log db, env r ∈ loggedEnvironments db) (environmentId : String) :
    Retained observedAt (env · = environmentId) (now - healthEventsRetentionSecs)
      healthEventsMaxPerEnv ((log db).filter (env · = environmentId))
      ((log ((loggedEnvironments db).foldl (pruneEnvironmentBy orders now) db)).filter
        (env · = environmentId)) := by
  by_cases hmem : environmentId ∈ loggedEnvironments db
  · exact retained_each (List.nodup_dedup _) hlog hislog hnow hmem h
  · have hnone : (log db).filter (env · = environmentId) = [] := by
      rw [List.filter_eq_nil_iff]
      intro r hr heq
      exact hmem (of_decide_eq_true heq ▸ hlogged r hr)
    rw [filter_each_of_notMem hlog hislog hnow hmem h, hnone]
    exact Retained.nil

end Each

/-- A daemon that starts retains of every Environment's events those of 90 days, at most 500 and
the newest of them. -/
theorem startup_retains_newest (orders : TieOrders) {now : Int} (hnow : now ≤ i64Max) {db : Db}
    (h : Logs db) (environmentId : String) :
    Retained HealthEvent.observedAt (fun e ↦ e.environmentId = environmentId)
        (now - healthEventsRetentionSecs) healthEventsMaxPerEnv
        (db.healthEvents.filter fun e ↦ e.environmentId = environmentId)
        ((pruneAllForStartupBy orders now db).healthEvents.filter
          fun e ↦ e.environmentId = environmentId) ∧
      Retained SignalEvent.observedAt (fun e ↦ e.environmentId = environmentId)
        (now - healthEventsRetentionSecs) healthEventsMaxPerEnv
        (db.signalEvents.filter fun e ↦ e.environmentId = environmentId)
        ((pruneAllForStartupBy orders now db).signalEvents.filter
          fun e ↦ e.environmentId = environmentId) := by
  constructor
  · apply retained_each_logged h hnow (fun _ _ ↦ rfl) (fun _ h ↦ h.health)
    intro e he
    exact List.mem_dedup.mpr (List.mem_append_left _ (List.mem_map_of_mem he))
  · apply retained_each_logged h hnow (fun _ _ ↦ rfl) (fun _ h ↦ h.signal)
    intro e he
    exact List.mem_dedup.mpr (List.mem_append_right _ (List.mem_map_of_mem he))

/-- Streaks, relay cursors, dead letters and snapshots are not pruned. -/
theorem startup_frame (orders : TieOrders) (now : Int) (db : Db) :
    withoutHistory (pruneAllForStartupBy orders now db) = withoutHistory db := by
  have hloop : ∀ (environments : List String) (db : Db),
      withoutHistory (environments.foldl (pruneEnvironmentBy orders now) db) =
        withoutHistory db := by
    intro environments
    induction environments with
    | nil => exact fun _ ↦ rfl
    | cons next rest ih => exact fun db ↦ ih (pruneEnvironmentBy orders now db next)
  exact hloop (loggedEnvironments db) db

/-- Whatever statements a database has seen since it was created, a start keeps of the events of
every Environment those of the last 90 days, down to the 500 newest, and leaves what has no
retention, in whatever order its prunes list the events of one second. -/
theorem startup_prunes_every_log (orders : TieOrders) {now : Int} (hnow : now ≤ i64Max) {db : Db}
    (hdb : Reached db) :
    let started := pruneAllForStartupBy orders now db
    (∀ environmentId,
      Retained HealthEvent.observedAt (fun e ↦ e.environmentId = environmentId)
          (now - healthEventsRetentionSecs) healthEventsMaxPerEnv
          (db.healthEvents.filter fun e ↦ e.environmentId = environmentId)
          (started.healthEvents.filter fun e ↦ e.environmentId = environmentId) ∧
        Retained SignalEvent.observedAt (fun e ↦ e.environmentId = environmentId)
          (now - healthEventsRetentionSecs) healthEventsMaxPerEnv
          (db.signalEvents.filter fun e ↦ e.environmentId = environmentId)
          (started.signalEvents.filter fun e ↦ e.environmentId = environmentId)) ∧
      withoutHistory started = withoutHistory db :=
  ⟨fun environmentId ↦ startup_retains_newest orders hnow hdb.logs environmentId,
    startup_frame orders now db⟩

/-- An old event of one Environment and a new one of another. -/
theorem startup_prunes_every_log_old :
    let events : List HealthEvent := [⟨"old", -8035200, "health", none, "healthy", none, none⟩]
    let db := commitAll [Statement.recordHealthEvent
        ⟨"old", -8035200, "health", none, "healthy", none, none⟩,
      .recordSignalEvent ⟨"prod", "jobs", 0, none, "down"⟩, .storeWebhookCursor "old" 3] Db.empty
    let started := pruneAllForStartupBy .newestFirst 0 db
    Retained HealthEvent.observedAt (fun e ↦ e.environmentId = "old")
        (0 - healthEventsRetentionSecs) healthEventsMaxPerEnv events started.healthEvents ∧
      started.signalEvents = [⟨"prod", "jobs", 0, none, "down"⟩] ∧
      withoutHistory started = withoutHistory db := by
  intro events db started
  have hreached : Reached db :=
    .commit (.commit (.commit .created (by decide : i64Min ≤ -8035200)) (by decide : i64Min ≤ 0))
      trivial
  have hnow : (0 : Int) ≤ i64Max := by decide
  obtain ⟨hretained, hframe⟩ := startup_prunes_every_log .newestFirst hnow hreached
  exact ⟨(hretained "old").1, by decide, hframe⟩

end Daku.Health
