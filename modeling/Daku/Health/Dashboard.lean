import Daku.Health.Recorded

/-!
# What one publish of the dashboard does to the event logs

`publish_dashboard` decides every Environment over the snapshots it loaded, records its events
and moves its streaks; the messages it assembles afterwards only touch roll-ups. The effect is
stated for one Environment and lifted over the list by the callers.
-/

namespace Daku.Health

open Daku.Base Daku.Base.Prog Daku.Protocol Daku.Store

/-- Statements of the roll-up table. -/
def TouchesRollups : Statement → Prop
  | .recordHourRollup _ _ _ => True
  | .deleteSignalRollupsBefore _ => True
  | _ => False

theorem only_publishDetails (snapshots : List SignalSnapshot) (now : Int)
    (environment : EnvironmentConfig) :
    Only TouchesRollups (publishDetails snapshots now environment) := by
  refine only_bind (only_collect _ fun signalId _ ↦ ?_) fun _ ↦ ?_
  · exact only_bind (only_query _ _) fun _ ↦ only_bind (only_issue trivial) fun _ ↦
      only_bind (only_query _ _) fun _ ↦ only_done _ _
  · exact only_bind (only_issue trivial) fun _ ↦ only_bind (only_query _ _) fun _ ↦
      only_bind (only_query _ _) fun _ ↦ only_done _ _

/-- Parts of the database that roll-ups leave alone. -/
theorem commit_touchesRollups {c : Statement} (h : TouchesRollups c) (db : Db) :
    (commit c db).dashboardPublishState = db.dashboardPublishState ∧
    (commit c db).signalPublishState = db.signalPublishState ∧
    (commit c db).signalSnapshots = db.signalSnapshots ∧
    (commit c db).healthEvents = db.healthEvents ∧
    (commit c db).signalEvents = db.signalEvents ∧
    recordedHealthEvents c db = [] ∧ recordedSignalEvents c db = [] := by
  cases c with
  | recordHourRollup =>
    simp only [commit_eq, Db.commit]
    split <;> exact ⟨rfl, rfl, rfl, rfl, rfl, rfl, rfl⟩
  | deleteSignalRollupsBefore => exact ⟨rfl, rfl, rfl, rfl, rfl, rfl, rfl⟩
  | _ => cases h

/-- The statements of the drill-down part, whatever the database holds. -/
theorem trace_publishDetails (snapshots : List SignalSnapshot) (now : Int)
    (environment : EnvironmentConfig) (db : Db) :
    (publishDetails snapshots now environment).trace db =
      (trendSignals.map fun signalId ↦
        Statement.recordHourRollup environment.id signalId (hourStart now)) ++
      [.deleteSignalRollupsBefore (satSub now rollupRetentionSecs)] := rfl

/-- Statements of the event logs and the streak tables. -/
def RecordsEvents : Statement → Prop
  | .recordHealthEvent _ => True
  | .deleteHealthEventsBefore _ _ => True
  | .keepNewestHealthEvents _ => True
  | .recordSignalEvent _ => True
  | .deleteSignalEventsBefore _ _ => True
  | .keepNewestSignalEvents _ => True
  | .storePublishState _ _ => True
  | .storeSignalPublishState _ _ _ => True
  | _ => False

theorem only_recordHealthAndBuildEvents (environmentId : String) (health : EnvironmentHealth)
    (build : Option String) (now : Int) :
    Only RecordsEvents (recordHealthAndBuildEvents environmentId health build now) := by
  intro db c hc
  rcases mem_recordHealthAndBuildEvents hc with ⟨e, -, rfl⟩ | rfl | rfl | rfl <;> trivial

theorem only_recordSignalEvents (environmentId : String) (votes : List (String × SignalState))
    (now : Int) : Only RecordsEvents (recordSignalEvents environmentId votes now) := by
  refine only_bind (only_each _ fun vote _ db c hc ↦ ?_) fun _ ↦
    only_bind (only_issue trivial) fun _ ↦ only_issue trivial
  rw [trace_recordSignalVote, voteStatements] at hc
  split at hc
  · cases hc
  · rcases List.mem_append.mp hc with hc | hc
    · obtain ⟨e, -, rfl⟩ := List.mem_map.mp hc
      trivial
    · rw [List.mem_singleton.mp hc]
      trivial

/-- Publishing an Environment writes event logs and streaks only. -/
theorem only_publishEnvironment (fromStr : FromStr) (snapshots : List SignalSnapshot) (now : Int)
    (poll : Nat) (environment : EnvironmentConfig) :
    Only RecordsEvents (publishEnvironment fromStr snapshots now poll environment) :=
  only_bind (only_recordHealthAndBuildEvents _ _ _ _) fun _ ↦
    only_bind (only_recordSignalEvents _ _ _) fun _ ↦ only_done _ _

/-- Parts of the database that event recording leaves alone. -/
theorem commit_recordsEvents {c : Statement} (h : RecordsEvents c) (db : Db) :
    (commit c db).signalSnapshots = db.signalSnapshots ∧
    (commit c db).signalSamples = db.signalSamples ∧
    (commit c db).signalRollupsHourly = db.signalRollupsHourly := by
  cases c <;> first | exact h.elim | exact ⟨rfl, rfl, rfl⟩

/-- The verdict over the snapshots a publish loaded. -/
def verdict (fromStr : FromStr) (snapshots : List SignalSnapshot) (environmentId : String) :
    DecideOut :=
  decide fromStr (environmentSnapshots environmentId snapshots)

/-- Every Signal of an Environment has one stored snapshot: the primary key of
`signal_snapshots`. -/
def SnapshotsKeyed (snapshots : List SignalSnapshot) : Prop :=
  (snapshots.map SignalSnapshot.key).Nodup

/-- The primary key makes every Signal vote once. -/
theorem nodup_votes (fromStr : FromStr) {snapshots : List SignalSnapshot}
    (h : SnapshotsKeyed snapshots) (environmentId : String) :
    ((verdict fromStr snapshots environmentId).votes.map Prod.fst).Nodup := by
  have hvotes : (verdict fromStr snapshots environmentId).votes.map Prod.fst =
      (environmentSnapshots environmentId snapshots).map SignalSnapshot.signalId := by
    simp [verdict, decide]
  have hkeys : ((environmentSnapshots environmentId snapshots).map SignalSnapshot.key).Nodup :=
    h.sublist ((List.filter_sublist).map _)
  rw [hvotes]
  refine List.Nodup.of_map (fun id ↦ (environmentId, id)) ?_
  rw [List.map_map]
  refine (congrArg List.Nodup (List.map_congr_left fun s hs ↦ ?_)).mp hkeys
  have henv : s.environmentId = environmentId := by
    simpa using (List.mem_filter.mp hs).2
  simp [SignalSnapshot.key, henv]

/-- Loading sorts the snapshots and keeps their keys. -/
theorem snapshotsKeyed_load {db : Db} (h : SnapshotsKeyed db.signalSnapshots) :
    SnapshotsKeyed (loadAllSignalSnapshots db) :=
  (((List.perm_insertionSort _ _).map _).nodup_iff).mpr h

section Environment

variable (fromStr : FromStr) (snapshots : List SignalSnapshot) (now : Int) (poll : Nat)
  (environment : EnvironmentConfig)

theorem trace_publishEnvironment (db : Db) :
    (publishEnvironment fromStr snapshots now poll environment).trace db =
      (recordHealthAndBuildEvents environment.id (verdict fromStr snapshots environment.id).health
        (verdict fromStr snapshots environment.id).build now).trace db ++
      (recordSignalEvents environment.id (verdict fromStr snapshots environment.id).votes now).trace
        ((recordHealthAndBuildEvents environment.id
          (verdict fromStr snapshots environment.id).health
          (verdict fromStr snapshots environment.id).build now).run db) := by
  rw [publishEnvironment, trace_bind, trace_bind, trace_pure, List.append_nil]
  rfl

theorem run_publishEnvironment (db : Db) :
    (publishEnvironment fromStr snapshots now poll environment).run db =
      (recordSignalEvents environment.id (verdict fromStr snapshots environment.id).votes now).run
        ((recordHealthAndBuildEvents environment.id
          (verdict fromStr snapshots environment.id).health
          (verdict fromStr snapshots environment.id).build now).run db) := by
  rw [Prog.run, trace_publishEnvironment, commitAll_append]
  rfl

variable {fromStr snapshots now poll environment} {db : Db}

/-- Health streaks after an Environment was published: only its own moved. -/
theorem publishState_publishEnvironment
    (hnodup : ((verdict fromStr snapshots environment.id).votes.map Prod.fst).Nodup) :
    ((publishEnvironment fromStr snapshots now poll environment).run db).dashboardPublishState =
      Function.update db.dashboardPublishState environment.id
        (some (nextPublishState (verdict fromStr snapshots environment.id).health
          (verdict fromStr snapshots environment.id).build
          (db.dashboardPublishState environment.id))) := by
  rw [run_publishEnvironment, Prog.run, commitAll_frame Db.dashboardPublishState,
    publishState_recordHealthAndBuildEvents]
  intro c hc t
  rcases mem_recordSignalEvents hnodup hc with ⟨e, rfl, -⟩ | ⟨id, state, rfl⟩ | rfl | rfl <;> rfl

/-- Signal streaks after an Environment was published: only its own moved. -/
theorem signalPublishState_publishEnvironment
    (hnodup : ((verdict fromStr snapshots environment.id).votes.map Prod.fst).Nodup)
    (key : String × String) :
    ((publishEnvironment fromStr snapshots now poll environment).run db).signalPublishState key =
      if key.1 = environment.id then
        nextVoteState (verdict fromStr snapshots environment.id).votes key.2
          (db.signalPublishState key)
      else db.signalPublishState key := by
  rw [run_publishEnvironment, signalPublishState_recordSignalEvents _ _ _ _ hnodup,
    (signal_recordHealthAndBuildEvents _ _ _ _ _).1]

/-- Publishing an Environment records at its own id and time only. -/
theorem recordsAwayFrom_publishEnvironment
    (hnodup : ((verdict fromStr snapshots environment.id).votes.map Prod.fst).Nodup)
    {environmentId : String} {time : Int} (haway : environment.id = environmentId → now ≠ time) :
    ∀ c ∈ (publishEnvironment fromStr snapshots now poll environment).trace db,
      RecordsAwayFrom environmentId time c := by
  intro c hc
  rw [trace_publishEnvironment, List.mem_append] at hc
  rcases hc with hc | hc
  · rcases mem_recordHealthAndBuildEvents hc with ⟨e, he, rfl⟩ | rfl | rfl | rfl
    · obtain ⟨henv, hat, -⟩ := of_mem_dueEvents he
      exact fun h ↦ ne_of_eq_of_ne hat (haway (henv.symm.trans h))
    all_goals trivial
  · rcases mem_recordSignalEvents hnodup hc with ⟨e, rfl, henv, hat⟩ | ⟨id, state, rfl⟩ | rfl | rfl
    · exact fun h ↦ ne_of_eq_of_ne hat (haway (henv.symm.trans h))
    all_goals trivial

/-- The health and build events publishing an Environment adds. -/
theorem observedHealth_publishEnvironment
    (hnodup : ((verdict fromStr snapshots environment.id).votes.map Prod.fst).Nodup)
    (hfresh : HealthEventsFresh environment.id now db) :
    observed recordedHealthEvents
        ((publishEnvironment fromStr snapshots now poll environment).trace db) db =
      dueEvents environment.id (verdict fromStr snapshots environment.id).health
        (verdict fromStr snapshots environment.id).build now
        (db.dashboardPublishState environment.id) := by
  rw [trace_publishEnvironment, observed_append, observed_recordHealthAndBuildEvents _ _ _ hfresh,
    observed_eq_nil, List.append_nil]
  intro c hc t
  rcases mem_recordSignalEvents hnodup hc with ⟨e, rfl, -⟩ | ⟨id, state, rfl⟩ | rfl | rfl <;> rfl

/-- The Signal events publishing an Environment adds. -/
theorem observedSignal_publishEnvironment
    (hnodup : ((verdict fromStr snapshots environment.id).votes.map Prod.fst).Nodup)
    (hfresh : SignalEventsFresh environment.id now db) :
    observed recordedSignalEvents
        ((publishEnvironment fromStr snapshots now poll environment).trace db) db =
      (verdict fromStr snapshots environment.id).votes.filterMap fun vote ↦
        dueVoteEvent environment.id now vote
          (db.signalPublishState (environment.id, vote.1)) := by
  have hstmts : ∀ c ∈ (recordHealthAndBuildEvents environment.id
      (verdict fromStr snapshots environment.id).health
      (verdict fromStr snapshots environment.id).build now).trace db, ∀ t : Db,
      (commit c t).signalEvents = t.signalEvents := by
    intro c hc t
    rcases mem_recordHealthAndBuildEvents hc with ⟨e, -, rfl⟩ | rfl | rfl | rfl <;> rfl
  have hafter : SignalEventsFresh environment.id now
      ((recordHealthAndBuildEvents environment.id (verdict fromStr snapshots environment.id).health
        (verdict fromStr snapshots environment.id).build now).run db) := by
    intro e he
    rw [Prog.run, commitAll_frame Db.signalEvents _ _ hstmts] at he
    exact hfresh e he
  obtain ⟨hstate, hnone⟩ := signal_recordHealthAndBuildEvents environment.id
    (verdict fromStr snapshots environment.id).health
    (verdict fromStr snapshots environment.id).build now db
  rw [trace_publishEnvironment, observed_append, hnone, List.nil_append]
  exact (observed_recordSignalEvents _ now hnodup hafter).trans (by rw [hstate])

end Environment

section Dashboard

variable (fromStr : FromStr) (environments : List EnvironmentConfig) (now : Int) (poll : Nat)
  (db : Db)

theorem trace_publishDashboard :
    (publishDashboard fromStr environments now poll).trace db =
      (collect environments
        (publishEnvironment fromStr (loadAllSignalSnapshots db) now poll)).trace db ++
      (collect environments (publishDetails (loadAllSignalSnapshots db) now)).trace
        ((collect environments
          (publishEnvironment fromStr (loadAllSignalSnapshots db) now poll)).run db) := by
  rw [publishDashboard, trace_query_bind, trace_bind, trace_bind, trace_pure, List.append_nil]

/-- Messages leave the event logs and streaks as the recording part left them. -/
theorem publishDashboard_eq :
    observed recordedHealthEvents ((publishDashboard fromStr environments now poll).trace db) db =
      observed recordedHealthEvents ((collect environments
        (publishEnvironment fromStr (loadAllSignalSnapshots db) now poll)).trace db) db ∧
    observed recordedSignalEvents ((publishDashboard fromStr environments now poll).trace db) db =
      observed recordedSignalEvents ((collect environments
        (publishEnvironment fromStr (loadAllSignalSnapshots db) now poll)).trace db) db := by
  have honly := only_collect environments fun e _ ↦
    only_publishDetails (loadAllSignalSnapshots db) now e
  rw [trace_publishDashboard, observed_append, observed_append]
  rw [honly.observed_eq_nil recordedHealthEvents
      fun c hc t ↦ (commit_touchesRollups hc t).2.2.2.2.2.1,
    honly.observed_eq_nil recordedSignalEvents
      fun c hc t ↦ (commit_touchesRollups hc t).2.2.2.2.2.2,
    List.append_nil, List.append_nil]
  exact ⟨rfl, rfl⟩

/-- What messages leave alone, for every part of the database that roll-ups leave alone. -/
theorem run_publishDashboard {γ : Type} (view : Db → γ)
    (hview : ∀ c, TouchesRollups c → ∀ t : Db, view (commit c t) = view t) :
    view ((publishDashboard fromStr environments now poll).run db) =
      view ((collect environments
        (publishEnvironment fromStr (loadAllSignalSnapshots db) now poll)).run db) := by
  have honly := only_collect environments fun e _ ↦
    only_publishDetails (loadAllSignalSnapshots db) now e
  rw [Prog.run, trace_publishDashboard, commitAll_append]
  exact honly.frame view hview _

/-- The health and build events one publish of the dashboard adds: those due for each
Environment over the streak it had before. -/
theorem observedHealth_publishDashboard (hids : (environments.map EnvironmentConfig.id).Nodup)
    (hkeyed : SnapshotsKeyed db.signalSnapshots)
    (hfresh : ∀ e ∈ environments, HealthEventsFresh e.id now db) :
    observed recordedHealthEvents ((publishDashboard fromStr environments now poll).trace db) db =
      environments.flatMap fun e ↦
        dueEvents e.id (verdict fromStr (loadAllSignalSnapshots db) e.id).health
          (verdict fromStr (loadAllSignalSnapshots db) e.id).build now
          (db.dashboardPublishState e.id) := by
  rw [(publishDashboard_eq fromStr environments now poll db).1]
  have hnodup := nodup_votes fromStr (snapshotsKeyed_load hkeyed)
  generalize loadAllSignalSnapshots db = snapshots at hnodup ⊢
  clear hkeyed
  induction environments generalizing db with
  | nil => rfl
  | cons e environments ih =>
    obtain ⟨hid, hids⟩ := List.nodup_cons.mp hids
    have hne : ∀ e' ∈ environments, e'.id ≠ e.id := fun e' he' h ↦
      hid (h ▸ List.mem_map_of_mem he')
    rw [trace_collect_cons, observed_append, List.flatMap_cons,
      observedHealth_publishEnvironment (hnodup e.id) (hfresh e List.mem_cons_self)]
    congr 1
    refine (ih _ hids fun e' he' ↦ ?_).trans (List.flatMap_congr fun e' he' ↦ ?_)
    · exact healthEventsFresh_commitAll _ _
        (recordsAwayFrom_publishEnvironment (hnodup e.id) fun h ↦ absurd h.symm (hne e' he'))
        (hfresh e' (List.mem_cons_of_mem _ he'))
    · rw [publishState_publishEnvironment (hnodup e.id), Function.update_of_ne (hne e' he')]

/-- The Signal events one publish of the dashboard adds: those due for each vote over the
streak it had before. -/
theorem observedSignal_publishDashboard (hids : (environments.map EnvironmentConfig.id).Nodup)
    (hkeyed : SnapshotsKeyed db.signalSnapshots)
    (hfresh : ∀ e ∈ environments, SignalEventsFresh e.id now db) :
    observed recordedSignalEvents ((publishDashboard fromStr environments now poll).trace db) db =
      environments.flatMap fun e ↦
        (verdict fromStr (loadAllSignalSnapshots db) e.id).votes.filterMap fun vote ↦
          dueVoteEvent e.id now vote (db.signalPublishState (e.id, vote.1)) := by
  rw [(publishDashboard_eq fromStr environments now poll db).2]
  have hnodup := nodup_votes fromStr (snapshotsKeyed_load hkeyed)
  generalize loadAllSignalSnapshots db = snapshots at hnodup ⊢
  clear hkeyed
  induction environments generalizing db with
  | nil => rfl
  | cons e environments ih =>
    obtain ⟨hid, hids⟩ := List.nodup_cons.mp hids
    have hne : ∀ e' ∈ environments, e'.id ≠ e.id := fun e' he' h ↦
      hid (h ▸ List.mem_map_of_mem he')
    rw [trace_collect_cons, observed_append, List.flatMap_cons,
      observedSignal_publishEnvironment (hnodup e.id) (hfresh e List.mem_cons_self)]
    congr 1
    refine (ih _ hids fun e' he' ↦ ?_).trans (List.flatMap_congr fun e' he' ↦ ?_)
    · exact signalEventsFresh_commitAll _ _
        (recordsAwayFrom_publishEnvironment (hnodup e.id) fun h ↦ absurd h.symm (hne e' he'))
        (hfresh e' (List.mem_cons_of_mem _ he'))
    · simp only [signalPublishState_publishEnvironment (hnodup e.id), hne e' he', if_false]

/-- The Environment streaks one publish of the dashboard leaves. -/
theorem publishState_publishDashboard (hids : (environments.map EnvironmentConfig.id).Nodup)
    (hkeyed : SnapshotsKeyed db.signalSnapshots) (id : String) :
    ((publishDashboard fromStr environments now poll).run db).dashboardPublishState id =
      if id ∈ environments.map EnvironmentConfig.id then
        some (nextPublishState (verdict fromStr (loadAllSignalSnapshots db) id).health
          (verdict fromStr (loadAllSignalSnapshots db) id).build (db.dashboardPublishState id))
      else db.dashboardPublishState id := by
  rw [run_publishDashboard fromStr environments now poll db (fun t ↦ t.dashboardPublishState id)
    fun c hc t ↦ by rw [(commit_touchesRollups hc t).1]]
  have hnodup := nodup_votes fromStr (snapshotsKeyed_load hkeyed)
  generalize loadAllSignalSnapshots db = snapshots at hnodup ⊢
  clear hkeyed
  induction environments generalizing db with
  | nil => rfl
  | cons e environments ih =>
    obtain ⟨hid, hids⟩ := List.nodup_cons.mp hids
    rw [run_collect_cons, ih _ hids, publishState_publishEnvironment (hnodup e.id)]
    by_cases he : id = e.id
    · subst he
      simp [hid]
    · simp [he]

/-- The Signal streaks one publish of the dashboard leaves. -/
theorem signalPublishState_publishDashboard
    (hids : (environments.map EnvironmentConfig.id).Nodup)
    (hkeyed : SnapshotsKeyed db.signalSnapshots) (key : String × String) :
    ((publishDashboard fromStr environments now poll).run db).signalPublishState key =
      if key.1 ∈ environments.map EnvironmentConfig.id then
        nextVoteState (verdict fromStr (loadAllSignalSnapshots db) key.1).votes key.2
          (db.signalPublishState key)
      else db.signalPublishState key := by
  rw [run_publishDashboard fromStr environments now poll db (fun t ↦ t.signalPublishState key)
    fun c hc t ↦ by rw [(commit_touchesRollups hc t).2.1]]
  have hnodup := nodup_votes fromStr (snapshotsKeyed_load hkeyed)
  generalize loadAllSignalSnapshots db = snapshots at hnodup ⊢
  clear hkeyed
  induction environments generalizing db with
  | nil => rfl
  | cons e environments ih =>
    obtain ⟨hid, hids⟩ := List.nodup_cons.mp hids
    rw [run_collect_cons, ih _ hids, signalPublishState_publishEnvironment (hnodup e.id)]
    by_cases he : key.1 = e.id
    · have hout : key.1 ∉ environments.map EnvironmentConfig.id := he ▸ hid
      rw [if_neg hout, if_pos he, if_pos (by simp [he]), he]
    · simp [he]

/-- Publishing leaves the snapshots as the collectors wrote them. -/
theorem signalSnapshots_publishDashboard :
    ((publishDashboard fromStr environments now poll).run db).signalSnapshots =
      db.signalSnapshots := by
  have hevents := only_collect environments fun e _ ↦
    only_publishEnvironment fromStr (loadAllSignalSnapshots db) now poll e
  rw [run_publishDashboard fromStr environments now poll db Db.signalSnapshots
    fun c hc t ↦ (commit_touchesRollups hc t).2.2.1]
  exact hevents.frame Db.signalSnapshots (fun c hc t ↦ (commit_recordsEvents hc t).1) db

/-- Publishing records at its own time only. -/
theorem recordsAwayFrom_publishDashboard (hkeyed : SnapshotsKeyed db.signalSnapshots)
    (environmentId : String) {time : Int} (hne : now ≠ time) :
    ∀ c ∈ (publishDashboard fromStr environments now poll).trace db,
      RecordsAwayFrom environmentId time c := by
  have hnodup := nodup_votes fromStr (snapshotsKeyed_load hkeyed)
  have hdetails := only_collect environments fun e _ ↦
    only_publishDetails (loadAllSignalSnapshots db) now e
  have hevents : Only (RecordsAwayFrom environmentId time) (collect environments
      (publishEnvironment fromStr (loadAllSignalSnapshots db) now poll)) :=
    only_collect environments fun e _ _ ↦
      recordsAwayFrom_publishEnvironment (hnodup e.id) fun _ ↦ hne
  intro c hc
  rw [trace_publishDashboard, List.mem_append] at hc
  rcases hc with hc | hc
  · exact hevents _ c hc
  · have htouch := hdetails _ c hc
    cases c <;> first | exact htouch.elim | trivial

end Dashboard

end Daku.Health
