import Daku.Desktop.AlertSurfaces
import Daku.Health.Dashboard

/-!
# What a window shows after a publish

`publish_dashboard` (`crates/daku-core/src/health.rs:176–373`) sends the list of Environments and
then the snapshots, trends and events of each. A window that applies them shows the snapshots that
were loaded, whatever it showed before.
-/

namespace Daku.Desktop

open Daku.Base Daku.Base.Prog Daku.Protocol Daku.Store Daku.Wire
open Daku.Health (publishDashboard publishEnvironment publishDetails environmentSnapshots
  EnvironmentSummary)

/-- A message of a publish as it is sent (`health.rs:242–371`). -/
def wireMessage : Health.ServerMessage → ServerMessage
  | .environmentsUpdated environments => .environmentsUpdated environments
  | .signalSnapshotsUpdated environmentId snapshots =>
    .signalSnapshotsUpdated environmentId (snapshots.map snapshotDto)
  | .signalSamplesUpdated environmentId signalId points =>
    .signalSamplesUpdated environmentId signalId
      (points.map fun (observedAt, valueReal) ↦ { observedAt, valueReal })
  | .signalRollupsUpdated environmentId signalId points =>
    .signalRollupsUpdated environmentId signalId (points.map fun point ↦
      { hourStart := point.hourStart, avgReal := point.avgReal, maxReal := point.maxReal,
        sampleCount := point.sampleCount })
  | .healthEventsUpdated environmentId events => .healthEventsUpdated environmentId events
  | .signalEventsUpdated environmentId events => .signalEventsUpdated environmentId events

/-- What one publish sends. -/
def publishedMessages (fromStr : FromStr) (environments : List EnvironmentConfig) (now : Int)
    (poll : Nat) (db : Db) : List ServerMessage :=
  ((publishDashboard fromStr environments now poll).result db).map wireMessage

/-- The snapshots of an Environment in a window, from the rows of the database. -/
def shownSnapshots (fromStr : FromStr) (db : Db) (environmentId : String) :
    String → Option Snapshot :=
  collectSnapshots fromStr
    ((environmentSnapshots environmentId (loadAllSignalSnapshots db)).map snapshotDto)

namespace DashboardState

variable {fromStr : FromStr} {s : DashboardState}

/-- The message leaves the list of Environments and the snapshots of others alone, and the
snapshots in it are as the table says. -/
def Agrees (table : String → List SignalSnapshotDto) : ServerMessage → Prop
  | .environmentsUpdated _ => False
  | .signalSnapshotsUpdated environmentId snapshots => snapshots = table environmentId
  | _ => True

theorem environments_applyAll {table : String → List SignalSnapshotDto}
    {messages : List ServerMessage} (h : ∀ m ∈ messages, Agrees table m) :
    (s.applyAll fromStr messages).environments = s.environments := by
  induction messages generalizing s with
  | nil => rfl
  | cons m messages ih =>
    have hm := h m List.mem_cons_self
    refine (ih fun m' hm' ↦ h m' (List.mem_cons_of_mem _ hm')).trans ?_
    cases m with
    | environmentsUpdated => exact hm.elim
    | _ => rfl

/-- Messages that agree leave the snapshots that one of them has. -/
theorem snapshots_applyAll {table : String → List SignalSnapshotDto}
    {messages : List ServerMessage} (h : ∀ m ∈ messages, Agrees table m) {id : String}
    (hshown : s.snapshots id = some (collectSnapshots fromStr (table id)) ∨
      .signalSnapshotsUpdated id (table id) ∈ messages) :
    (s.applyAll fromStr messages).snapshots id = some (collectSnapshots fromStr (table id)) := by
  induction messages generalizing s with
  | nil => exact hshown.resolve_right List.not_mem_nil
  | cons m messages ih =>
    have hm := h m List.mem_cons_self
    apply ih fun m' hm' ↦ h m' (List.mem_cons_of_mem _ hm')
    by_cases hrest : .signalSnapshotsUpdated id (table id) ∈ messages
    · exact Or.inr hrest
    · left
      have hsame : s.snapshots id = some (collectSnapshots fromStr (table id)) ∨
          .signalSnapshotsUpdated id (table id) = m :=
        hshown.imp_right fun hmem ↦ (List.mem_cons.mp hmem).resolve_right hrest
      cases m with
      | environmentsUpdated => exact hm.elim
      | signalSnapshotsUpdated id' snapshots =>
        by_cases hid : id = id'
        · subst hid
          rw [DashboardState.apply, show snapshots = table id from hm]
          exact Function.update_self _ _ _
        · rcases hsame with hsame | hsame
          · exact (Function.update_of_ne hid _ _).trans hsame
          · cases hsame
            exact absurd rfl hid
      | _ => exact hsame.resolve_right fun heq ↦ by cases heq

end DashboardState

section Publish

variable {fromStr : FromStr} {environments : List EnvironmentConfig} {now : Int} {poll : Nat}
  {db : Db}

theorem agrees_publishTrend {table : String → List SignalSnapshotDto} {environmentId : String}
    {signalIds : List String} :
    ∀ m ∈ ((collect signalIds (Health.publishTrend environmentId now)).result db).flatten,
      DashboardState.Agrees table (wireMessage m) := by
  intro m hm
  obtain ⟨messages, hmessages, hm⟩ := List.mem_flatten.mp hm
  obtain ⟨signalId, -, t, rfl⟩ := exists_turn_of_mem_result hmessages
  rcases List.mem_cons.mp hm with rfl | hm
  · trivial
  · rw [List.mem_singleton.mp hm]
    trivial

/-- What is sent of an Environment: its snapshots, and messages of other kinds. -/
theorem result_publishDetails (snapshots : List SignalSnapshot) (now : Int)
    (e : EnvironmentConfig) (db : Db) :
    ∃ events signalEvents, (publishDetails snapshots now e).result db =
      .signalSnapshotsUpdated e.id (environmentSnapshots e.id snapshots) ::
        (((collect Health.trendSignals (Health.publishTrend e.id now)).result db).flatten ++
          [.healthEventsUpdated e.id events, .signalEventsUpdated e.id signalEvents]) := by
  rw [publishDetails, result_bind, result_bind, result_bind, result_bind, result_pure]
  exact ⟨_, _, rfl⟩

/-- A turn agrees with the snapshots that were loaded. -/
theorem agrees_publishDetails (snapshots : List SignalSnapshot) (e : EnvironmentConfig) (db : Db) :
    ∀ m ∈ (publishDetails snapshots now e).result db, DashboardState.Agrees
      (fun id ↦ (environmentSnapshots id snapshots).map snapshotDto) (wireMessage m) := by
  obtain ⟨events, signalEvents, hresult⟩ := result_publishDetails snapshots now e db
  rw [hresult]
  intro m hm
  rcases List.mem_cons.mp hm with rfl | hm
  · exact rfl
  · rcases List.mem_append.mp hm with hm | hm
    · exact agrees_publishTrend m hm
    · simp only [List.mem_cons, List.not_mem_nil, or_false] at hm
      rcases hm with rfl | rfl <;> trivial

theorem id_publishEnvironment (snapshots : List SignalSnapshot) :
    ((collect environments (publishEnvironment fromStr snapshots now poll)).result db).map
      EnvironmentSummary.id = environments.map EnvironmentConfig.id := by
  induction environments generalizing db with
  | nil => rfl
  | cons e environments ih =>
    rw [result_collect_cons, List.map_cons, List.map_cons, ih, publishEnvironment, result_bind,
      result_bind, result_pure]
    rfl

/-- A window that applies a publish lists its Environments and shows their snapshots. -/
theorem shown_publish (s : DashboardState) :
    ((s.applyAll fromStr (publishedMessages fromStr environments now poll db)).environments.map
      EnvironmentSummary.id) = environments.map EnvironmentConfig.id ∧
    ∀ e ∈ environments,
      (s.applyAll fromStr (publishedMessages fromStr environments now poll db)).snapshots e.id =
        some (shownSnapshots fromStr db e.id) := by
  let snapshots := loadAllSignalSnapshots db
  let table id := (environmentSnapshots id snapshots).map snapshotDto
  let mid := (collect environments (publishEnvironment fromStr snapshots now poll)).run db
  let details := ((collect environments (publishDetails snapshots now)).result mid).flatten.map
    wireMessage
  have hmessages : publishedMessages fromStr environments now poll db =
      .environmentsUpdated
        ((collect environments (publishEnvironment fromStr snapshots now poll)).result db) ::
        details := by
    rw [publishedMessages, publishDashboard, result_bind, result_bind, result_bind, result_pure]
    rfl
  have hagree : ∀ m ∈ details, DashboardState.Agrees table m := by
    intro sent hsent
    obtain ⟨m, hm, rfl⟩ := List.mem_map.mp hsent
    obtain ⟨turn, hturn, hm⟩ := List.mem_flatten.mp hm
    obtain ⟨e, -, t, rfl⟩ := exists_turn_of_mem_result hturn
    exact agrees_publishDetails snapshots e t m hm
  have hsnapshots : ∀ e ∈ environments, .signalSnapshotsUpdated e.id (table e.id) ∈ details := by
    intro e he
    obtain ⟨t, ht⟩ := exists_result_of_mem he (f := publishDetails snapshots now) mid
    obtain ⟨_, _, hresult⟩ := result_publishDetails snapshots now e t
    rw [hresult] at ht
    exact List.mem_map.mpr ⟨_, List.mem_flatten.mpr ⟨_, ht, List.mem_cons_self⟩, rfl⟩
  rw [hmessages]
  refine ⟨?_, fun e he ↦ ?_⟩
  · refine (congrArg (List.map EnvironmentSummary.id)
      (DashboardState.environments_applyAll hagree)).trans ?_
    exact id_publishEnvironment snapshots
  · exact DashboardState.snapshots_applyAll hagree (Or.inr (hsnapshots e he))

end Publish

section Shown

variable {fromStr : FromStr} {db : Db} {environmentId signalId : String}

theorem collectSnapshots_of_notMem {dtos : List SignalSnapshotDto}
    (h : signalId ∉ dtos.map SignalSnapshotDto.signalId) :
    collectSnapshots fromStr dtos signalId = none := by
  have hfold : ∀ table : String → Option Snapshot,
      dtos.foldl (fun (table : String → Option Snapshot) (snapshot : SignalSnapshotDto) ↦
        Function.update table snapshot.signalId
          (some ⟨snapshot, (fromStr snapshot.payloadJson).getD .null⟩)) table signalId =
        table signalId := by
    induction dtos with
    | nil => exact fun _ ↦ rfl
    | cons dto dtos ih =>
      obtain ⟨hne, hrest⟩ := not_or.mp (mt List.mem_cons.mpr h)
      exact fun table ↦ (ih hrest _).trans (Function.update_of_ne hne _ _)
  exact hfold _

/-- A window shows the row of a Signal, parsed. -/
theorem shownSnapshots_eq (hkeyed : Health.SnapshotsKeyed db.signalSnapshots) :
    shownSnapshots fromStr db environmentId signalId =
      (loadSignalSnapshot environmentId signalId db).map fun row ↦
        ⟨snapshotDto row, (fromStr row.payloadJson).getD .null⟩ := by
  have hmem : ∀ row, row ∈ environmentSnapshots environmentId (loadAllSignalSnapshots db) ↔
      row ∈ db.signalSnapshots ∧ row.environmentId = environmentId := by
    simp [environmentSnapshots]
  cases hload : loadSignalSnapshot environmentId signalId db with
  | some row =>
    obtain ⟨hrow, hkey⟩ := (find?_key_eq_some_iff hkeyed).mp hload
    obtain ⟨henv, hsignal⟩ := Prod.mk.inj hkey
    have hunique : (((environmentSnapshots environmentId (loadAllSignalSnapshots db)).map
        snapshotDto).map SignalSnapshotDto.signalId).Nodup := by
      rw [List.map_map]
      refine List.Nodup.of_map (fun id ↦ (environmentId, id)) ?_
      rw [List.map_map]
      refine (congrArg List.Nodup (List.map_congr_left fun r hr ↦ ?_)).mp
        ((Health.snapshotsKeyed_load hkeyed).sublist (List.filter_sublist.map _))
      rw [SignalSnapshot.key, ((hmem r).mp hr).2]
      rfl
    have hdto := List.mem_map_of_mem (f := snapshotDto) ((hmem row).mpr ⟨hrow, henv⟩)
    rw [← hsignal]
    exact collectSnapshots_of_mem hunique hdto
  | none =>
    apply collectSnapshots_of_notMem
    rw [List.map_map]
    intro hsignal
    obtain ⟨row, hrow, hid⟩ := List.mem_map.mp hsignal
    obtain ⟨hrow, henv⟩ := (hmem row).mp hrow
    exact List.find?_eq_none.mp hload row hrow (decide_eq_true (Prod.ext henv hid))

end Shown

end Daku.Desktop
