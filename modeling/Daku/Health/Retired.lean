import Daku.Collector.Loop
import Daku.Environments.File
import Daku.Environments.Registry
import Mathlib.Data.String.Basic

/-!
# Snapshots of retired Signals

Snapshots are keyed by Environment id and Signal id and no statement deletes them, so they
survive deleted Environments and changed Platforms. A daemon is modelled with its database, its
configuration file and the configuration its loop was started with; commands edit the file, a
start loads it, collectors and publishes write the database.
-/

namespace Daku.Health

open Daku.Base Daku.Base.Prog Daku.Protocol Daku.Store Daku.Collector Daku.Environments

/-- The state one daemon and its predecessors share, and the configuration of the running loop;
it is empty while no loop runs. -/
structure Daemon where
  db : Db
  store : EnvironmentsStore
  loop : List EnvironmentConfig

/-- What happens to a daemon. -/
inductive Action where
  /-- `SaveEnvironment` (`environments.rs:53–65`). -/
  | save (environment : EnvironmentConfig) (credentialJson : Option String)
  /-- `DeleteEnvironment` (`environments.rs:66–74`). -/
  | delete (id : String)
  /-- The daemon starts, or starts again (`collector.rs:680–710`). -/
  | start
  /-- A registered collector runs. -/
  | collect (run : CollectorRun)
  /-- The loop publishes. -/
  | publish (now : Int)

section Runs

variable (fromStr : FromStr) (toText : ToText) (poll : Nat) (path : String)
  (allowCredentialWrite : Bool)

namespace Daemon

/-- The statements an action commits. -/
def statements (d : Daemon) : Action → List Statement
  | .collect run =>
    if Registered d.loop run then (Collector.collect fromStr toText run).trace d.db else []
  | .publish now => if d.loop = [] then [] else (publish fromStr poll d.loop now).trace d.db
  | _ => []

/-- The configuration after an action; a refused command changes nothing. -/
def edit (d : Daemon) : Action → EnvironmentsStore
  | .save environment credentialJson =>
    match saveEnvironment fromStr path environment credentialJson allowCredentialWrite d.store with
    | .ok store => store
    | .error _ => d.store
  | .delete id =>
    match deleteEnvironment path id allowCredentialWrite d.store with
    | .ok store => store
    | .error _ => d.store
  | _ => d.store

/-- The configuration a loop is started with: none if the file cannot be loaded. -/
def loaded (d : Daemon) : List EnvironmentConfig :=
  match loadEnvironments path d.store.file with
  | .ok environments => environments
  | .error _ => []

/-- One action. -/
def act (d : Daemon) (a : Action) : Daemon where
  db := commitAll (d.statements fromStr toText poll a) d.db
  store := d.edit fromStr path allowCredentialWrite a
  loop := match a with
    | .start => d.loaded path
    | _ => d.loop

/-- A run of actions. -/
def after (d : Daemon) : List Action → Daemon
  | [] => d
  | a :: as => (d.act fromStr toText poll path allowCredentialWrite a).after as

/-- The statements a run commits. -/
def history (d : Daemon) : List Action → List Statement
  | [] => []
  | a :: as => d.statements fromStr toText poll a ++
      (d.act fromStr toText poll path allowCredentialWrite a).history as

/-- The summaries a publish at `now` reports. -/
def reported (d : Daemon) (now : Int) : List EnvironmentSummary :=
  match (publishDashboard fromStr d.loop now poll).result d.db with
  | .environmentsUpdated summaries :: _ => summaries
  | _ => []

end Daemon

/-- A save adds an id the file does not hold. -/
def Adds (d : Daemon) (environment : EnvironmentConfig) (credentialJson : Option String) : Prop :=
  (saveEnvironment fromStr path environment credentialJson allowCredentialWrite
    d.store).toBool = true ∧
  ((loadOrEmpty path d.store.file).toOption.getD []).all (·.id ≠ environment.id) = true

/-- No snapshot of the id is stored. -/
def Unpolled (id : String) (db : Db) : Prop := ∀ row ∈ db.signalSnapshots, row.environmentId ≠ id

/-- Only registered Signals of the Environment have a snapshot. -/
def OnlyRegistered (environment : EnvironmentConfig) (db : Db) : Prop :=
  ∀ row ∈ db.signalSnapshots, row.environmentId = environment.id →
    row.signalId ∈ registeredSignals environment.platform

/-- An action meets no retired snapshot: an id is added only without snapshots, and a loop is
started only over snapshots of Signals it registers. -/
def MeetsNoRetired (d : Daemon) : Action → Prop
  | .save environment credentialJson =>
    Adds fromStr path allowCredentialWrite d environment credentialJson →
      Unpolled environment.id d.db
  | .start => ∀ e ∈ d.loaded path, OnlyRegistered e d.db
  | _ => True

/-- So does every action of a run. -/
def RunMeetsNoRetired (d : Daemon) : List Action → Prop
  | [] => True
  | a :: as => MeetsNoRetired fromStr path allowCredentialWrite d a ∧
      RunMeetsNoRetired (d.act fromStr toText poll path allowCredentialWrite a) as

instance (d : Daemon) (environment : EnvironmentConfig) (credentialJson : Option String) :
    Decidable (Adds fromStr path allowCredentialWrite d environment credentialJson) := by
  unfold Adds
  infer_instance

instance (id : String) (db : Db) : Decidable (Unpolled id db) := by
  unfold Unpolled
  infer_instance

instance (environment : EnvironmentConfig) (db : Db) :
    Decidable (OnlyRegistered environment db) := by
  unfold OnlyRegistered
  infer_instance

instance decidableMeetsNoRetired (d : Daemon) (a : Action) :
    Decidable (MeetsNoRetired fromStr path allowCredentialWrite d a) := by
  cases a <;> (unfold MeetsNoRetired; infer_instance)

instance decidableRunMeetsNoRetired : (as : List Action) → (d : Daemon) →
    Decidable (RunMeetsNoRetired fromStr toText poll path allowCredentialWrite d as)
  | [], _ => instDecidableTrue
  | a :: as, d =>
    have := decidableRunMeetsNoRetired as (d.act fromStr toText poll path allowCredentialWrite a)
    inferInstanceAs (Decidable (_ ∧ _))

end Runs

/-- The stored snapshots of the registered Signals of an Environment, by Signal id. -/
def registeredRows (environment : EnvironmentConfig) (db : Db) : List SignalSnapshot :=
  ((registeredSignals environment.platform).insertionSort (· ≤ ·)).filterMap fun id ↦
    loadSignalSnapshot environment.id id db

/-- State and payload of the snapshot a list of statements wrote last for a Signal. -/
def lastResult (environmentId signalId : String) (cs : List Statement) :
    Option (String × String) :=
  cs.reverse.findSome? fun
    | .upsertSignalSnapshot row =>
      if row.key = (environmentId, signalId) then some (row.state, row.payloadJson) else none
    | _ => none

section Decide

/-- Rows as `decide` sees them. -/
private def seen (row : SignalSnapshot) : SignalSnapshot :=
  { row with environmentId := "", observedAt := 0 }

private theorem platformReachability_seen (fromStr : FromStr) (acc : Reachability)
    (rows : List SignalSnapshot) :
    platformReachability fromStr acc (rows.map seen) = platformReachability fromStr acc rows := by
  induction rows generalizing acc with
  | nil => rfl
  | cons row rows ih =>
    simp only [List.map_cons, platformReachability, ih]
    rfl

private theorem decide_seen (fromStr : FromStr) (rows : List SignalSnapshot) :
    decide fromStr (rows.map seen) = decide fromStr rows := by
  have hfind : (rows.map seen).find? (fun s ↦ s.signalId = availabilitySignalId) =
      (rows.find? fun s ↦ s.signalId = availabilitySignalId).map seen := by
    rw [List.find?_map]
    rfl
  have hvotes : (rows.map seen).map (fun s ↦ (s.signalId, snapshotState s)) =
      rows.map fun s ↦ (s.signalId, snapshotState s) := by
    rw [List.map_map]
    rfl
  simp only [decide, hfind, hvotes, platformReachability_seen]
  cases rows.find? (fun s ↦ s.signalId = availabilitySignalId) <;> rfl

end Decide

section Rows

/-- Loading orders the snapshots by Environment id and Signal id. -/
private theorem pairwise_loadAllSignalSnapshots (db : Db) :
    (loadAllSignalSnapshots db).Pairwise fun a b ↦ a.environmentId < b.environmentId ∨
      (a.environmentId = b.environmentId ∧ a.signalId ≤ b.signalId) := by
  have htotal : Std.Total fun a b : SignalSnapshot ↦ a.environmentId < b.environmentId ∨
      (a.environmentId = b.environmentId ∧ a.signalId ≤ b.signalId) := by
    constructor
    intro a b
    rcases lt_trichotomy a.environmentId b.environmentId with h | h | h
    · exact Or.inl (Or.inl h)
    · rcases le_total a.signalId b.signalId with hs | hs
      · exact Or.inl (Or.inr ⟨h, hs⟩)
      · exact Or.inr (Or.inr ⟨h.symm, hs⟩)
    · exact Or.inr (Or.inl h)
  have htrans : IsTrans SignalSnapshot fun a b ↦ a.environmentId < b.environmentId ∨
      (a.environmentId = b.environmentId ∧ a.signalId ≤ b.signalId) := by
    constructor
    rintro a b c (hab | ⟨hab, hs⟩) (hbc | ⟨hbc, ht⟩)
    · exact Or.inl (hab.trans hbc)
    · exact Or.inl (hbc ▸ hab)
    · exact Or.inl (hab ▸ hbc)
    · exact Or.inr ⟨hab.trans hbc, hs.trans ht⟩
  exact List.pairwise_insertionSort _ _

variable {environment : EnvironmentConfig} {db : Db}

/-- Without snapshots of other Signals a publish sees the registered rows. -/
private theorem environmentSnapshots_eq (hkeyed : SnapshotsKeyed db.signalSnapshots)
    (honly : OnlyRegistered environment db) :
    environmentSnapshots environment.id (loadAllSignalSnapshots db) =
      registeredRows environment db := by
  have hnodup : db.signalSnapshots.Nodup := List.Nodup.of_map _ hkeyed
  have hload : ∀ {id : String} {row : SignalSnapshot},
      loadSignalSnapshot environment.id id db = some row ↔
        row ∈ db.signalSnapshots ∧ row.key = (environment.id, id) := find?_key_eq_some_iff hkeyed
  have hmem : ∀ row, row ∈ registeredRows environment db ↔
      row ∈ db.signalSnapshots ∧ row.environmentId = environment.id := by
    intro row
    simp only [registeredRows, List.mem_filterMap, List.mem_insertionSort, hload,
      SignalSnapshot.key, Prod.mk.injEq]
    constructor
    · rintro ⟨id, -, hrow, henv, -⟩
      exact ⟨hrow, henv⟩
    · rintro ⟨hrow, henv⟩
      exact ⟨row.signalId, honly row hrow henv, hrow, henv, rfl⟩
  have hloaded : ∀ row, row ∈ environmentSnapshots environment.id (loadAllSignalSnapshots db) ↔
      row ∈ db.signalSnapshots ∧ row.environmentId = environment.id := by
    simp [environmentSnapshots]
  have hanti : ∀ a b, a ∈ environmentSnapshots environment.id (loadAllSignalSnapshots db) →
      b ∈ registeredRows environment db → a.signalId ≤ b.signalId → b.signalId ≤ a.signalId →
        a = b := by
    intro a b ha hb hab hba
    obtain ⟨ha, haenv⟩ := (hloaded a).mp ha
    obtain ⟨hb, hbenv⟩ := (hmem b).mp hb
    refine List.inj_on_of_nodup_map hkeyed ha hb ?_
    rw [SignalSnapshot.key, SignalSnapshot.key, haenv, hbenv, le_antisymm hab hba]
  have hsorted : (environmentSnapshots environment.id (loadAllSignalSnapshots db)).Pairwise
      fun a b ↦ a.signalId ≤ b.signalId := by
    refine (pairwise_loadAllSignalSnapshots db).filter _ |>.imp_of_mem fun ha hb hab ↦ ?_
    have henv := ((hloaded _).mp ha).2.trans ((hloaded _).mp hb).2.symm
    rcases hab with hlt | ⟨-, hle⟩
    · exact absurd henv (ne_of_lt hlt)
    · exact hle
  have hregistered : (registeredRows environment db).Pairwise
      fun a b ↦ a.signalId ≤ b.signalId := by
    refine List.Pairwise.filterMap _ ?_ (List.pairwise_insertionSort (· ≤ ·) _)
    intro id id' hle row hrow row' hrow'
    obtain ⟨-, hkey⟩ := hload.mp hrow
    obtain ⟨-, hkey'⟩ := hload.mp hrow'
    simp only [SignalSnapshot.key, Prod.mk.injEq] at hkey hkey'
    rw [hkey.2, hkey'.2]
    exact hle
  refine List.Perm.eq_of_pairwise hanti hsorted hregistered ?_
  rw [List.perm_ext_iff_of_nodup]
  · exact fun row ↦ (hloaded row).trans (hmem row).symm
  · exact ((List.perm_insertionSort _ _).nodup_iff.mpr hnodup).filter _
  · have hsignals : (registeredSignals environment.platform).Nodup := by
      cases environment.platform <;> decide
    refine ((List.perm_insertionSort _ _).nodup_iff.mpr hsignals).filterMap ?_
    intro id id' row hrow hrow'
    obtain ⟨-, hkey⟩ := hload.mp hrow
    obtain ⟨-, hkey'⟩ := hload.mp hrow'
    simp only [SignalSnapshot.key, Prod.mk.injEq] at hkey hkey'
    exact hkey.2.symm.trans hkey'.2

end Rows

section Reports

variable {fromStr : FromStr} {toText : ToText} {poll : Nat} {path : String}
  {allowCredentialWrite : Bool} {d : Daemon}

private theorem result_publishEnvironment (snapshots : List SignalSnapshot) (now : Int)
    (environment : EnvironmentConfig) (db : Db) :
    (publishEnvironment fromStr snapshots now poll environment).result db =
      environmentSummary (verdict fromStr snapshots environment.id)
        (environmentSnapshots environment.id snapshots) poll environment := by
  rw [publishEnvironment, result_bind, result_bind, result_pure]
  rfl

/-- A publish reports the verdict over the stored snapshots for every Environment of the loop. -/
private theorem reported_eq (now : Int) :
    d.reported fromStr poll now = d.loop.map fun e ↦
      environmentSummary (verdict fromStr (loadAllSignalSnapshots d.db) e.id)
        (environmentSnapshots e.id (loadAllSignalSnapshots d.db)) poll e := by
  have hresult : (publishDashboard fromStr d.loop now poll).result d.db =
      .environmentsUpdated ((collect d.loop (publishEnvironment fromStr
        (loadAllSignalSnapshots d.db) now poll)).result d.db) ::
      ((collect d.loop (publishDetails (loadAllSignalSnapshots d.db) now)).result
        ((collect d.loop (publishEnvironment fromStr (loadAllSignalSnapshots d.db) now poll)).run
          d.db)).flatten := by
    rw [publishDashboard, result_bind, result_bind, result_bind, result_pure]
    rfl
  rw [Daemon.reported, hresult]
  exact result_collect_of_const (fun e db ↦ result_publishEnvironment _ now e db) _ _

private theorem db_after (as : List Action) :
    (d.after fromStr toText poll path allowCredentialWrite as).db =
      commitAll (d.history fromStr toText poll path allowCredentialWrite as) d.db := by
  induction as generalizing d with
  | nil => rfl
  | cons a as ih =>
    rw [Daemon.after, ih, Daemon.history, commitAll_append]
    rfl

private theorem after_append (as bs : List Action) :
    d.after fromStr toText poll path allowCredentialWrite (as ++ bs) =
      (d.after fromStr toText poll path allowCredentialWrite as).after fromStr toText poll path
        allowCredentialWrite bs := by
  induction as generalizing d with
  | nil => rfl
  | cons a as ih => exact ih

private theorem runMeets_append (as bs : List Action) :
    RunMeetsNoRetired fromStr toText poll path allowCredentialWrite d (as ++ bs) ↔
      RunMeetsNoRetired fromStr toText poll path allowCredentialWrite d as ∧
        RunMeetsNoRetired fromStr toText poll path allowCredentialWrite
          (d.after fromStr toText poll path allowCredentialWrite as) bs := by
  induction as generalizing d with
  | nil => simp [RunMeetsNoRetired, Daemon.after]
  | cons a as ih =>
    simp only [List.cons_append, RunMeetsNoRetired, Daemon.after, ih, and_assoc]

/-- What holds of a database between actions: one snapshot for each Signal, Environments of the
loop with different ids, and only snapshots of Signals registered for them. -/
structure Current (d : Daemon) : Prop where
  keyed : SnapshotsKeyed d.db.signalSnapshots
  ids : (d.loop.map EnvironmentConfig.id).Nodup
  registered : ∀ e ∈ d.loop, OnlyRegistered e d.db

/-- Snapshots an action writes are of registered Signals of the loop's Environments. -/
private theorem upsert_mem_statements {a : Action} {row : SignalSnapshot}
    (h : .upsertSignalSnapshot row ∈ d.statements fromStr toText poll a) :
    ∃ e ∈ d.loop, row.environmentId = e.id ∧ row.signalId ∈ registeredSignals e.platform := by
  cases a with
  | collect run =>
    rw [Daemon.statements] at h
    split at h
    · next hreg =>
      have honly : Only (fun c ↦ ∀ row, c = .upsertSignalSnapshot row →
          (∃ e ∈ run.environments, row.environmentId = e.id) ∧ row.signalId = run.signalId)
          (Collector.collect fromStr toText run) := by
        refine only_collect_run fromStr toText run (fun row henv hid row' heq ↦ ?_)
          (fun _ _ h ↦ by cases h) (fun _ h ↦ by cases h)
        obtain rfl := Statement.upsertSignalSnapshot.inj heq
        exact ⟨henv, hid⟩
      obtain ⟨⟨e, he, henv⟩, hid⟩ := honly d.db _ h row rfl
      obtain ⟨hloop, hsignal⟩ := hreg.covers e he
      exact ⟨e, hloop, henv, hid ▸ hsignal⟩
    · cases h
  | publish now =>
    rw [Daemon.statements] at h
    split at h
    · cases h
    · rcases only_publish _ _ h with h | h <;> cases h
  | _ => cases h

private theorem current_act {a : Action} (h : Current d)
    (hmeets : MeetsNoRetired fromStr path allowCredentialWrite d a) :
    Current (d.act fromStr toText poll path allowCredentialWrite a) := by
  have hkeyed : SnapshotsKeyed
      (d.act fromStr toText poll path allowCredentialWrite a).db.signalSnapshots :=
    nodup_signalSnapshots_commitAll _ h.keyed
  have hkeep : ∀ e ∈ d.loop,
      OnlyRegistered e (d.act fromStr toText poll path allowCredentialWrite a).db := by
    intro e he row hrow henv
    rcases mem_signalSnapshots_commitAll hrow with hrow | hrow
    · exact h.registered e he row hrow henv
    · obtain ⟨e', he', henv', hid⟩ := upsert_mem_statements hrow
      rw [List.inj_on_of_nodup_map h.ids he he' (henv.symm.trans henv')]
      exact hid
  cases a with
  | start =>
    refine ⟨hkeyed, ?_, hmeets⟩
    change ((d.loaded path).map EnvironmentConfig.id).Nodup
    rw [Daemon.loaded]
    split
    · next hload => exact nodup_of_loadEnvironments hload
    · exact List.nodup_nil
  | _ => exact ⟨hkeyed, h.ids, hkeep⟩

/-- Runs that meet no retired snapshot stay free of them. -/
private theorem current_after {as : List Action} (h : Current d)
    (hmeets : RunMeetsNoRetired fromStr toText poll path allowCredentialWrite d as) :
    Current (d.after fromStr toText poll path allowCredentialWrite as) := by
  induction as generalizing d with
  | nil => exact h
  | cons a as ih => exact ih (current_act h hmeets.1) hmeets.2

/-- What is stored for a Signal is what was written last. -/
private theorem loadSignalSnapshot_commitAll (environmentId signalId : String)
    (cs : List Statement) (db : Db) :
    (loadSignalSnapshot environmentId signalId (commitAll cs db)).map
        (fun row ↦ (row.state, row.payloadJson)) =
      (lastResult environmentId signalId cs).or
        ((loadSignalSnapshot environmentId signalId db).map
          fun row ↦ (row.state, row.payloadJson)) := by
  induction cs using List.reverseRecOn with
  | nil => rfl
  | append_singleton cs c ih =>
    rw [commitAll_append, lastResult, List.reverse_append, List.reverse_singleton,
      List.singleton_append, List.findSome?_cons]
    by_cases hc : ∃ row, c = .upsertSignalSnapshot row
    · obtain ⟨row, rfl⟩ := hc
      have hload : loadSignalSnapshot environmentId signalId
          (commitAll [Statement.upsertSignalSnapshot row] (commitAll cs db)) =
          if row.key = (environmentId, signalId) then some row
          else loadSignalSnapshot environmentId signalId (commitAll cs db) := find?_upsert _
      rw [hload]
      by_cases hkey : row.key = (environmentId, signalId)
      · simp [hkey]
      · simp only [hkey, if_false]
        exact ih
    · have hload : loadSignalSnapshot environmentId signalId (commitAll [c] (commitAll cs db)) =
          loadSignalSnapshot environmentId signalId (commitAll cs db) := by
        rw [loadSignalSnapshot, commitAll_cons, commitAll_nil,
          signalSnapshots_commit fun row h ↦ hc ⟨row, h⟩]
        rfl
      rw [hload, ih]
      cases c with
      | upsertSignalSnapshot row => exact absurd ⟨row, rfl⟩ hc
      | _ => rfl

/-- A daemon without retired snapshots reports the verdicts over the registered rows. -/
private theorem reported_of_current (h : Current d) {now : Int} {summary : EnvironmentSummary}
    (hmem : summary ∈ d.reported fromStr poll now) :
    ∃ e ∈ d.loop, summary.id = e.id ∧
      summary.health = (decide fromStr (registeredRows e d.db)).health ∧
      summary.reachability = (decide fromStr (registeredRows e d.db)).reachability := by
  rw [reported_eq] at hmem
  obtain ⟨e, he, rfl⟩ := List.mem_map.mp hmem
  refine ⟨e, he, rfl, ?_⟩
  rw [verdict, environmentSnapshots_eq h.keyed (h.registered e he)]
  exact ⟨rfl, rfl⟩

/-- The verdict over the registered rows is that over the last results of their collectors. -/
private theorem decide_registeredRows_congr {e : EnvironmentConfig} {db db' : Db}
    (h : ∀ id ∈ registeredSignals e.platform,
      (loadSignalSnapshot e.id id db).map (fun row ↦ (row.state, row.payloadJson)) =
        (loadSignalSnapshot e.id id db').map fun row ↦ (row.state, row.payloadJson)) :
    decide fromStr (registeredRows e db) = decide fromStr (registeredRows e db') := by
  rw [← decide_seen, ← decide_seen fromStr (registeredRows e db')]
  congr 1
  rw [registeredRows, registeredRows, List.map_filterMap, List.map_filterMap]
  apply List.filterMap_congr
  intro id hid
  have hseen : ∀ db : Db, (loadSignalSnapshot e.id id db).map seen =
      ((loadSignalSnapshot e.id id db).map fun row ↦ (row.state, row.payloadJson)).map
        fun result ↦ ⟨"", id, 0, result.1, result.2⟩ := by
    intro db
    cases hload : loadSignalSnapshot e.id id db with
    | none => rfl
    | some row =>
      have hkey : row.key = (e.id, id) := by simpa using List.find?_some hload
      have hsignal : row.signalId = id := congrArg Prod.snd hkey
      simp [seen, hsignal]
  rw [hseen, hseen, h id (by simpa using hid)]

/-- Without snapshots of the id, the verdict over its rows is waiting. -/
private theorem registeredRows_of_unpolled {e : EnvironmentConfig} {db : Db}
    (h : Unpolled e.id db) : registeredRows e db = [] := by
  rw [registeredRows, List.filterMap_eq_nil_iff]
  intro id _
  rw [loadSignalSnapshot, List.find?_eq_none]
  intro row hrow hkey
  exact h row hrow (congrArg Prod.fst (of_decide_eq_true hkey))

end Reports

/-- A daemon before its first start: any configuration, an empty database and no loop. -/
def Daemon.Fresh (d : Daemon) : Prop := d.db = .empty ∧ d.loop = []

/-- In every run that adds ids only without snapshots and starts loops only over registered
Signals: every publish reports verdicts over the registered rows; two such runs that agree on
the configuration of an Environment and on the last results of its collectors report the same
health and reachability; and an added id is reported waiting until a collector polls it. -/
theorem reported_of_registered_signals (fromStr : FromStr) (toText : ToText) (poll : Nat)
    (path : String) (allowCredentialWrite : Bool) (d : Daemon) (hfresh : d.Fresh)
    (as : List Action)
    (hmeets : RunMeetsNoRetired fromStr toText poll path allowCredentialWrite d as) :
    let after := fun (d : Daemon) as ↦ d.after fromStr toText poll path allowCredentialWrite as
    let history := fun (d : Daemon) as ↦ d.history fromStr toText poll path allowCredentialWrite as
    (∀ now, ∀ summary ∈ (after d as).reported fromStr poll now, ∃ e ∈ (after d as).loop,
      summary.id = e.id ∧
      summary.health = (decide fromStr (registeredRows e (after d as).db)).health ∧
      summary.reachability =
        (decide fromStr (registeredRows e (after d as).db)).reachability) ∧
    (∀ d' : Daemon, d'.Fresh → ∀ bs,
      RunMeetsNoRetired fromStr toText poll path allowCredentialWrite d' bs →
      ∀ e ∈ (after d as).loop, e ∈ (after d' bs).loop →
      (∀ id ∈ registeredSignals e.platform,
        lastResult e.id id (history d as) = lastResult e.id id (history d' bs)) →
      ∀ now now', ∀ summary ∈ (after d as).reported fromStr poll now,
        ∀ summary' ∈ (after d' bs).reported fromStr poll now',
        summary.id = e.id → summary'.id = e.id →
        summary.health = summary'.health ∧ summary.reachability = summary'.reachability) ∧
    (∀ earlier environment credentialJson later,
      as = earlier ++ .save environment credentialJson :: later →
      Adds fromStr path allowCredentialWrite (after d earlier) environment credentialJson →
      (∀ row, .upsertSignalSnapshot row ∈
        history (after d earlier) (.save environment credentialJson :: later) →
          row.environmentId ≠ environment.id) →
      ∀ now, ∀ summary ∈ (after d as).reported fromStr poll now,
        summary.id = environment.id → summary.health = .waiting) := by
  intro after history
  have hstart : ∀ d : Daemon, d.Fresh → Current d := by
    rintro d ⟨hdb, hloop⟩
    refine ⟨?_, ?_, ?_⟩
    · rw [hdb]
      exact List.nodup_nil
    · rw [hloop]
      exact List.nodup_nil
    · rw [hloop]
      exact fun e he ↦ absurd he List.not_mem_nil
  have hcurrent := current_after (hstart d hfresh) hmeets
  have hstored : ∀ d : Daemon, d.Fresh → ∀ as (e : EnvironmentConfig) id,
      (loadSignalSnapshot e.id id (after d as).db).map (fun row ↦ (row.state, row.payloadJson)) =
        lastResult e.id id (history d as) := by
    intro d hd as e id
    rw [db_after, loadSignalSnapshot_commitAll, hd.1]
    exact Option.or_none
  refine ⟨fun now summary hmem ↦ reported_of_current hcurrent hmem, ?_, ?_⟩
  · intro d' hd' bs hmeets' e he he' hresults now now' summary hmem summary' hmem' hid hid'
    have hcurrent' := current_after (hstart d' hd') hmeets'
    obtain ⟨f, hf, hfid, hhealth, hreach⟩ := reported_of_current hcurrent hmem
    obtain ⟨f', hf', hfid', hhealth', hreach'⟩ := reported_of_current hcurrent' hmem'
    obtain rfl : f = e := List.inj_on_of_nodup_map hcurrent.ids hf he (hfid.symm.trans hid)
    obtain rfl : f' = f := List.inj_on_of_nodup_map hcurrent'.ids hf' he' (hfid'.symm.trans hid')
    have hsame : decide fromStr (registeredRows f' (after d as).db) =
        decide fromStr (registeredRows f' (after d' bs).db) :=
      decide_registeredRows_congr fun id hid ↦ (hstored d hfresh as f' id).trans
        ((hresults id hid).trans (hstored d' hd' bs f' id).symm)
    rw [hhealth, hhealth', hreach, hreach', hsame]
    exact ⟨rfl, rfl⟩
  · rintro earlier environment credentialJson later rfl hadds hnone now summary hmem hid
    have hunpolled : Unpolled environment.id (after d earlier).db :=
      ((runMeets_append _ _).mp hmeets).2.1 hadds
    have hafter : Unpolled environment.id
        (after d (earlier ++ .save environment credentialJson :: later)).db := by
      intro row hrow
      rw [show after d (earlier ++ .save environment credentialJson :: later) =
        after (after d earlier) (.save environment credentialJson :: later) from
          after_append _ _, db_after] at hrow
      rcases mem_signalSnapshots_commitAll hrow with hrow | hrow
      · exact hunpolled row hrow
      · exact hnone row hrow
    obtain ⟨e, he, heid, hhealth, -⟩ := reported_of_current hcurrent hmem
    rw [hhealth, registeredRows_of_unpolled (heid.symm.trans hid ▸ hafter), decide_nil]

/-- `serde_json` on an object with a reachability, as written by `reachabilityText`. -/
def reachabilityFromStr : FromStr := fun text ↦
  if text = "\x7b\"reachability\":\"unreachable\"\x7d" then
    some (.object [("reachability", .string "unreachable")])
  else if text = "{}" then some (.object []) else none

/-- `serde_json` on an object with at most a reachability. -/
def reachabilityText : ToText := fun payload ↦
  match (payload.get "reachability").bind Value.asStr with
  | some reachability => "\x7b\"reachability\":\"" ++ reachability ++ "\"\x7d"
  | none => "{}"

/-- A poll of one Environment by one of its own collectors. -/
def pollOnce (signalId : String) (environment : EnvironmentConfig) (observedAt : Int)
    (state : SignalState) (payload : Value) : Action :=
  .collect (.perEnvironment (signal signalId) [environment] observedAt fun _ ↦
    .ok ⟨state, payload, none⟩)

/-- A daemon that was never started. -/
def newDaemon : Daemon := ⟨.empty, ⟨.missing, fun _ ↦ none⟩, []⟩

/-- The retired availability snapshot of a changed Platform decides for ever, and an id that was
deleted and added again is reported with its old snapshot. -/
theorem reported_from_retired_snapshots :
    let after := fun as ↦ newDaemon.after reachabilityFromStr reachabilityText 60
      "environments.json" true as
    let http := { prod with platform := .http }
    let changed := [.save prod none, .start,
      pollOnce "availability" prod 0 .down (.object [("reachability", .string "unreachable")]),
      .save http none, .start, pollOnce "http_probe" http 60 .healthy (.object [])]
    let unchanged := [.save http none, .start, pollOnce "http_probe" http 60 .healthy (.object [])]
    let addedAgain := [.save http none, .start,
      pollOnce "http_probe" http 0 .degraded (.object []), .delete "prod", .save http none, .start]
    let reported := fun as ↦ ((after as).reported reachabilityFromStr 60 60).map fun summary ↦
      (summary.id, summary.health, summary.reachability)
    reported changed = [("prod", .down, .unreachable)] ∧
      reported unchanged = [("prod", .healthy, .reachable)] ∧
      reported addedAgain = [("prod", .degraded, .reachable)] := by
  decide +kernel

/-- An added Environment waits for its first poll, and the same result is reported alike after a
detour over another Environment. -/
theorem reported_of_added_environment :
    let after := fun as ↦ newDaemon.after reachabilityFromStr reachabilityText 60
      "environments.json" true as
    let polled := [.save prod none, .start,
      pollOnce "availability" prod 60 .healthy (.object [])]
    let detour := [.save shop none, .start, pollOnce "http_probe" shop 0 .down (.object []),
      .save prod none, .delete "shop", .start,
      pollOnce "availability" prod 90 .healthy (.object [])]
    (∀ summary ∈ (after [.save prod none, .start]).reported reachabilityFromStr 60 30,
      summary.id = "prod" → summary.health = .waiting) ∧
    (∀ summary ∈ (after polled).reported reachabilityFromStr 60 60,
      ∀ summary' ∈ (after detour).reported reachabilityFromStr 60 90,
      summary.id = "prod" → summary'.id = "prod" →
      summary.health = summary'.health ∧ summary.reachability = summary'.reachability) := by
  intro after polled detour
  constructor
  · refine (reported_of_registered_signals reachabilityFromStr reachabilityText 60
      "environments.json" true newDaemon ⟨rfl, rfl⟩ [.save prod none, .start]
      (by decide +kernel)).2.2 [] prod none [.start] rfl (by decide +kernel) (fun row hrow ↦ ?_) 30
    simp [Daemon.history, Daemon.statements] at hrow
  · exact (reported_of_registered_signals reachabilityFromStr reachabilityText 60
      "environments.json" true newDaemon ⟨rfl, rfl⟩ polled (by decide +kernel)).2.1 newDaemon
      ⟨rfl, rfl⟩ detour (by decide +kernel) prod (by decide +kernel) (by decide +kernel)
      (by decide +kernel) 60 90

end Daku.Health
