import Daku.Base.Int64
import Daku.Base.Prog
import Daku.Store.Db
import Mathlib.Logic.Function.Basic

/-!
# SQL statements

Every write of `crates/daku-core/src/persistence.rs` that the modelled code issues, one
constructor for one autocommit statement. What a statement does is `Db.commit`; programs of
statements are `Daku.Base.Prog Db Statement`.
-/

namespace Daku.Store

open Daku.Base

/-- One autocommit write. -/
inductive Statement where
  /-- `persist_signal_snapshot` (`persistence.rs:330–357`). -/
  | upsertSignalSnapshot (row : SignalSnapshot)
  /-- `persist_signal_sample` (`persistence.rs:417–440`). -/
  | insertSignalSample (row : SignalSample)
  /-- `prune_signal_samples` (`persistence.rs:1303–1311`). -/
  | deleteSignalSamplesBefore (cutoff : Int)
  /-- `record_hour_rollup` (`persistence.rs:490–514`). -/
  | recordHourRollup (environmentId signalId : String) (hourStart : Int)
  /-- `prune_signal_rollups` (`persistence.rs:547–555`). -/
  | deleteSignalRollupsBefore (cutoff : Int)
  /-- `record_health_event` (`persistence.rs:578–596`). -/
  | recordHealthEvent (event : HealthEvent)
  /-- First half of `prune_health_events` (`persistence.rs:662–667`). -/
  | deleteHealthEventsBefore (environmentId : String) (cutoff : Int)
  /-- Second half of `prune_health_events` (`persistence.rs:668–678`). -/
  | keepNewestHealthEvents (environmentId : String)
  /-- `record_signal_event` (`persistence.rs:702–719`). -/
  | recordSignalEvent (event : SignalEvent)
  /-- First half of `prune_signal_events` (`persistence.rs:762–767`). -/
  | deleteSignalEventsBefore (environmentId : String) (cutoff : Int)
  /-- Second half of `prune_signal_events` (`persistence.rs:768–778`). -/
  | keepNewestSignalEvents (environmentId : String)
  /-- `store_publish_state` (`persistence.rs:866–891`). -/
  | storePublishState (environmentId : String) (state : PublishState)
  /-- `store_signal_publish_state` (`persistence.rs:814–839`). -/
  | storeSignalPublishState (environmentId signalId : String) (state : SignalPublishState)
  /-- `store_webhook_cursor` (`persistence.rs:933–948`). -/
  | storeWebhookCursor (environmentId : String) (lastSent : Int)
  /-- First statement of `record_webhook_dead_letter` (`persistence.rs:958–965`). -/
  | insertWebhookDeadLetter (letter : WebhookDeadLetter)
  /-- Second statement of `record_webhook_dead_letter` (`persistence.rs:968–977`). -/
  | keepNewestWebhookDeadLetters (environmentId : String)
  /-- Last statement of `requeue_webhook_dead_letters` (`persistence.rs:1101–1106`). -/
  | deleteWebhookDeadLetters (environmentId : String)
  deriving DecidableEq, Repr

/-- Values of the samples one bucket aggregates (`persistence.rs:500–504`). -/
def hourValues (environmentId signalId : String) (hourStart : Int)
    (samples : List SignalSample) : List Rat :=
  samples.filterMap fun s ↦
    if s.environmentId = environmentId ∧ s.signalId = signalId ∧
        hourStart ≤ s.observedAt ∧ s.observedAt < hourStart + 3600 then s.valueReal
    else none

/-- `SELECT AVG, MAX, COUNT(*) … HAVING COUNT(*) > 0` (`persistence.rs:500–506`). -/
def aggregateHour (environmentId signalId : String) (hourStart : Int)
    (values : List Rat) : Option SignalRollup :=
  if values = [] then none
  else some {
    environmentId, signalId, hourStart
    avgReal := some (values.sum / values.length)
    maxReal := values.max?
    sampleCount := values.length }

/-- Replace the row with an equal key in place, or append: `ON CONFLICT … DO UPDATE`. -/
def upsert {α κ : Type} [DecidableEq κ] (key : α → κ) (row : α) (rows : List α) : List α :=
  if rows.any fun r ↦ key r = key row then rows.map fun r ↦ if key r = key row then row else r
  else rows ++ [row]

/-- Append unless a row with an equal key exists: `ON CONFLICT … DO NOTHING`. -/
def insertNew {α κ : Type} [DecidableEq κ] (key : α → κ) (row : α) (rows : List α) : List α :=
  if rows.any fun r ↦ key r = key row then rows else rows ++ [row]

/-- The count bound of an event log: of one Environment's rows keep the newest, of the others
all (`persistence.rs:668–678, 768–778`). -/
def keepNewest {α : Type} [DecidableEq α] (env : α → String) (observedAt : α → Int)
    (environmentId : String) (rows : List α) : List α :=
  rows.filter fun r ↦
    env r ≠ environmentId ∨
      r ∈ newest observedAt healthEventsMaxPerEnv (rows.filter fun q ↦ env q = environmentId)

/-- Dead letters of one Environment that the retention statement keeps. -/
def newestDeadLetters (environmentId : String) (letters : List WebhookDeadLetter) :
    List WebhookDeadLetter :=
  ((letters.filter fun l ↦ l.environmentId = environmentId).insertionSort
    fun a b ↦ WebhookDeadLetter.le b a).take deadLettersMaxPerEnv

namespace Db

/-- What one statement does. -/
def commit : Statement → Db → Db
  | .upsertSignalSnapshot row, db =>
    { db with signalSnapshots := upsert SignalSnapshot.key row db.signalSnapshots }
  | .insertSignalSample row, db =>
    { db with signalSamples := db.signalSamples ++ [row] }
  | .deleteSignalSamplesBefore cutoff, db =>
    { db with signalSamples := db.signalSamples.filter fun s ↦ cutoff ≤ s.observedAt }
  | .recordHourRollup environmentId signalId hourStart, db =>
    match aggregateHour environmentId signalId hourStart
        (hourValues environmentId signalId hourStart db.signalSamples) with
    | none => db
    | some row =>
      { db with signalRollupsHourly := upsert SignalRollup.key row db.signalRollupsHourly }
  | .deleteSignalRollupsBefore cutoff, db =>
    { db with signalRollupsHourly := db.signalRollupsHourly.filter fun r ↦ cutoff ≤ r.hourStart }
  | .recordHealthEvent event, db =>
    -- The column list leaves `note` out: a recorded event starts unannotated.
    { db with healthEvents :=
        insertNew HealthEvent.key { event with note := none } db.healthEvents }
  | .deleteHealthEventsBefore environmentId cutoff, db =>
    { db with healthEvents :=
        db.healthEvents.filter fun e ↦ e.environmentId ≠ environmentId ∨ cutoff ≤ e.observedAt }
  | .keepNewestHealthEvents environmentId, db =>
    { db with healthEvents :=
        keepNewest HealthEvent.environmentId HealthEvent.observedAt environmentId db.healthEvents }
  | .recordSignalEvent event, db =>
    { db with signalEvents := insertNew SignalEvent.key event db.signalEvents }
  | .deleteSignalEventsBefore environmentId cutoff, db =>
    { db with signalEvents :=
        db.signalEvents.filter fun e ↦ e.environmentId ≠ environmentId ∨ cutoff ≤ e.observedAt }
  | .keepNewestSignalEvents environmentId, db =>
    { db with signalEvents :=
        keepNewest SignalEvent.environmentId SignalEvent.observedAt environmentId db.signalEvents }
  | .storePublishState environmentId state, db =>
    { db with dashboardPublishState :=
        Function.update db.dashboardPublishState environmentId (some state) }
  | .storeSignalPublishState environmentId signalId state, db =>
    { db with signalPublishState :=
        Function.update db.signalPublishState (environmentId, signalId) (some state) }
  | .storeWebhookCursor environmentId lastSent, db =>
    { db with webhookCursor := Function.update db.webhookCursor environmentId (some lastSent) }
  | .insertWebhookDeadLetter letter, db =>
    { db with webhookDeadLetters := insertNew WebhookDeadLetter.key letter db.webhookDeadLetters }
  | .keepNewestWebhookDeadLetters environmentId, db =>
    { db with webhookDeadLetters :=
        db.webhookDeadLetters.filter fun l ↦
          l.environmentId ≠ environmentId ∨
            l ∈ newestDeadLetters environmentId db.webhookDeadLetters }
  | .deleteWebhookDeadLetters environmentId, db =>
    { db with webhookDeadLetters :=
        db.webhookDeadLetters.filter fun l ↦ l.environmentId ≠ environmentId }

end Db

instance : Commits Statement Db := ⟨Db.commit⟩

@[simp] theorem commit_eq (c : Statement) (db : Db) : commit c db = Db.commit c db := rfl

section Upsert

variable {α κ : Type} [DecidableEq κ] {key : α → κ} {row : α} {rows : List α}

/-- A row that is new by its key is appended. -/
theorem insertNew_of_new (h : ∀ r ∈ rows, key r ≠ key row) :
    insertNew key row rows = rows ++ [row] := by
  rw [insertNew, if_neg]
  simpa using h

/-- Inserting keeps what is stored. -/
theorem mem_insertNew_of_mem {r : α} (h : r ∈ rows) : r ∈ insertNew key row rows := by
  rw [insertNew]
  split
  · exact h
  · exact List.mem_append_left _ h

/-- After an insertion some row has the key of the inserted one. -/
theorem key_mem_insertNew (row : α) : key row ∈ (insertNew key row rows).map key := by
  rw [insertNew]
  split
  · next h =>
    obtain ⟨r, hr, hk⟩ := List.any_eq_true.mp h
    exact List.mem_map.mpr ⟨r, hr, of_decide_eq_true hk⟩
  · simp

/-- What is stored after an insertion was stored before it or is the new row. -/
theorem mem_of_mem_insertNew {r : α} (h : r ∈ insertNew key row rows) : r ∈ rows ∨ r = row := by
  rw [insertNew] at h
  split at h
  · exact Or.inl h
  · simpa using h

/-- A row that is new by its key keeps a primary key. -/
theorem nodup_append_new (h : (rows.map key).Nodup) (hnew : ¬ rows.any fun r ↦ key r = key row) :
    ((rows ++ [row]).map key).Nodup := by
  rw [List.map_append, List.nodup_append_comm]
  refine List.nodup_cons.mpr ⟨fun hmem ↦ hnew ?_, h⟩
  obtain ⟨r, hr, hk⟩ := List.mem_map.mp hmem
  exact List.any_eq_true.mpr ⟨r, hr, decide_eq_true hk⟩

/-- Inserting keeps a primary key. -/
theorem nodup_insertNew (h : (rows.map key).Nodup) : ((insertNew key row rows).map key).Nodup := by
  rw [insertNew]
  split
  · exact h
  · next hnew => exact nodup_append_new h hnew

/-- An upserted row is stored. -/
theorem mem_upsert_self : row ∈ upsert key row rows := by
  rw [upsert]
  split
  · next h =>
    obtain ⟨r, hr, hk⟩ := List.any_eq_true.mp h
    exact List.mem_map.mpr ⟨r, hr, if_pos (of_decide_eq_true hk)⟩
  · simp

/-- Rows with another key are stored after an upsert exactly if they were before it. -/
theorem mem_upsert_of_ne {r : α} (hne : key r ≠ key row) :
    r ∈ upsert key row rows ↔ r ∈ rows := by
  rw [upsert]
  split
  · simp only [List.mem_map]
    constructor
    · rintro ⟨q, hq, he⟩
      split at he
      · exact absurd (congrArg key he).symm hne
      · exact he ▸ hq
    · intro hr
      exact ⟨r, hr, if_neg hne⟩
  · have hrow : r ≠ row := fun h ↦ hne (congrArg key h)
    simp [hrow]

/-- After an upsert the upserted row is the only one with its key. -/
theorem eq_of_mem_upsert {r : α} (h : r ∈ upsert key row rows) (hk : key r = key row) :
    r = row := by
  rw [upsert] at h
  split at h
  · obtain ⟨q, -, he⟩ := List.mem_map.mp h
    split at he
    · exact he.symm
    · next hq => exact absurd (he ▸ hk) hq
  · next hnone =>
    rcases List.mem_append.mp h with hr | hr
    · exact absurd (List.any_eq_true.mpr ⟨r, hr, decide_eq_true hk⟩) hnone
    · simpa using hr

/-- What is stored after an upsert was stored before it or is the new row. -/
theorem mem_of_mem_upsert {r : α} (h : r ∈ upsert key row rows) : r ∈ rows ∨ r = row := by
  by_cases hk : key r = key row
  · exact Or.inr (eq_of_mem_upsert h hk)
  · exact Or.inl ((mem_upsert_of_ne hk).mp h)

/-- Under a primary key, looking a key up finds its row. -/
theorem find?_key_eq_some_iff (h : (rows.map key).Nodup) {k : κ} {r : α} :
    rows.find? (fun r ↦ key r = k) = some r ↔ r ∈ rows ∧ key r = k := by
  constructor
  · intro hfind
    exact ⟨List.mem_of_find?_eq_some hfind, by simpa using List.find?_some hfind⟩
  · rintro ⟨hmem, rfl⟩
    obtain ⟨found, hfound⟩ : ∃ found, rows.find? (fun q ↦ key q = key r) = some found :=
      Option.isSome_iff_exists.mp (List.find?_isSome.mpr ⟨r, hmem, by simp⟩)
    have hkey : key found = key r := by simpa using List.find?_some hfound
    rw [hfound, List.inj_on_of_nodup_map h (List.mem_of_find?_eq_some hfound) hmem hkey]

/-- Looking a key up after an upsert. -/
theorem find?_upsert (k : κ) :
    (upsert key row rows).find? (fun r ↦ key r = k) =
      if key row = k then some row else rows.find? fun r ↦ key r = k := by
  rw [upsert]
  split
  · next hany =>
    have hkey : ∀ r, key (if key r = key row then row else r) = key r := by
      intro r
      split
      · next h => exact h.symm
      · rfl
    rw [List.find?_map]
    simp only [Function.comp_def, hkey]
    split
    · next hk =>
      subst hk
      obtain ⟨r, hr⟩ := Option.isSome_iff_exists.mp (List.find?_isSome.mpr
        (List.any_eq_true.mp hany))
      have hrow : key r = key row := by simpa using List.find?_some hr
      rw [hr, Option.map_some, if_pos hrow]
    · next hk =>
      cases hr : rows.find? fun r ↦ key r = k with
      | none => rfl
      | some r =>
        have hrk : key r = k := by simpa using List.find?_some hr
        rw [Option.map_some, if_neg (by rw [hrk]; exact Ne.symm hk)]
  · next hnone =>
    rw [List.find?_append]
    split
    · next hk =>
      subst hk
      have hnone' : rows.find? (fun r ↦ key r = key row) = none := by
        rw [List.find?_eq_none]
        intro r hr hkr
        exact hnone (List.any_eq_true.mpr ⟨r, hr, hkr⟩)
      rw [hnone', Option.none_or]
      simp
    · next hk => simp [hk]

/-- Upserting keeps a primary key. -/
theorem nodup_upsert (h : (rows.map key).Nodup) : ((upsert key row rows).map key).Nodup := by
  rw [upsert]
  split
  · have hkeys : (rows.map fun r ↦ if key r = key row then row else r).map key = rows.map key := by
      rw [List.map_map]
      apply List.map_congr_left
      intro r _
      simp only [Function.comp_apply]
      split
      · next hr => exact hr.symm
      · rfl
    rw [hkeys]
    exact h
  · next hnew => exact nodup_append_new h hnew

end Upsert

section Snapshots

/-- Only its own statement writes a snapshot. -/
theorem signalSnapshots_commit {c : Statement} (h : ∀ row, c ≠ .upsertSignalSnapshot row)
    (db : Db) : (commit c db).signalSnapshots = db.signalSnapshots := by
  cases c with
  | upsertSignalSnapshot row => exact absurd rfl (h row)
  | recordHourRollup =>
    simp only [commit_eq, Db.commit]
    split <;> rfl
  | _ => rfl

/-- A snapshot stored after some statements was stored before them or is written by one. -/
theorem mem_signalSnapshots_commitAll {cs : List Statement} {db : Db} {row : SignalSnapshot}
    (h : row ∈ (commitAll cs db).signalSnapshots) :
    row ∈ db.signalSnapshots ∨ .upsertSignalSnapshot row ∈ cs := by
  induction cs generalizing db with
  | nil => exact Or.inl h
  | cons c cs ih =>
    rcases ih h with h | h
    · by_cases hc : ∃ row', c = .upsertSignalSnapshot row'
      · obtain ⟨row', rfl⟩ := hc
        rcases mem_of_mem_upsert h with h | rfl
        · exact Or.inl h
        · exact Or.inr List.mem_cons_self
      · rw [signalSnapshots_commit fun row' h' ↦ hc ⟨row', h'⟩] at h
        exact Or.inl h
    · exact Or.inr (List.mem_cons_of_mem _ h)

/-- Statements keep the primary key of the snapshots. -/
theorem nodup_signalSnapshots_commitAll (cs : List Statement) {db : Db}
    (h : (db.signalSnapshots.map SignalSnapshot.key).Nodup) :
    ((commitAll cs db).signalSnapshots.map SignalSnapshot.key).Nodup := by
  induction cs generalizing db with
  | nil => exact h
  | cons c cs ih =>
    apply ih
    by_cases hc : ∃ row, c = .upsertSignalSnapshot row
    · obtain ⟨row, rfl⟩ := hc
      exact nodup_upsert h
    · rw [signalSnapshots_commit fun row h' ↦ hc ⟨row, h'⟩]
      exact h

end Snapshots

end Daku.Store
