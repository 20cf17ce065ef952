import Daku.Base.LastWrite
import Daku.Base.Text
import Daku.Health.Recorded
import Mathlib.Data.List.DropRight

/-!
# Notes on health events

`annotate_health_event` of `crates/daku-core/src/persistence.rs:598–616` and the command that calls
it (`crates/daku-daemon/src/main.rs:170–193`), next to every statement the daemon issues. Notes
ride alongside the events: nothing the daemon does depends on them or overwrites them.
-/

namespace Daku.Health

open Daku.Base Daku.Store Daku.Protocol

/-- Longest note, in characters (`main.rs:178`). -/
def maxNoteChars : Nat := 500

/-- The note that is stored: cut, trimmed, and nothing if that leaves nothing
(`main.rs:178, 186`, `persistence.rs:607–608`). -/
def storedNote (note : String) : Option String :=
  let note := trim (trim (String.ofList (note.toList.take maxNoteChars)))
  if note = "" then none else some note

/-- `annotate_health_event` on the cleaned note: how many rows are updated, and the database
(`persistence.rs:609–615`). -/
def annotateHealthEvent (key : String × Int × String) (note : Option String) (db : Db) :
    Nat × Db :=
  ((db.healthEvents.filter fun e ↦ e.key = key).length,
    { db with healthEvents := db.healthEvents.map fun e ↦
        if e.key = key then { e with note } else e })

/-- `AddHealthEventNote` (`main.rs:170–193`). -/
def addHealthEventNote (environmentId : String) (observedAt : Int) (kind : HealthEventKind)
    (note : String) (db : Db) : Except String Unit × Db :=
  let (updated, db) :=
    annotateHealthEvent (environmentId, observedAt, kind.asStr) (storedNote note) db
  (if updated = 0 then .error s!"unknown health event for {environmentId}" else .ok (), db)

/-- A statement of the daemon, or a note an Operator adds. -/
inductive NoteAction where
  | sql (c : Statement)
  | annotate (environmentId : String) (observedAt : Int) (kind : HealthEventKind) (note : String)

/-- What an action does to the database. -/
def NoteAction.act : NoteAction → Db → Db
  | sql c, db => commit c db
  | annotate environmentId observedAt kind note, db =>
    (addHealthEventNote environmentId observedAt kind note db).2

/-- What a list of actions does to the database. -/
def actAll (actions : List NoteAction) (db : Db) : Db :=
  actions.foldl (fun db action ↦ action.act db) db

/-- The action is a note. -/
def NoteAction.isNote : NoteAction → Bool
  | sql _ => false
  | annotate .. => true

/-- The note an action leaves on the event, if it annotates it. -/
def NoteAction.noteFor (key : String × Int × String) : NoteAction → Option (Option String)
  | sql _ => none
  | annotate environmentId observedAt kind note =>
    if (environmentId, observedAt, kind.asStr) = key then some (storedNote note) else none

/-- The note the last annotation of an event leaves, or the one it had. -/
def lastNote (key : String × Int × String) (actions : List NoteAction) (before : Option String) :
    Option String :=
  lastWrite (NoteAction.noteFor key) actions before

/-- The event without its note. -/
def unannotated (e : HealthEvent) : HealthEvent := { e with note := none }

/-- The database without notes. -/
def withoutNotes (db : Db) : Db := { db with healthEvents := db.healthEvents.map unannotated }

/-- The database has the event. -/
def HasEvent (key : String × Int × String) (db : Db) : Prop := ∃ e ∈ db.healthEvents, e.key = key

instance (key : String × Int × String) (db : Db) : Decidable (HasEvent key db) :=
  inferInstanceAs (Decidable (∃ e ∈ db.healthEvents, e.key = key))

/-- The event is there all along. -/
def Stays (key : String × Int × String) : List NoteAction → Db → Prop
  | [], db => HasEvent key db
  | action :: actions, db => HasEvent key db ∧ Stays key actions (action.act db)

/-- The note of an event. -/
def noteOf (key : String × Int × String) (db : Db) : Option String :=
  (db.healthEvents.find? fun e ↦ e.key = key).bind HealthEvent.note

/-- Primary key of the events (`db/migrations/0001_petite_morbius.sql:9–17`). -/
def KeysUnique (db : Db) : Prop := (db.healthEvents.map HealthEvent.key).Nodup

instance (db : Db) : Decidable (KeysUnique db) :=
  inferInstanceAs (Decidable (db.healthEvents.map HealthEvent.key).Nodup)

instance Stays.decidable (key : String × Int × String) :
    (actions : List NoteAction) → (db : Db) → Decidable (Stays key actions db)
  | [], db => inferInstanceAs (Decidable (HasEvent key db))
  | action :: actions, db =>
    have := Stays.decidable key actions (action.act db)
    inferInstanceAs (Decidable (HasEvent key db ∧ Stays key actions (action.act db)))

/-- The stores differ in notes only. -/
structure SameButNotes (s t : Db) : Prop where
  same : withoutNotes s = withoutNotes t
  keys : KeysUnique s

section Text

/-- Trimming twice is trimming once. -/
theorem trim_trim (text : String) : trim (trim text) = trim text := by
  have hright : ∀ l : List Char, (l.reverse.dropWhile isUnicodeSpace).reverse =
      l.rdropWhile isUnicodeSpace := fun _ ↦ rfl
  rw [trim, trim, String.toList_ofList, hright, hright]
  have hstart : ((text.toList.dropWhile isUnicodeSpace).rdropWhile isUnicodeSpace).dropWhile
      isUnicodeSpace = (text.toList.dropWhile isUnicodeSpace).rdropWhile isUnicodeSpace := by
    rw [List.dropWhile_eq_self_iff]
    intro hpos
    have hstarts := List.rdropWhile_prefix isUnicodeSpace
      (l := text.toList.dropWhile isUnicodeSpace)
    have hlong : 0 < (text.toList.dropWhile isUnicodeSpace).length :=
      hpos.trans_le hstarts.length_le
    rw [hstarts.getElem hpos]
    exact List.dropWhile_get_zero_not _ _ hlong
  rw [hstart, List.rdropWhile_idempotent]

/-- Trimming does not make a text longer. -/
theorem length_trim_le (text : String) : (trim text).length ≤ text.length := by
  rw [trim, String.length_ofList, List.length_reverse, ← String.length_toList]
  calc ((text.toList.dropWhile isUnicodeSpace).reverse.dropWhile isUnicodeSpace).length
      ≤ (text.toList.dropWhile isUnicodeSpace).reverse.length :=
        (List.dropWhile_sublist _).length_le
    _ = (text.toList.dropWhile isUnicodeSpace).length := List.length_reverse
    _ ≤ text.toList.length := (List.dropWhile_sublist _).length_le

/-- A stored note is trimmed, not empty and at most 500 characters long. -/
theorem of_storedNote {note text : String} (h : storedNote note = some text) :
    trim text = text ∧ text ≠ "" ∧ text.length ≤ maxNoteChars := by
  rw [storedNote] at h
  simp only [trim_trim] at h
  split at h
  · cases h
  · next hne =>
    obtain rfl := Option.some.inj h
    refine ⟨trim_trim _, hne, (length_trim_le _).trans ?_⟩
    rw [String.length_ofList, List.length_take]
    exact Nat.min_le_left _ _

end Text

section Rows

variable {rows : List HealthEvent} {key : String × Int × String} {db : Db}

@[simp] theorem key_unannotated (e : HealthEvent) : (unannotated e).key = e.key := rfl

/-- Notes do not matter to which rows are the newest. -/
theorem newest_unannotated (n : Nat) (rows : List HealthEvent) :
    newest HealthEvent.observedAt n (rows.map unannotated) =
      (newest HealthEvent.observedAt n rows).map unannotated := by
  have hsort := List.map_insertionSort (r := fun a b : HealthEvent ↦ b.observedAt ≤ a.observedAt)
    (s := fun a b : HealthEvent ↦ b.observedAt ≤ a.observedAt) unannotated rows.reverse
    fun _ _ _ _ ↦ Iff.rfl
  rw [newest, newest, newestFirst, newestFirst, ← List.map_reverse, List.map_take, hsort]

/-- Under a primary key the count bound drops the same events with and without notes. -/
theorem keepNewest_unannotated (environmentId : String)
    (hkeys : (rows.map HealthEvent.key).Nodup) :
    keepNewest HealthEvent.environmentId HealthEvent.observedAt environmentId
        (rows.map unannotated) =
      (keepNewest HealthEvent.environmentId HealthEvent.observedAt environmentId rows).map
        unannotated := by
  have hrows : ((rows.map unannotated).filter fun q ↦ q.environmentId = environmentId) =
      (rows.filter fun q ↦ q.environmentId = environmentId).map unannotated := List.filter_map
  rw [keepNewest, keepNewest, hrows, newest_unannotated, List.filter_map]
  refine congrArg (List.map unannotated) (List.filter_congr fun e he ↦ ?_)
  have hmem : unannotated e ∈ (newest HealthEvent.observedAt healthEventsMaxPerEnv
      (rows.filter fun q ↦ q.environmentId = environmentId)).map unannotated ↔
      e ∈ newest HealthEvent.observedAt healthEventsMaxPerEnv
        (rows.filter fun q ↦ q.environmentId = environmentId) := by
    constructor
    · intro h
      obtain ⟨q, hq, heq⟩ := List.mem_map.mp h
      have hrow : q ∈ rows := List.mem_of_mem_filter (mem_of_mem_newest hq)
      have hkey : q.key = e.key := by
        rw [← key_unannotated q, heq, key_unannotated]
      rwa [← List.inj_on_of_nodup_map hkeys hrow he hkey]
    · exact List.mem_map_of_mem
  exact decide_eq_decide.mpr (or_congr Iff.rfl hmem)

/-- Recording does not look at notes. -/
theorem insertNew_unannotated (event : HealthEvent) :
    insertNew HealthEvent.key { event with note := none } (rows.map unannotated) =
      (insertNew HealthEvent.key { event with note := none } rows).map unannotated := by
  have hany : ((rows.map unannotated).any fun r ↦ r.key = event.key) =
      rows.any fun r ↦ r.key = event.key := by
    rw [List.any_map]
    rfl
  rw [insertNew, insertNew]
  change (if ((rows.map unannotated).any fun r ↦ r.key = event.key) = true then _ else _) = _
  rw [hany]
  change _ = List.map unannotated
    (if (rows.any fun r ↦ r.key = event.key) = true then rows else _)
  split
  · rfl
  · rw [List.map_append]
    rfl

end Rows

section Statements

variable {s t db : Db}

/-- A statement does the same to a database with notes and without. -/
theorem withoutNotes_commit (c : Statement) (h : KeysUnique db) :
    withoutNotes (commit c db) = commit c (withoutNotes db) := by
  cases c with
  | recordHealthEvent event =>
    simp only [commit_eq, Db.commit, withoutNotes, insertNew_unannotated]
  | deleteHealthEventsBefore environmentId cutoff =>
    have hfilter : ((db.healthEvents.map unannotated).filter fun e ↦
          e.environmentId ≠ environmentId ∨ cutoff ≤ e.observedAt) =
        (db.healthEvents.filter fun e ↦
          e.environmentId ≠ environmentId ∨ cutoff ≤ e.observedAt).map unannotated :=
      List.filter_map
    simp only [commit_eq, Db.commit, withoutNotes, hfilter]
  | keepNewestHealthEvents environmentId =>
    simp only [commit_eq, Db.commit, withoutNotes, keepNewest_unannotated environmentId h]
  | recordHourRollup =>
    simp only [commit_eq, Db.commit, withoutNotes]
    split <;> rfl
  | _ => rfl

/-- Statements keep the primary key of the events. -/
theorem KeysUnique.commit (c : Statement) (h : KeysUnique db) :
    KeysUnique (Base.commit c db) := by
  cases c with
  | recordHealthEvent event => exact nodup_insertNew h
  | deleteHealthEventsBefore => exact h.sublist (List.filter_sublist.map _)
  | keepNewestHealthEvents => exact h.sublist (List.filter_sublist.map _)
  | recordHourRollup =>
    simp only [commit_eq, Db.commit]
    split <;> exact h
  | _ => exact h

/-- A note changes no key. -/
theorem keys_annotate (key : String × Int × String) (note : Option String) (db : Db) :
    (annotateHealthEvent key note db).2.healthEvents.map HealthEvent.key =
      db.healthEvents.map HealthEvent.key := by
  rw [annotateHealthEvent, List.map_map]
  refine List.map_congr_left fun e _ ↦ ?_
  simp only [Function.comp_apply]
  split <;> rfl

/-- A note changes nothing else. -/
theorem withoutNotes_annotate (key : String × Int × String) (note : Option String) (db : Db) :
    withoutNotes (annotateHealthEvent key note db).2 = withoutNotes db := by
  have hrows : (annotateHealthEvent key note db).2.healthEvents.map unannotated =
      db.healthEvents.map unannotated := by
    rw [annotateHealthEvent, List.map_map]
    refine List.map_congr_left fun e _ ↦ ?_
    simp only [Function.comp_apply]
    split <;> rfl
  simp only [withoutNotes, hrows]
  rfl

/-- Every action keeps the primary key. -/
theorem KeysUnique.act (action : NoteAction) (h : KeysUnique db) : KeysUnique (action.act db) := by
  cases action with
  | sql c => exact h.commit c
  | annotate =>
    rw [KeysUnique, NoteAction.act, addHealthEventNote]
    exact (keys_annotate _ _ db).symm ▸ h

theorem SameButNotes.keys_right (h : SameButNotes s t) : KeysUnique t := by
  have hrows : s.healthEvents.map unannotated = t.healthEvents.map unannotated :=
    congrArg Db.healthEvents h.same
  have hkeys := congrArg (List.map HealthEvent.key) hrows
  rw [List.map_map, List.map_map] at hkeys
  have hnodup : (t.healthEvents.map (HealthEvent.key ∘ unannotated)).Nodup := hkeys ▸ h.keys
  exact hnodup

theorem SameButNotes.commit (c : Statement) (h : SameButNotes s t) :
    SameButNotes (Base.commit c s) (Base.commit c t) where
  same := by
    rw [withoutNotes_commit c h.keys, withoutNotes_commit c h.keys_right, h.same]
  keys := h.keys.commit c

/-- Statements act on both alike. -/
theorem SameButNotes.act {action : NoteAction} (h : SameButNotes s t)
    (hsql : action.isNote = false) : SameButNotes (action.act s) (action.act t) := by
  cases action with
  | sql c => exact h.commit c
  | annotate => cases hsql

/-- A note keeps the stores alike. -/
theorem SameButNotes.note {action : NoteAction} (h : SameButNotes s t)
    (hnote : action.isNote = true) : SameButNotes (action.act s) t where
  same := by
    cases action with
    | sql c => cases hnote
    | annotate => exact (withoutNotes_annotate _ _ s).trans h.same
  keys := h.keys.act action

end Statements

section ReadBack

variable {key : String × Int × String} {db : Db}

/-- Under the primary key a note is that of its event. -/
theorem noteOf_eq {e : HealthEvent} (h : KeysUnique db) (he : e ∈ db.healthEvents) :
    noteOf e.key db = e.note := by
  rw [noteOf, (find?_key_eq_some_iff h).mpr ⟨he, rfl⟩]
  rfl

/-- A stored event is not recorded again. -/
theorem mem_of_mem_commit {c : Statement} {e : HealthEvent} (hevent : HasEvent key db)
    (he : e ∈ (commit c db).healthEvents) (hkey : e.key = key) : e ∈ db.healthEvents := by
  rcases mem_healthEvents_commit he with hmem | ⟨event, rfl, rfl⟩
  · exact hmem
  · have hany : (db.healthEvents.any fun r ↦ r.key = ({ event with note := none }).key) = true := by
      obtain ⟨r, hr, hrkey⟩ := hevent
      exact List.any_eq_true.mpr ⟨r, hr, by simp [hrkey, hkey]⟩
    simp only [commit_eq, Db.commit, insertNew, if_pos hany] at he
    exact he

/-- A statement leaves the note of an event that stays. -/
theorem noteOf_commit {c : Statement} (h : KeysUnique db) (hevent : HasEvent key db)
    (hstays : HasEvent key (commit c db)) : noteOf key (commit c db) = noteOf key db := by
  obtain ⟨e, he, rfl⟩ := hstays
  rw [noteOf_eq (h.commit c) he, noteOf_eq h (mem_of_mem_commit hevent he rfl)]

/-- An annotation sets the note of its event, and of no other. -/
theorem noteOf_annotate (target : String × Int × String) (note : Option String)
    (h : KeysUnique db) (hevent : HasEvent key db) :
    noteOf key (annotateHealthEvent target note db).2 =
      if target = key then note else noteOf key db := by
  obtain ⟨e, he, rfl⟩ := hevent
  have hkeys : KeysUnique (annotateHealthEvent target note db).2 := by
    rw [KeysUnique, keys_annotate]
    exact h
  have hmem : (if e.key = target then { e with note } else e) ∈
      (annotateHealthEvent target note db).2.healthEvents := List.mem_map_of_mem he
  by_cases htarget : e.key = target
  · rw [if_pos htarget] at hmem
    rw [if_pos htarget.symm]
    exact noteOf_eq hkeys hmem
  · rw [if_neg htarget] at hmem
    rw [if_neg (Ne.symm htarget), noteOf_eq hkeys hmem, noteOf_eq h he]

/-- One action on an event that stays. -/
theorem noteOf_act {action : NoteAction} (h : KeysUnique db) (hevent : HasEvent key db)
    (hstays : HasEvent key (action.act db)) :
    noteOf key (action.act db) = (action.noteFor key).getD (noteOf key db) := by
  cases action with
  | sql c => exact noteOf_commit h hevent hstays
  | annotate environmentId observedAt kind note =>
    have hnote := noteOf_annotate (environmentId, observedAt, kind.asStr) (storedNote note) h
      hevent
    simp only [NoteAction.act, addHealthEventNote, NoteAction.noteFor, hnote]
    by_cases hkey : (environmentId, observedAt, kind.asStr) = key
    · rw [if_pos hkey, if_pos hkey, Option.getD_some]
    · rw [if_neg hkey, if_neg hkey, Option.getD_none]

theorem Stays.hasEvent {actions : List NoteAction} (h : Stays key actions db) :
    HasEvent key db := by
  cases actions with
  | nil => exact h
  | cons action actions => exact h.1

/-- The note of an event that stays is that of its last annotation. -/
theorem noteOf_actAll {actions : List NoteAction} (h : KeysUnique db)
    (hstays : Stays key actions db) :
    noteOf key (actAll actions db) = lastNote key actions (noteOf key db) := by
  induction actions generalizing db with
  | nil => rfl
  | cons action actions ih =>
    rw [lastNote, lastWrite_cons, ← noteOf_act h hstays.1 hstays.2.hasEvent]
    exact ih (h.act action) hstays.2

theorem KeysUnique.actAll (actions : List NoteAction) (h : KeysUnique db) :
    KeysUnique (Health.actAll actions db) := by
  induction actions generalizing db with
  | nil => exact h
  | cons action actions ih => exact ih (h.act action)

/-- Once an event is annotated, its note is the text of one of its annotations. -/
theorem exists_lastNote {actions : List NoteAction}
    (h : ∃ action ∈ actions, (action.noteFor key).isSome) :
    ∃ note, ∀ before, lastNote key actions before = storedNote note := by
  obtain ⟨noted, -, hlast⟩ := exists_lastWrite h
  cases noted with
  | sql c => cases hlast none
  | annotate environmentId observedAt kind note =>
    refine ⟨note, fun before ↦ ?_⟩
    have hnote := hlast before
    rw [NoteAction.noteFor] at hnote
    split at hnote
    · exact (Option.some.inj hnote).symm
    · cases hnote

/-- The desktop is shown a stored note as it is stored. -/
theorem filter_storedNote (note : String) :
    (storedNote note).filter (fun text ↦ trim text ≠ "") = storedNote note := by
  cases hstored : storedNote note with
  | none => rfl
  | some text =>
    obtain ⟨htrim, hne, -⟩ := of_storedNote hstored
    simp [htrim, hne]

/-- Whatever the daemon does in between, an event that stays has the note of its last
annotation, and once it is annotated the desktop is shown that note. -/
theorem annotation_read_back (key : String × Int × String) (actions : List NoteAction) (db : Db)
    (hkeys : KeysUnique db) (hstays : Stays key actions db) :
    noteOf key (actAll actions db) = lastNote key actions (noteOf key db) ∧
    ∀ e ∈ (actAll actions db).healthEvents, e.key = key →
      (∃ action ∈ actions, (action.noteFor key).isSome) →
      ∀ dto, healthEventDto e = some dto → dto.note = lastNote key actions none := by
  refine ⟨noteOf_actAll hkeys hstays, ?_⟩
  rintro e he rfl hannotated dto hdto
  have hnote : e.note = lastNote e.key actions (noteOf e.key db) := by
    rw [← noteOf_actAll hkeys hstays, noteOf_eq (hkeys.actAll actions) he]
  obtain ⟨note, hlast⟩ := exists_lastNote hannotated
  simp only [healthEventDto, Option.bind_eq_bind] at hdto
  obtain ⟨kind, -, hdto⟩ := Option.bind_eq_some_iff.mp hdto
  obtain ⟨toHealth, -, hdto⟩ := Option.bind_eq_some_iff.mp hdto
  obtain rfl := Option.some.inj hdto
  rw [hlast, ← filter_storedNote note, ← hlast (noteOf e.key db), ← hnote]

/-- A database with one event of prod. -/
def noted : Db :=
  { Db.empty with healthEvents := [{
      environmentId := "prod", observedAt := 10, kind := "health", fromHealth := some "healthy"
      toHealth := "down", build := none, note := none }] }

/-- The event is recorded again, annotated and pruned around. -/
def notedActions : List NoteAction :=
  [.annotate "prod" 10 .health "  disk full ", .sql (.recordHealthEvent {
      environmentId := "prod", observedAt := 10, kind := "health", fromHealth := none
      toHealth := "down", build := none, note := none }),
    .sql (.deleteHealthEventsBefore "prod" 5), .annotate "prod" 11 .build "other"]

theorem annotation_read_back_noted :
    noteOf ("prod", 10, "health") (actAll notedActions noted) = some "disk full" :=
  (annotation_read_back ("prod", 10, "health") notedActions noted (by decide +kernel)
    (by decide +kernel)).1.trans (by decide +kernel)

end ReadBack

end Daku.Health
