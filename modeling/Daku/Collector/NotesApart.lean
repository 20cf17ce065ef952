import Daku.Base.Alike
import Daku.Collector.Loop
import Daku.Health.Notes

/-!
# Notes stay apart from the record

The turns of the collector loop, with every message they publish, next to notes that Operators
add at any time. Taking the notes out of a run changes nothing but notes.
-/

namespace Daku.Collector

open Daku.Base Daku.Base.Prog Daku.Protocol Daku.Store Daku.Health

/-- One turn of the loop and the messages it publishes (`collector.rs:394–430, 729–745`). -/
def Turn.messages (fromStr : FromStr) (toText : ToText) (poll : Nat) (turn : Turn) :
    DbProg (List ServerMessage) := do
  tick fromStr toText turn.runs
  publishDashboard fromStr turn.environments turn.now poll

/-- The loop over some turns. -/
def turnMessages (fromStr : FromStr) (toText : ToText) (poll : Nat) (turns : List Turn) :
    DbProg (List (List ServerMessage)) :=
  Prog.collect turns (Turn.messages fromStr toText poll)

/-- A published event without its note. -/
def dtoWithoutNote (event : HealthEventDto) : HealthEventDto := { event with note := none }

/-- A message without notes. -/
def messageWithoutNotes : ServerMessage → ServerMessage
  | .healthEventsUpdated environmentId events =>
    .healthEventsUpdated environmentId (events.map dtoWithoutNote)
  | message => message

/-- Messages that differ in notes only. -/
def SameMessages (ms ns : List ServerMessage) : Prop :=
  ms.map messageWithoutNotes = ns.map messageWithoutNotes

section Published

variable {fromStr : FromStr} {toText : ToText} {environmentId : String} {now : Int} {poll : Nat}

/-- A store without notes differs from the store in the rows of its events only. -/
theorem query_congr {α : Type} {q : Db → α} (hq : ∀ db, q (withoutNotes db) = q db) (s t : Db)
    (h : SameButNotes s t) : q s = q t := by
  rw [← hq s, h.same, hq]

/-- A query that reads no note. -/
theorem alike_unnoted {α : Type} {q : Db → α} (hq : ∀ db, q (withoutNotes db) = q db) :
    Alike SameButNotes Eq (query q : DbProg α) (query q) :=
  alike_query (query_congr hq)

theorem healthEventDto_unannotated (e : HealthEvent) :
    healthEventDto (unannotated e) = (healthEventDto e).map dtoWithoutNote := by
  rw [healthEventDto, healthEventDto, unannotated]
  cases HealthEventKind.parse e.kind with
  | none => rfl
  | some kind => cases EnvironmentHealth.parse e.toHealth <;> rfl

theorem loadHealthEvents_withoutNotes (limit : Nat) (db : Db) :
    loadHealthEvents environmentId limit (withoutNotes db) =
      (loadHealthEvents environmentId limit db).map unannotated := by
  have hrows : ((db.healthEvents.map unannotated).filter fun e ↦
      e.environmentId = environmentId) =
        (db.healthEvents.filter fun e ↦ e.environmentId = environmentId).map unannotated :=
    List.filter_map
  rw [loadHealthEvents, loadHealthEvents]
  simp only [withoutNotes]
  rw [hrows, newest_unannotated, oldestFirst, oldestFirst]
  exact (List.map_insertionSort _ _ unannotated _ fun _ _ _ _ ↦ Iff.rfl).symm

/-- The events published over similar stores. -/
theorem filterMap_healthEventDto (limit : Nat) (s t : Db) (h : SameButNotes s t) :
    ((loadHealthEvents environmentId limit s).filterMap healthEventDto).map dtoWithoutNote =
      ((loadHealthEvents environmentId limit t).filterMap healthEventDto).map dtoWithoutNote := by
  have hmap : ∀ db : Db,
      ((loadHealthEvents environmentId limit db).filterMap healthEventDto).map dtoWithoutNote =
        (loadHealthEvents environmentId limit (withoutNotes db)).filterMap healthEventDto := by
    intro db
    rw [loadHealthEvents_withoutNotes, List.filterMap_map, List.map_filterMap]
    exact congrArg (fun f ↦ List.filterMap f _) (funext fun e ↦ (healthEventDto_unannotated e).symm)
  rw [hmap, hmap, h.same]

theorem alike_collectEnvironment (signal : Signal) (observedAt : Int)
    (probe : EnvironmentConfig → Except String Observation) (e : EnvironmentConfig) :
    Alike SameButNotes Eq (collectEnvironment fromStr toText signal observedAt probe e)
      (collectEnvironment fromStr toText signal observedAt probe e) := by
  refine (alike_unnoted fun db ↦ rfl).bind ?_
  rintro gated _ rfl
  cases gated with
  | some reachability => exact alike_issue _
  | none =>
    simp only
    cases probe e with
    | error message => exact alike_issue _
    | ok observation =>
      exact (alike_issue _).bind fun _ _ _ ↦ alike_ite (alike_issue _) (.done rfl)

/-- The collectors of a tick read no note. -/
theorem alike_tick (runs : List CollectorRun) :
    Alike SameButNotes Eq (tick fromStr toText runs) (tick fromStr toText runs) := by
  refine alike_each runs fun run _ ↦ ?_
  cases run with
  | perEnvironment signal environments observedAt probe =>
    refine (alike_each environments fun e _ ↦
      alike_collectEnvironment signal observedAt probe e).bind fun _ _ _ ↦ ?_
    exact alike_ite (alike_issue _) (.done rfl)
  | inventory signalId environments observedAt finding =>
    exact alike_each environments fun e _ ↦ alike_issue _

/-- Recording health and build events reads no note. -/
theorem alike_recordHealthAndBuildEvents (health : EnvironmentHealth) (build : Option String) :
    Alike SameButNotes Eq (recordHealthAndBuildEvents environmentId health build now)
      (recordHealthAndBuildEvents environmentId health build now) := by
  have hprune : Alike SameButNotes Eq (pruneHealthEvents environmentId now)
      (pruneHealthEvents environmentId now) := (alike_issue _).bind fun _ _ _ ↦ alike_issue _
  refine (alike_unnoted fun db ↦ rfl).bind ?_
  rintro stored _ rfl
  cases stored with
  | none =>
    refine (alike_issue _).bind fun _ _ _ ↦ ?_
    cases build with
    | some b => exact (alike_issue _).bind fun _ _ _ ↦ hprune
    | none => exact hprune
  | some state =>
    have hstore : ∀ stored : PublishState, Alike SameButNotes Eq
        (issue (.storePublishState environmentId stored) >>= fun _ ↦
          pruneHealthEvents environmentId now : DbProg Unit)
        (issue (.storePublishState environmentId stored) >>= fun _ ↦
          pruneHealthEvents environmentId now) :=
      fun stored ↦ (alike_issue _).bind fun _ _ _ ↦ hprune
    have hbuild := fun stored event ↦ alike_ite (c := build.isSome ∧ build ≠ state.lastBuild)
      ((alike_issue (.recordHealthEvent event)).bind fun _ _ _ ↦ hstore stored) (hstore stored)
    exact alike_ite ((alike_issue _).bind fun _ _ _ ↦ hbuild _ _) (hbuild _ _)

/-- Recording Signal events reads no note. -/
theorem alike_recordSignalEvents (votes : List (String × SignalState)) :
    Alike SameButNotes Eq (recordSignalEvents environmentId votes now)
      (recordSignalEvents environmentId votes now) := by
  refine (alike_each votes fun vote _ ↦ ?_).bind fun _ _ _ ↦
    (alike_issue _).bind fun _ _ _ ↦ alike_issue _
  rw [recordSignalVote]
  refine alike_ite (.done rfl) ((alike_unnoted fun db ↦ rfl).bind ?_)
  rintro stored _ rfl
  cases stored with
  | none => exact alike_issue _
  | some stored =>
    exact alike_ite ((alike_issue _).bind fun _ _ _ ↦ alike_issue _) (alike_issue _)

/-- Deciding and recording one Environment reads no note. -/
theorem alike_publishEnvironment (snapshots : List SignalSnapshot) (e : EnvironmentConfig) :
    Alike SameButNotes Eq (publishEnvironment fromStr snapshots now poll e)
      (publishEnvironment fromStr snapshots now poll e) :=
  (alike_recordHealthAndBuildEvents _ _).bind fun _ _ _ ↦
    (alike_recordSignalEvents _).bind fun _ _ _ ↦ .done rfl

/-- The trends of a Signal are published without reading a note. -/
theorem alike_publishTrend (signalId : String) :
    Alike SameButNotes Eq (publishTrend environmentId now signalId)
      (publishTrend environmentId now signalId) := by
  refine (alike_unnoted fun db ↦ rfl).bind ?_
  rintro samples _ rfl
  refine (alike_issue _).bind fun _ _ _ ↦ (alike_unnoted fun db ↦ rfl).bind ?_
  rintro rollups _ rfl
  exact .done rfl

/-- Notes reach the messages of one Environment as notes only. -/
theorem alike_publishDetails (snapshots : List SignalSnapshot) (e : EnvironmentConfig) :
    Alike SameButNotes SameMessages (publishDetails snapshots now e)
      (publishDetails snapshots now e) := by
  have htrend : ∀ signalId ∈ trendSignals, Alike SameButNotes Eq
      (publishTrend e.id now signalId) (publishTrend e.id now signalId) :=
    fun signalId _ ↦ alike_publishTrend signalId
  have htrends := (alike_collect trendSignals htrend).mono fun as bs h ↦ List.forall₂_eq_eq_eq ▸ h
  refine htrends.bind ?_
  rintro trends _ rfl
  have hevents : Alike SameButNotes
      (fun es fs ↦ (es.filterMap healthEventDto).map dtoWithoutNote =
        (fs.filterMap healthEventDto).map dtoWithoutNote)
      (query (loadHealthEvents e.id healthEventPublishLimit) : DbProg (List HealthEvent))
      (query (loadHealthEvents e.id healthEventPublishLimit)) :=
    alike_query (filterMap_healthEventDto healthEventPublishLimit)
  refine (alike_issue _).bind fun _ _ _ ↦ hevents.bind fun es fs hes ↦
    (alike_unnoted fun db ↦ rfl).bind ?_
  rintro signalEvents _ rfl
  refine .done ?_
  simp only [SameMessages, List.map_append, List.map_cons, messageWithoutNotes, hes]

/-- Lists of the same messages are the same when joined. -/
theorem sameMessages_flatten {ms ns : List (List ServerMessage)}
    (h : List.Forall₂ SameMessages ms ns) : SameMessages ms.flatten ns.flatten := by
  induction h with
  | nil => rfl
  | cons hhead _ ih =>
    rw [List.flatten_cons, List.flatten_cons, SameMessages, List.map_append, List.map_append, ih,
      hhead]

/-- Notes reach what a publish sends as notes only. -/
theorem alike_publishDashboard (environments : List EnvironmentConfig) :
    Alike SameButNotes SameMessages (publishDashboard fromStr environments now poll)
      (publishDashboard fromStr environments now poll) := by
  refine (alike_unnoted fun db ↦ rfl).bind ?_
  rintro snapshots _ rfl
  have hsummary : ∀ e ∈ environments, Alike SameButNotes Eq
      (publishEnvironment fromStr snapshots now poll e)
      (publishEnvironment fromStr snapshots now poll e) :=
    fun e _ ↦ alike_publishEnvironment snapshots e
  have hsummaries := (alike_collect environments hsummary).mono
    fun as bs h ↦ List.forall₂_eq_eq_eq ▸ h
  refine hsummaries.bind ?_
  rintro published _ rfl
  refine (alike_collect environments fun e _ ↦ alike_publishDetails snapshots e).bind
    fun ms ns h ↦ .done ?_
  rw [SameMessages, List.map_cons, List.map_cons]
  exact congrArg _ (sameMessages_flatten h)

/-- Notes reach what the loop sends as notes only. -/
theorem alike_turnMessages (turns : List Turn) :
    Alike SameButNotes (List.Forall₂ SameMessages) (turnMessages fromStr toText poll turns)
      (turnMessages fromStr toText poll turns) :=
  alike_collect turns fun turn _ ↦
    (alike_tick turn.runs).bind fun _ _ _ ↦ alike_publishDashboard turn.environments

/-- Whatever notes Operators add between any two steps of the daemon, next to any other
statements: without them the loop is equally far, it has left the same database and it has sent
the same messages, up to the notes. -/
theorem notes_stay_apart (fromStr : FromStr) (toText : ToText) (poll : Nat) (turns : List Turn)
    (schedule : List (Option NoteAction)) (db : Db) (hkeys : KeysUnique db) :
    let loop := turnMessages fromStr toText poll turns
    let noted := among NoteAction.act schedule (loop, db)
    let plain := among NoteAction.act (schedule.filter fun o ↦ !o.any NoteAction.isNote) (loop, db)
    withoutNotes noted.2 = withoutNotes plain.2 ∧
      Option.Rel (List.Forall₂ SameMessages) noted.1.answer plain.1.answer := by
  intro loop noted plain
  have hloop : Alike SameButNotes (List.Forall₂ SameMessages) loop loop := alike_turnMessages turns
  have h := hloop.among NoteAction.act NoteAction.isNote (fun c s t hst ↦ hst.commit c)
    (fun action s t hst ↦ hst.act) (fun action s t hst ↦ hst.note)
    schedule ⟨rfl, hkeys⟩
  exact ⟨h.2.same, h.1.answer⟩

/-- One turn of the loop over prod, without collectors. -/
def quietTurns : List Turn := [⟨[], [prod], 20⟩]

/-- A note is added before the first step and another one between two later ones. -/
def notedSchedule : List (Option NoteAction) :=
  some (.annotate "prod" 10 .health "disk full") :: (List.replicate 6 none ++
    some (.annotate "prod" 10 .health "disk replaced") :: List.replicate 14 none)

theorem notes_stay_apart_noted :
    let loop := turnMessages emptyObjectFromStr (fun _ ↦ "{}") 60 quietTurns
    let plain := among NoteAction.act (notedSchedule.filter fun o ↦ !o.any NoteAction.isNote)
      (loop, Health.noted)
    withoutNotes (among NoteAction.act notedSchedule (loop, Health.noted)).2 =
        withoutNotes plain.2 ∧
      Option.Rel (List.Forall₂ SameMessages)
        (among NoteAction.act notedSchedule (loop, Health.noted)).1.answer plain.1.answer :=
  notes_stay_apart emptyObjectFromStr (fun _ ↦ "{}") 60 quietTurns notedSchedule Health.noted
    (by decide +kernel)

end Published

end Daku.Collector
