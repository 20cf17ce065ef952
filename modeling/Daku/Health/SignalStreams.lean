import Daku.Health.Recorded

/-!
# One Signal among many

`health.rs:500–507` gives each Signal its own streak and lets Skipped ticks leave it alone. So
what a Signal records follows from its own observations: the votes of other Signals, of other
Environments and the Skipped ticks between them do not show. Retention is left aside: it
removes rows by their age, whichever publish runs it.
-/

namespace Daku.Health

open Daku.Base Daku.Base.Prog Daku.Protocol Daku.Store

/-- The votes one publish of an Environment records, and when. -/
structure SignalPublish where
  environmentId : String
  votes : List (String × SignalState)
  now : Int
  deriving DecidableEq, Repr

/-- A sequence of publishes, of any Environments. -/
def publishSignals (ps : List SignalPublish) : DbProg Unit :=
  each ps fun p ↦ recordSignalEvents p.environmentId p.votes p.now

/-- What a vote observes of one Signal: nothing when it is Skipped or of another Signal. -/
def observation (signalId : String) (now : Int) (vote : String × SignalState) :
    Option (SignalState × Int) :=
  if vote.1 = signalId ∧ vote.2 ≠ .skipped then some (vote.2, now) else none

/-- The non-Skipped observations of one Signal with their publish times. -/
def observations (environmentId signalId : String) (ps : List SignalPublish) :
    List (SignalState × Int) :=
  ps.flatMap fun p ↦
    if p.environmentId = environmentId then p.votes.filterMap (observation signalId p.now) else []

/-- The event belongs to the Signal. -/
def isOf (environmentId signalId : String) (event : SignalEvent) : Bool :=
  event.environmentId = environmentId ∧ event.signalId = signalId

/-- The Signal event a statement inserts. -/
def insertion : Statement → Option SignalEvent
  | .recordSignalEvent event => some event
  | _ => none

/-- A statement of the retention of the Signal-event log. -/
def isSignalRetention : Statement → Bool
  | .deleteSignalEventsBefore _ _ => true
  | .keepNewestSignalEvents _ => true
  | _ => false

/-- The events a sequence of publishes inserts for one Signal. -/
def insertedEvents (environmentId signalId : String) (ps : List SignalPublish) (db : Db) :
    List SignalEvent :=
  (((publishSignals ps).trace db).filterMap insertion).filter (isOf environmentId signalId)

/-- The rows these insertions add when no retention statement runs: an insertion whose key is
taken adds none. -/
def insertedRows (environmentId signalId : String) (ps : List SignalPublish) (db : Db) :
    List SignalEvent :=
  (observed recordedSignalEvents
    (((publishSignals ps).trace db).filter fun c ↦ ¬isSignalRetention c) db).filter
    (isOf environmentId signalId)

/-- What one Signal inserts on its observations, from a stored streak on. -/
def streamEvents (environmentId signalId : String) :
    Option SignalPublishState → List (SignalState × Int) → List SignalEvent
  | _, [] => []
  | stored, (state, now) :: rest =>
    (stored.bind (dueSignalEvent environmentId signalId state now)).toList ++
      streamEvents environmentId signalId (some (nextSignalPublishState state stored)) rest

/-- The streak one Signal's observations leave. -/
def streamState (stored : Option SignalPublishState) (obs : List (SignalState × Int)) :
    Option SignalPublishState :=
  obs.foldl (fun s o ↦ some (nextSignalPublishState o.1 s)) stored

/-- Rows that insertions add to a log which holds `rows`. -/
def addedRows : List SignalEvent → List SignalEvent → List SignalEvent
  | _, [] => []
  | rows, e :: es =>
    if rows.any fun r ↦ r.key = e.key then addedRows rows es
    else e :: addedRows (rows ++ [e]) es

section Stream

variable {environmentId signalId : String}

private theorem streamEvents_append (stored : Option SignalPublishState)
    (obs rest : List (SignalState × Int)) :
    streamEvents environmentId signalId stored (obs ++ rest) =
      streamEvents environmentId signalId stored obs ++
        streamEvents environmentId signalId (streamState stored obs) rest := by
  induction obs generalizing stored with
  | nil => rfl
  | cons o obs ih =>
    obtain ⟨state, now⟩ := o
    simp only [List.cons_append, streamEvents, ih, List.append_assoc]
    rfl

/-- The statements `cs` treat the Signal as the observations `obs` do: they insert its events
and leave its streak. -/
private def Follows (environmentId signalId : String) (cs : List Statement) (db : Db)
    (obs : List (SignalState × Int)) : Prop :=
  (cs.filterMap insertion).filter (isOf environmentId signalId) =
      streamEvents environmentId signalId (db.signalPublishState (environmentId, signalId)) obs ∧
    (commitAll cs db).signalPublishState (environmentId, signalId) =
      streamState (db.signalPublishState (environmentId, signalId)) obs

private theorem Follows.append {cs ds : List Statement} {db : Db}
    {obs rest : List (SignalState × Int)} (h : Follows environmentId signalId cs db obs)
    (h' : Follows environmentId signalId ds (commitAll cs db) rest) :
    Follows environmentId signalId (cs ++ ds) db (obs ++ rest) := by
  obtain ⟨hevents, hstate⟩ := h
  obtain ⟨hevents', hstate'⟩ := h'
  rw [hstate] at hevents' hstate'
  constructor
  · rw [List.filterMap_append, List.filter_append, hevents, hevents', streamEvents_append]
  · rw [commitAll_append, hstate', streamState, streamState, streamState, List.foldl_append]

/-- Events of a vote are events of its own Signal. -/
private theorem isOf_dueSignalEvent {env id : String} {state : SignalState} {now : Int}
    {stored : SignalPublishState} {event : SignalEvent}
    (h : dueSignalEvent env id state now stored = some event) :
    isOf environmentId signalId event = true ↔ env = environmentId ∧ id = signalId := by
  obtain ⟨previous, -, rfl⟩ := Option.map_eq_some_iff.mp h
  simp [isOf]

/-- One vote is an observation of its own Signal, and of no other. -/
private theorem follows_vote (env : String) (now : Int) (vote : String × SignalState) (db : Db) :
    Follows environmentId signalId ((recordSignalVote env now vote).trace db) db
      (if env = environmentId then (observation signalId now vote).toList else []) := by
  rw [trace_recordSignalVote]
  obtain ⟨id, state⟩ := vote
  have hstate := signalPublishState_commitAll_voteStatements env now (id, state)
    (db.signalPublishState (env, id)) db
  by_cases hskip : state = .skipped
  · -- The early `continue`: nothing is issued.
    subst hskip
    have hobs : (if env = environmentId then
        (observation signalId now (id, SignalState.skipped)).toList else []) = [] := by
      simp [observation]
    rw [hobs]
    exact ⟨rfl, rfl⟩
  have hevents : ((voteStatements env now (id, state) (db.signalPublishState (env, id))).filterMap
      insertion) =
        ((db.signalPublishState (env, id)).bind (dueSignalEvent env id state now)).toList := by
    rw [voteStatements, if_neg hskip, List.filterMap_append, List.filterMap_map]
    simp only [List.filterMap_cons, List.filterMap_nil, insertion, List.append_nil]
    exact List.filterMap_some
  by_cases hmine : env = environmentId ∧ id = signalId
  · obtain ⟨rfl, rfl⟩ := hmine
    have hobs : (if env = env then (observation id now (id, state)).toList else []) =
        [(state, now)] := by
      simp [observation, hskip]
    rw [hobs]
    constructor
    · rw [hevents, streamEvents, streamEvents, List.append_nil, List.filter_eq_self]
      intro e he
      obtain ⟨stored, -, hdue⟩ := Option.bind_eq_some_iff.mp (Option.mem_toList.mp he)
      exact (isOf_dueSignalEvent hdue).mpr ⟨rfl, rfl⟩
    · rw [hstate, if_neg hskip, Function.update_self]
      rfl
  · have hobs : (if env = environmentId then
        (observation signalId now (id, state)).toList else []) = [] := by
      by_cases henv : env = environmentId
      · have hid : id ≠ signalId := fun h ↦ hmine ⟨henv, h⟩
        simp [observation, hid]
      · rw [if_neg henv]
    rw [hobs]
    constructor
    · rw [hevents, streamEvents, List.filter_eq_nil_iff]
      intro e he
      obtain ⟨stored, -, hdue⟩ := Option.bind_eq_some_iff.mp (Option.mem_toList.mp he)
      exact mt (isOf_dueSignalEvent hdue).mp hmine
    · have hkey : (environmentId, signalId) ≠ (env, id) := fun h ↦
        hmine ⟨(Prod.ext_iff.mp h).1.symm, (Prod.ext_iff.mp h).2.symm⟩
      rw [hstate, if_neg hskip, Function.update_of_ne hkey]
      rfl

/-- A round of votes is the Signal's observations among them. -/
private theorem follows_votes (env : String) (now : Int) (votes : List (String × SignalState))
    (db : Db) :
    Follows environmentId signalId ((each votes (recordSignalVote env now)).trace db) db
      (if env = environmentId then votes.filterMap (observation signalId now) else []) := by
  induction votes generalizing db with
  | nil =>
    rw [List.filterMap_nil, ite_self]
    exact ⟨rfl, rfl⟩
  | cons vote votes ih =>
    have hsplit : (if env = environmentId then
        (vote :: votes).filterMap (observation signalId now) else []) =
          (if env = environmentId then (observation signalId now vote).toList else []) ++
            (if env = environmentId then votes.filterMap (observation signalId now) else []) := by
      split
      · cases h : observation signalId now vote <;> simp [h]
      · rfl
    rw [trace_each_cons, hsplit]
    exact (follows_vote env now vote db).append (ih _)

/-- One publish of an Environment. -/
private theorem follows_recordSignalEvents (p : SignalPublish) (db : Db) :
    Follows environmentId signalId
      ((recordSignalEvents p.environmentId p.votes p.now).trace db) db
      (if p.environmentId = environmentId then p.votes.filterMap (observation signalId p.now)
        else []) := by
  have hprune : Follows environmentId signalId (pruneSignalStatements p.environmentId p.now)
      (commitAll ((each p.votes (recordSignalVote p.environmentId p.now)).trace db) db) [] :=
    ⟨rfl, rfl⟩
  have h := (follows_votes p.environmentId p.now p.votes db).append hprune
  rw [List.append_nil] at h
  rw [recordSignalEvents, trace_bind]
  exact h

/-- A sequence of publishes inserts for a Signal what its observations make it insert. -/
private theorem follows_publishSignals (ps : List SignalPublish) (db : Db) :
    Follows environmentId signalId ((publishSignals ps).trace db) db
      (observations environmentId signalId ps) := by
  induction ps generalizing db with
  | nil => exact ⟨rfl, rfl⟩
  | cons p ps ih =>
    rw [publishSignals, trace_each_cons, observations, List.flatMap_cons]
    exact (follows_recordSignalEvents p db).append (ih _)

end Stream

section Rows

variable {environmentId signalId : String}

/-- Other Signals' rows take no key of the Signal. -/
private theorem any_key_filter {e : SignalEvent} (he : isOf environmentId signalId e = true)
    (rows : List SignalEvent) :
    (rows.any fun r ↦ r.key = e.key) =
      ((rows.filter (isOf environmentId signalId)).any fun r ↦ r.key = e.key) := by
  rw [Bool.eq_iff_iff, List.any_eq_true, List.any_eq_true]
  constructor
  · rintro ⟨r, hr, hk⟩
    have hkey : r.key = e.key := by simpa using hk
    have hmine : isOf environmentId signalId r = true := by
      simp only [SignalEvent.key, Prod.mk.injEq] at hkey
      simpa [isOf, hkey.1, hkey.2.1] using he
    exact ⟨r, List.mem_filter.mpr ⟨hr, hmine⟩, hk⟩
  · rintro ⟨r, hr, hk⟩
    exact ⟨r, (List.mem_filter.mp hr).1, hk⟩

/-- An insertion adds its row to the Signal-event log unless the key is taken; no statement
but an insertion and the retention touches the log. -/
private theorem signalEvents_commit {c : Statement} (hc : isSignalRetention c = false) (db : Db) :
    (commit c db).signalEvents = db.signalEvents ++ recordedSignalEvents c db := by
  cases c with
  | recordSignalEvent event =>
    by_cases hany : db.signalEvents.any fun r ↦ r.key = event.key
    · rw [recordedSignalEvents, if_pos hany, List.append_nil]
      exact if_pos hany
    · rw [recordedSignalEvents, if_neg hany]
      exact insertNew_of_new (by simpa using hany)
  | deleteSignalEventsBefore => cases hc
  | keepNewestSignalEvents => cases hc
  | recordHourRollup environmentId signalId hourStart =>
    rw [commit_eq, Db.commit]
    split <;> exact (List.append_nil _).symm
  | _ => exact (List.append_nil _).symm

/-- Without retention, the rows added for a Signal follow from its insertions. -/
private theorem observed_filter (cs : List Statement) (db : Db)
    (hcs : ∀ c ∈ cs, isSignalRetention c = false) :
    (observed recordedSignalEvents cs db).filter (isOf environmentId signalId) =
      addedRows (db.signalEvents.filter (isOf environmentId signalId))
        ((cs.filterMap insertion).filter (isOf environmentId signalId)) := by
  induction cs generalizing db with
  | nil => rfl
  | cons c cs ih =>
    have hrows := signalEvents_commit (hcs c List.mem_cons_self) db
    have hrest := ih (commit c db) fun d hd ↦ hcs d (List.mem_cons_of_mem _ hd)
    rw [observed_cons, List.filter_append, hrest, hrows, List.filter_append]
    cases hins : insertion c with
    | none =>
      have hnone : recordedSignalEvents c db = [] := by
        cases c <;> first | rfl | cases hins
      rw [hnone, List.filterMap_cons_none hins]
      simp
    | some event =>
      obtain rfl : c = .recordSignalEvent event := by
        cases c <;> cases hins
        rfl
      rw [List.filterMap_cons_some hins, recordedSignalEvents]
      by_cases hmine : isOf environmentId signalId event = true
      · rw [List.filter_cons_of_pos hmine, addedRows, ← any_key_filter hmine]
        split
        · simp
        · simp [hmine]
      · rw [List.filter_cons_of_neg hmine]
        split
        · simp
        · simp [hmine]

private theorem filterMap_insertion_filter (cs : List Statement) :
    (cs.filter fun c ↦ ¬isSignalRetention c).filterMap insertion = cs.filterMap insertion := by
  rw [List.filterMap_filter]
  refine List.filterMap_congr fun c _ ↦ ?_
  cases c <;> rfl

end Rows

/-- For every sequence of publishes and every Signal, what is inserted for the Signal, and which
rows that adds, depends only on its non-Skipped observations and their publish times: Skipped
ticks, missing snapshots, other Signals' votes and other Environments are transparent. -/
theorem insertedEvents_eq_of_observations_eq (environmentId signalId : String)
    (ps qs : List SignalPublish) (db : Db)
    (h : observations environmentId signalId ps = observations environmentId signalId qs) :
    insertedEvents environmentId signalId ps db = insertedEvents environmentId signalId qs db ∧
      insertedRows environmentId signalId ps db = insertedRows environmentId signalId qs db := by
  have hevents : insertedEvents environmentId signalId ps db =
      insertedEvents environmentId signalId qs db := by
    rw [insertedEvents, insertedEvents, (follows_publishSignals ps db).1,
      (follows_publishSignals qs db).1, h]
  have hrows : ∀ rs : List SignalPublish, insertedRows environmentId signalId rs db =
      addedRows (db.signalEvents.filter (isOf environmentId signalId))
        (insertedEvents environmentId signalId rs db) := by
    intro rs
    rw [insertedRows, observed_filter _ _ (by simp), filterMap_insertion_filter, insertedEvents]
  exact ⟨hevents, by rw [hrows, hrows, hevents]⟩

/-- A Skipped tick between two degraded publishes, a tick without the Signal and another
Environment's votes leave the one recorded turn as it is. -/
theorem insertedEvents_with_skipped_tick :
    let quiet : List SignalPublish := [⟨"prod", [("syslog", .healthy)], 100⟩,
      ⟨"prod", [("syslog", .degraded)], 200⟩, ⟨"prod", [("syslog", .degraded)], 400⟩]
    let busy : List SignalPublish := [⟨"prod", [("jobs", .down), ("syslog", .healthy)], 100⟩,
      ⟨"prod", [("syslog", .degraded), ("jobs", .down)], 200⟩, ⟨"test", [("syslog", .down)], 250⟩,
      ⟨"prod", [("syslog", .skipped)], 300⟩, ⟨"prod", [("jobs", .healthy)], 350⟩,
      ⟨"prod", [("syslog", .degraded)], 400⟩]
    insertedEvents "prod" "syslog" quiet .empty =
        [⟨"prod", "syslog", 400, some "healthy", "degraded"⟩] ∧
      insertedEvents "prod" "syslog" quiet .empty = insertedEvents "prod" "syslog" busy .empty ∧
      insertedRows "prod" "syslog" quiet .empty = insertedRows "prod" "syslog" busy .empty :=
  ⟨by decide, insertedEvents_eq_of_observations_eq "prod" "syslog" _ _ .empty (by decide)⟩

end Daku.Health
