import Daku.Health.Due

/-!
# Rows a publish adds

Events are judged by the rows their statements add, not by what retention leaves of them: a
statement that hits an existing key adds nothing. This module says which rows one publish adds
and which streak states it leaves, for every content of the database.
-/

namespace Daku.Health

open Daku.Base Daku.Base.Prog Daku.Protocol Daku.Store

/-- Health-event rows a statement adds. -/
def recordedHealthEvents : Statement → Db → List HealthEvent
  | .recordHealthEvent event, db =>
    if db.healthEvents.any fun r ↦ r.key = event.key then [] else [{ event with note := none }]
  | _, _ => []

/-- Signal-event rows a statement adds. -/
def recordedSignalEvents : Statement → Db → List SignalEvent
  | .recordSignalEvent event, db =>
    if db.signalEvents.any fun r ↦ r.key = event.key then [] else [event]
  | _, _ => []

/-- No stored health event of the Environment is keyed by the time `now`. -/
def HealthEventsFresh (environmentId : String) (now : Int) (db : Db) : Prop :=
  ∀ e ∈ db.healthEvents, e.environmentId = environmentId → e.observedAt ≠ now

/-- No stored Signal event of the Environment is keyed by the time `now`. -/
def SignalEventsFresh (environmentId : String) (now : Int) (db : Db) : Prop :=
  ∀ e ∈ db.signalEvents, e.environmentId = environmentId → e.observedAt ≠ now

instance (environmentId : String) (now : Int) (db : Db) :
    Decidable (HealthEventsFresh environmentId now db) := by
  unfold HealthEventsFresh
  infer_instance

instance (environmentId : String) (now : Int) (db : Db) :
    Decidable (SignalEventsFresh environmentId now db) := by
  unfold SignalEventsFresh
  infer_instance

/-- What a health event says, apart from when. -/
def healthContent (event : HealthEvent) : String × Option String × String × Option String :=
  (event.kind, event.fromHealth, event.toHealth, event.build)

/-- What a Signal event says, apart from when. -/
def signalContent (event : SignalEvent) : String × Option String × String :=
  (event.signalId, event.fromState, event.toState)

/-- A publish over a stored state confirms a health change worth an event. -/
def HealthDue (health : EnvironmentHealth) (state : PublishState) : Prop :=
  health.asStr = state.lastHealth ∧ state.consecutive = 1 ∧
    ∃ p, state.previousHealth = some p ∧ p ≠ health.asStr ∧ announced health p

/-- A publish over a stored state observes a new build. -/
def BuildDue (build : Option String) (state : PublishState) : Prop :=
  build ≠ none ∧ build ≠ state.lastBuild

/-- A vote over a stored streak confirms a change of its Signal. -/
def SignalDue (state : SignalState) (stored : Option SignalPublishState) : Prop :=
  state ≠ .skipped ∧ ∃ s, stored = some s ∧ state.asStr = s.lastState ∧ s.consecutive = 1 ∧
    ∃ p, s.previousState = some p ∧ p ≠ state.asStr

section Due

variable {environmentId : String} {health : EnvironmentHealth} {build : Option String}
  {now : Int} {state : PublishState} {event : HealthEvent}

theorem of_dueHealthEvent (h : event ∈ dueHealthEvent environmentId health now state) :
    ∃ previous, event = healthChangeEvent environmentId health now previous := by
  obtain ⟨p, -, hp⟩ := Option.map_eq_some_iff.mp (Option.mem_def.mp h)
  exact ⟨p, hp.symm⟩

theorem of_dueBuildEvent (h : event ∈ dueBuildEvent environmentId health build now state) :
    ∃ b, event = buildEvent environmentId health now (some state.lastHealth) b := by
  rw [Option.mem_def, dueBuildEvent] at h
  split at h
  · cases h
  · obtain ⟨b, -, hb⟩ := Option.map_eq_some_iff.mp h
    exact ⟨b, hb.symm⟩

theorem isSome_dueHealthEvent_iff (environmentId : String) (health : EnvironmentHealth)
    (now : Int) (state : PublishState) :
    (dueHealthEvent environmentId health now state).isSome ↔ HealthDue health state := by
  rw [dueHealthEvent, Option.isSome_map, Option.isSome_iff_exists]
  simp only [Option.filter_eq_some_iff, Streak.reports_eq_some_iff]
  constructor
  · rintro ⟨p, ⟨hlast, hone, hprev, hne⟩, hann⟩
    exact ⟨hlast, hone, p, hprev, hne, hann⟩
  · rintro ⟨hlast, hone, p, hprev, hne, hann⟩
    exact ⟨p, ⟨hlast, hone, hprev, hne⟩, hann⟩

theorem isSome_dueBuildEvent_iff (environmentId : String) (health : EnvironmentHealth)
    (build : Option String) (now : Int) (state : PublishState) :
    (dueBuildEvent environmentId health build now state).isSome ↔ BuildDue build state := by
  rw [dueBuildEvent, BuildDue]
  split
  · next h => simp [h]
  · next h => cases build <;> simp_all

/-- Every due event is keyed by the Environment and the publish time, and starts without a
note. -/
theorem of_mem_dueEvents {stored : Option PublishState}
    (h : event ∈ dueEvents environmentId health build now stored) :
    event.environmentId = environmentId ∧ event.observedAt = now ∧ event.note = none := by
  cases stored with
  | none =>
    obtain ⟨b, -, rfl⟩ := Option.map_eq_some_iff.mp (Option.mem_toList.mp h)
    exact ⟨rfl, rfl, rfl⟩
  | some state =>
    rcases List.mem_append.mp h with h | h
    · obtain ⟨p, rfl⟩ := of_dueHealthEvent (Option.mem_toList.mp h)
      exact ⟨rfl, rfl, rfl⟩
    · obtain ⟨b, rfl⟩ := of_dueBuildEvent (Option.mem_toList.mp h)
      exact ⟨rfl, rfl, rfl⟩

/-- A publish is due to record at most one event of each kind. -/
theorem nodup_key_dueEvents (environmentId : String) (health : EnvironmentHealth)
    (build : Option String) (now : Int) (stored : Option PublishState) :
    ((dueEvents environmentId health build now stored).map HealthEvent.key).Nodup := by
  cases stored with
  | none => cases build <;> simp [dueEvents]
  | some state =>
    simp only [dueEvents]
    cases hh : dueHealthEvent environmentId health now state with
    | none => cases dueBuildEvent environmentId health build now state <;> simp
    | some e =>
      cases hb : dueBuildEvent environmentId health build now state with
      | none => simp
      | some b =>
        obtain ⟨p, rfl⟩ := of_dueHealthEvent (Option.mem_def.mpr hh)
        obtain ⟨b, rfl⟩ := of_dueBuildEvent (Option.mem_def.mpr hb)
        simp [HealthEvent.key, healthChangeEvent, buildEvent]

end Due

section Statements

variable {environmentId : String} {db : Db}

/-- Recording events with new and different keys adds exactly these rows. -/
theorem observed_recordHealthEvent (events : List HealthEvent) (db : Db)
    (hnew : ∀ e ∈ events, ∀ r ∈ db.healthEvents, r.key ≠ e.key)
    (hnodup : (events.map HealthEvent.key).Nodup) (hnote : ∀ e ∈ events, e.note = none) :
    observed recordedHealthEvents (events.map .recordHealthEvent) db = events ∧
      commitAll (events.map Statement.recordHealthEvent) db =
        { db with healthEvents := db.healthEvents ++ events } := by
  induction events generalizing db with
  | nil => simp
  | cons e events ih =>
    have hnote' : { e with note := none } = e := by
      have := hnote e List.mem_cons_self
      cases e
      simp_all
    have hrow : insertNew HealthEvent.key { e with note := none } db.healthEvents =
        db.healthEvents ++ [e] := by
      rw [hnote']
      exact insertNew_of_new (hnew e List.mem_cons_self)
    have hadd : recordedHealthEvents (.recordHealthEvent e) db = [e] := by
      rw [recordedHealthEvents, if_neg, hnote']
      simpa using hnew e List.mem_cons_self
    obtain ⟨hfresh, hnodup'⟩ := List.nodup_cons.mp hnodup
    have hrest := ih { db with healthEvents := db.healthEvents ++ [e] }
      (fun d hd r hr ↦ by
        rcases List.mem_append.mp hr with hr | hr
        · exact hnew d (List.mem_cons_of_mem _ hd) r hr
        · rw [List.mem_singleton.mp hr]
          exact fun hk ↦ hfresh (hk ▸ List.mem_map_of_mem hd))
      hnodup' (fun d hd ↦ hnote d (List.mem_cons_of_mem _ hd))
    have hcommit : commit (Statement.recordHealthEvent e) db =
        { db with healthEvents := db.healthEvents ++ [e] } := by
      rw [commit_eq, Db.commit, hrow]
    simp only [List.map_cons, observed_cons, commitAll_cons, hadd, hcommit]
    exact ⟨by rw [hrest.1]; rfl, by rw [hrest.2]; simp⟩

/-- Every statement of a publish records a due event, stores the streak or prunes. -/
theorem mem_recordHealthAndBuildEvents {health : EnvironmentHealth} {build : Option String}
    {now : Int} {c : Statement}
    (h : c ∈ (recordHealthAndBuildEvents environmentId health build now).trace db) :
    (∃ e ∈ dueEvents environmentId health build now (db.dashboardPublishState environmentId),
      c = .recordHealthEvent e) ∨
    c = .storePublishState environmentId
      (nextPublishState health build (db.dashboardPublishState environmentId)) ∨
    c = .deleteHealthEventsBefore environmentId (satSub now healthEventsRetentionSecs) ∨
    c = .keepNewestHealthEvents environmentId := by
  rw [trace_recordHealthAndBuildEvents, List.mem_append] at h
  rcases h with h | h
  · cases hst : db.dashboardPublishState environmentId with
    | none =>
      rw [hst] at h
      rcases List.mem_cons.mp h with rfl | h
      · exact Or.inr (Or.inl rfl)
      · obtain ⟨e, he, rfl⟩ := List.mem_map.mp h
        exact Or.inl ⟨e, he, rfl⟩
    | some state =>
      rw [hst] at h
      rcases List.mem_append.mp h with h | h
      · obtain ⟨e, he, rfl⟩ := List.mem_map.mp h
        exact Or.inl ⟨e, he, rfl⟩
      · exact Or.inr (Or.inl (List.mem_singleton.mp h))
  · rcases List.mem_cons.mp h with rfl | h
    · exact Or.inr (Or.inr (Or.inl rfl))
    · exact Or.inr (Or.inr (Or.inr (List.mem_singleton.mp h)))

/-- Due events are new rows at a fresh time. -/
private theorem dueEvents_fresh {health : EnvironmentHealth} {build : Option String} {now : Int}
    (hfresh : HealthEventsFresh environmentId now db) (stored : Option PublishState) :
    ∀ e ∈ dueEvents environmentId health build now stored,
      ∀ r ∈ db.healthEvents, r.key ≠ e.key := by
  intro e he r hr hk
  obtain ⟨henv, hat, -⟩ := of_mem_dueEvents he
  simp only [HealthEvent.key, Prod.mk.injEq] at hk
  exact hfresh r hr (hk.1.trans henv) (hk.2.1.trans hat)

/-- Recording some of the due events adds these rows and touches no streak. -/
theorem observed_some_dueEvents (health : EnvironmentHealth) (build : Option String) (now : Int)
    (stored : Option PublishState) (n : Nat) (hfresh : HealthEventsFresh environmentId now db) :
    let events := (dueEvents environmentId health build now stored).take n
    observed recordedHealthEvents (events.map .recordHealthEvent) db = events ∧
      commitAll (events.map Statement.recordHealthEvent) db =
        { db with healthEvents := db.healthEvents ++ events } := by
  have hsub := (List.take_sublist n (dueEvents environmentId health build now stored))
  exact observed_recordHealthEvent _ db
    (fun e he ↦ dueEvents_fresh hfresh stored e (hsub.subset he))
    ((nodup_key_dueEvents environmentId health build now stored).sublist (hsub.map _))
    (fun e he ↦ (of_mem_dueEvents (hsub.subset he)).2.2)

/-- The statements before retention add the due events and replace the streak. -/
theorem observed_recordStatements (health : EnvironmentHealth) (build : Option String)
    (now : Int) (stored : Option PublishState)
    (hfresh : HealthEventsFresh environmentId now db) :
    observed recordedHealthEvents (recordStatements environmentId health build now stored) db =
        dueEvents environmentId health build now stored ∧
      (commitAll (recordStatements environmentId health build now stored)
        db).dashboardPublishState =
        Function.update db.dashboardPublishState environmentId
          (some (nextPublishState health build stored)) := by
  cases stored with
  | none =>
    have hrec := observed_some_dueEvents health build now none
      (dueEvents environmentId health build now none).length
      (show HealthEventsFresh environmentId now
        (commit (Statement.storePublishState environmentId (nextPublishState health build none))
          db) from hfresh)
    rw [List.take_length] at hrec
    exact ⟨hrec.1, congrArg Db.dashboardPublishState hrec.2⟩
  | some state =>
    have hrec := observed_some_dueEvents health build now (some state)
      (dueEvents environmentId health build now (some state)).length hfresh
    rw [List.take_length] at hrec
    simp only [recordStatements, observed_append, commitAll_append, hrec.1, hrec.2]
    exact ⟨List.append_nil _, rfl⟩

/-- The rows an uninterrupted publish adds are the due events. -/
theorem observed_recordHealthAndBuildEvents (health : EnvironmentHealth) (build : Option String)
    (now : Int) (hfresh : HealthEventsFresh environmentId now db) :
    observed recordedHealthEvents
        ((recordHealthAndBuildEvents environmentId health build now).trace db) db =
      dueEvents environmentId health build now (db.dashboardPublishState environmentId) := by
  rw [trace_recordHealthAndBuildEvents, observed_append,
    (observed_recordStatements health build now _ hfresh).1]
  exact List.append_nil _

/-- The Signal event one vote over a stored state is due to record. -/
def dueVoteEvent (environmentId : String) (now : Int) (vote : String × SignalState)
    (stored : Option SignalPublishState) : Option SignalEvent :=
  if vote.2 = .skipped then none
  else stored.bind (dueSignalEvent environmentId vote.1 vote.2 now)

theorem of_dueVoteEvent {now : Int} {vote : String × SignalState}
    {stored : Option SignalPublishState} {event : SignalEvent}
    (h : dueVoteEvent environmentId now vote stored = some event) :
    event.key = (environmentId, vote.1, now) := by
  rw [dueVoteEvent] at h
  split at h
  · cases h
  · obtain ⟨state, -, h⟩ := Option.bind_eq_some_iff.mp h
    obtain ⟨p, -, rfl⟩ := Option.map_eq_some_iff.mp h
    rfl

theorem isSome_dueVoteEvent_iff (environmentId : String) (now : Int)
    (vote : String × SignalState) (stored : Option SignalPublishState) :
    (dueVoteEvent environmentId now vote stored).isSome ↔ SignalDue vote.2 stored := by
  rw [dueVoteEvent, SignalDue]
  split
  · next h => simp [h]
  · next h =>
    rw [Option.isSome_iff_exists]
    constructor
    · rintro ⟨e, he⟩
      obtain ⟨s, hs, he⟩ := Option.bind_eq_some_iff.mp he
      obtain ⟨p, hp, -⟩ := Option.map_eq_some_iff.mp he
      obtain ⟨hlast, hone, hprev, hne⟩ := (Streak.reports_eq_some_iff _ _ _).mp hp
      exact ⟨h, s, hs, hlast, hone, p, hprev, hne⟩
    · rintro ⟨-, s, rfl, hlast, hone, p, hprev, hne⟩
      have hp := (Streak.reports_eq_some_iff (signalStreak s) vote.2.asStr p).mpr
        ⟨hlast, hone, hprev, hne⟩
      exact ⟨_, by rw [Option.bind_some, dueSignalEvent, hp, Option.map_some]⟩

/-- One vote adds its due event and leaves every other row alone. -/
theorem observed_voteStatements (now : Int) (vote : String × SignalState)
    (stored : Option SignalPublishState) (db : Db)
    (hnew : ∀ r ∈ db.signalEvents, r.key ≠ (environmentId, vote.1, now)) :
    observed recordedSignalEvents (voteStatements environmentId now vote stored) db =
        (dueVoteEvent environmentId now vote stored).toList ∧
      (commitAll (voteStatements environmentId now vote stored) db).signalEvents =
        db.signalEvents ++ (dueVoteEvent environmentId now vote stored).toList := by
  rw [voteStatements, dueVoteEvent]
  split
  · simp
  · next hskip =>
    cases hdue : stored.bind (dueSignalEvent environmentId vote.1 vote.2 now) with
    | none => exact ⟨rfl, (List.append_nil _).symm⟩
    | some event =>
      have hkey : event.key = (environmentId, vote.1, now) :=
        of_dueVoteEvent (by rw [dueVoteEvent, if_neg hskip, hdue])
      have hfresh : ∀ r ∈ db.signalEvents, r.key ≠ event.key := fun r hr ↦ hkey ▸ hnew r hr
      have hadd : recordedSignalEvents (.recordSignalEvent event) db = [event] := by
        rw [recordedSignalEvents, if_neg (by simpa using hfresh)]
      have hrow : insertNew SignalEvent.key event db.signalEvents = db.signalEvents ++ [event] :=
        insertNew_of_new hfresh
      refine ⟨?_, hrow⟩
      change recordedSignalEvents (.recordSignalEvent event) db ++ [] = _
      rw [hadd]
      rfl

/-- The rows a run of votes adds, each judged by the streak it started with. -/
theorem observed_votes (states : String × String → Option SignalPublishState)
    (votes : List (String × SignalState)) (now : Int) (db : Db)
    (hnodup : (votes.map Prod.fst).Nodup)
    (hnew : ∀ vote ∈ votes, ∀ r ∈ db.signalEvents, r.key ≠ (environmentId, vote.1, now)) :
    observed recordedSignalEvents (votes.flatMap fun vote ↦
        voteStatements environmentId now vote (states (environmentId, vote.1))) db =
      votes.filterMap fun vote ↦
        dueVoteEvent environmentId now vote (states (environmentId, vote.1)) := by
  induction votes generalizing db with
  | nil => rfl
  | cons vote votes ih =>
    obtain ⟨hvote, hnodup⟩ := List.nodup_cons.mp hnodup
    obtain ⟨hobs, hrows⟩ := observed_voteStatements now vote (states (environmentId, vote.1)) db
      (hnew vote List.mem_cons_self)
    rw [List.flatMap_cons, observed_append, hobs, ih _ hnodup]
    · cases hdue : dueVoteEvent environmentId now vote (states (environmentId, vote.1)) <;>
        simp [hdue]
    · intro other hother r hr hk
      rw [hrows] at hr
      rcases List.mem_append.mp hr with hr | hr
      · exact hnew other (List.mem_cons_of_mem _ hother) r hr hk
      · have hkey := of_dueVoteEvent (Option.mem_toList.mp hr)
        have hid : vote.1 = other.1 := by
          rw [hkey] at hk
          simpa using hk
        exact hvote (hid ▸ List.mem_map_of_mem hother)

theorem SignalEventsFresh.key_ne {now : Int} (h : SignalEventsFresh environmentId now db)
    (signalId : String) : ∀ r ∈ db.signalEvents, r.key ≠ (environmentId, signalId, now) := by
  intro r hr hk
  simp only [SignalEvent.key, Prod.mk.injEq] at hk
  exact h r hr hk.1 hk.2.2

/-- The rows an uninterrupted round of votes adds are the due events of its votes. -/
theorem observed_recordSignalEvents (votes : List (String × SignalState)) (now : Int)
    (hnodup : (votes.map Prod.fst).Nodup) (hfresh : SignalEventsFresh environmentId now db) :
    observed recordedSignalEvents ((recordSignalEvents environmentId votes now).trace db) db =
      votes.filterMap fun vote ↦ dueVoteEvent environmentId now vote
        (db.signalPublishState (environmentId, vote.1)) := by
  rw [trace_recordSignalEvents _ _ _ _ hnodup, observed_append,
    observed_votes db.signalPublishState votes now db hnodup fun vote _ ↦ hfresh.key_ne vote.1]
  exact List.append_nil _

/-- The streak of a Signal after a round of votes. -/
def nextVoteState (votes : List (String × SignalState)) (signalId : String)
    (stored : Option SignalPublishState) : Option SignalPublishState :=
  match votes.lookup signalId with
  | some state => if state = .skipped then stored else some (nextSignalPublishState state stored)
  | none => stored

/-- The streaks a run of votes leaves: those of its own Environment move, each by its vote. -/
theorem signalPublishState_votes (environmentId : String)
    (states : String × String → Option SignalPublishState) (votes : List (String × SignalState))
    (now : Int) (db : Db) (hnodup : (votes.map Prod.fst).Nodup)
    (hstates : ∀ vote ∈ votes, db.signalPublishState (environmentId, vote.1) =
      states (environmentId, vote.1)) (key : String × String) :
    (commitAll (votes.flatMap fun vote ↦ voteStatements environmentId now vote
        (states (environmentId, vote.1))) db).signalPublishState key =
      if key.1 = environmentId then nextVoteState votes key.2 (db.signalPublishState key)
      else db.signalPublishState key := by
  induction votes generalizing db with
  | nil => simp [nextVoteState]
  | cons vote votes ih =>
    obtain ⟨hvote, hnodup⟩ := List.nodup_cons.mp hnodup
    have hstep := signalPublishState_commitAll_voteStatements environmentId now vote
      (states (environmentId, vote.1)) db
    rw [List.flatMap_cons, commitAll_append, ih _ hnodup, hstep]
    · obtain ⟨env, id⟩ := key
      by_cases henv : env = environmentId
      · subst henv
        simp only [if_true, nextVoteState]
        obtain ⟨signalId, voted⟩ := vote
        by_cases hid : id = signalId
        · subst hid
          have hlook : votes.lookup id = none := by
            rw [List.lookup_eq_none_iff]
            intro p hp
            have hne : id ≠ p.1 := fun h ↦ hvote (List.mem_map.mpr ⟨p, hp, h.symm⟩)
            simpa using hne
          simp only [List.lookup_cons, beq_self_eq_true, hlook]
          split
          · rfl
          · rw [Function.update_self, hstates _ List.mem_cons_self]
        · have hbeq : (id == signalId) = false := by simpa using hid
          have hsame : (if voted = SignalState.skipped then db.signalPublishState
              else Function.update db.signalPublishState (env, signalId)
                (some (nextSignalPublishState voted (states (env, signalId))))) (env, id) =
              db.signalPublishState (env, id) := by
            split
            · rfl
            · rw [Function.update_of_ne (by simpa using hid)]
          simp only [List.lookup_cons, hbeq, hsame]
      · simp only [henv, if_false]
        split
        · rfl
        · rw [Function.update_of_ne (by simp [henv])]
    · intro other hother
      have hne : other.1 ≠ vote.1 := fun h ↦ hvote (h ▸ List.mem_map_of_mem hother)
      rw [hstep]
      split
      · exact hstates other (List.mem_cons_of_mem _ hother)
      · rw [Function.update_of_ne (by simpa using hne)]
        exact hstates other (List.mem_cons_of_mem _ hother)

/-- The streaks an uninterrupted round of votes leaves. -/
theorem signalPublishState_recordSignalEvents (environmentId : String)
    (votes : List (String × SignalState)) (now : Int) (db : Db)
    (hnodup : (votes.map Prod.fst).Nodup) (key : String × String) :
    ((recordSignalEvents environmentId votes now).run db).signalPublishState key =
      if key.1 = environmentId then nextVoteState votes key.2 (db.signalPublishState key)
      else db.signalPublishState key := by
  rw [Prog.run, trace_recordSignalEvents _ _ _ _ hnodup, commitAll_append]
  exact signalPublishState_votes environmentId db.signalPublishState votes now db hnodup
    (fun _ _ ↦ rfl) key

/-- Every statement of a round of votes records a Signal event at its time, stores a streak or
prunes. -/
theorem mem_recordSignalEvents {votes : List (String × SignalState)} {now : Int} {c : Statement}
    (hnodup : (votes.map Prod.fst).Nodup)
    (h : c ∈ (recordSignalEvents environmentId votes now).trace db) :
    (∃ e, c = .recordSignalEvent e ∧ e.environmentId = environmentId ∧ e.observedAt = now) ∨
    (∃ id state, c = .storeSignalPublishState environmentId id state) ∨
    c = .deleteSignalEventsBefore environmentId (satSub now healthEventsRetentionSecs) ∨
    c = .keepNewestSignalEvents environmentId := by
  rw [trace_recordSignalEvents _ _ _ _ hnodup, List.mem_append] at h
  rcases h with h | h
  · obtain ⟨vote, -, hc⟩ := List.mem_flatMap.mp h
    rw [voteStatements] at hc
    split at hc
    · cases hc
    · next hskip =>
      rcases List.mem_append.mp hc with hc | hc
      · obtain ⟨e, he, rfl⟩ := List.mem_map.mp hc
        refine Or.inl ⟨e, rfl, ?_⟩
        have hkey : e.key = (environmentId, vote.1, now) := of_dueVoteEvent (by
          rw [dueVoteEvent, if_neg hskip]
          exact Option.mem_toList.mp he)
        exact ⟨congrArg (fun k ↦ k.1) hkey, congrArg (fun k ↦ k.2.2) hkey⟩
      · exact Or.inr (Or.inl ⟨_, _, List.mem_singleton.mp hc⟩)
  · rcases List.mem_cons.mp h with rfl | h
    · exact Or.inr (Or.inr (Or.inl rfl))
    · exact Or.inr (Or.inr (Or.inr (List.mem_singleton.mp h)))

/-- A statement that records nothing of the Environment observed at `time`. -/
def RecordsAwayFrom (environmentId : String) (time : Int) : Statement → Prop
  | .recordHealthEvent event => event.environmentId = environmentId → event.observedAt ≠ time
  | .recordSignalEvent event => event.environmentId = environmentId → event.observedAt ≠ time
  | _ => True

/-- A health event stored after a statement was stored before it or was just recorded. -/
theorem mem_healthEvents_commit {c : Statement} {e : HealthEvent}
    (h : e ∈ (commit c db).healthEvents) :
    e ∈ db.healthEvents ∨
      ∃ event, c = .recordHealthEvent event ∧ e = { event with note := none } := by
  cases c with
  | recordHealthEvent event =>
    rcases mem_of_mem_insertNew h with h | rfl
    · exact Or.inl h
    · exact Or.inr ⟨event, rfl, rfl⟩
  | deleteHealthEventsBefore => exact Or.inl (List.mem_of_mem_filter h)
  | keepNewestHealthEvents => exact Or.inl (List.mem_of_mem_filter h)
  | recordHourRollup =>
    simp only [commit_eq, Db.commit] at h
    split at h <;> exact Or.inl h
  | _ => exact Or.inl h

/-- A Signal event stored after a statement was stored before it or was just recorded. -/
theorem mem_signalEvents_commit {c : Statement} {e : SignalEvent}
    (h : e ∈ (commit c db).signalEvents) :
    e ∈ db.signalEvents ∨ c = .recordSignalEvent e := by
  cases c with
  | recordSignalEvent event =>
    rcases mem_of_mem_insertNew h with h | rfl
    · exact Or.inl h
    · exact Or.inr rfl
  | deleteSignalEventsBefore => exact Or.inl (List.mem_of_mem_filter h)
  | keepNewestSignalEvents => exact Or.inl (List.mem_of_mem_filter h)
  | recordHourRollup =>
    simp only [commit_eq, Db.commit] at h
    split at h <;> exact Or.inl h
  | _ => exact Or.inl h

/-- A time stays fresh while nothing is recorded at it. -/
theorem healthEventsFresh_commitAll {time : Int} (cs : List Statement) (db : Db)
    (hcs : ∀ c ∈ cs, RecordsAwayFrom environmentId time c)
    (h : HealthEventsFresh environmentId time db) :
    HealthEventsFresh environmentId time (commitAll cs db) := by
  induction cs generalizing db with
  | nil => exact h
  | cons c cs ih =>
    refine ih _ (fun d hd ↦ hcs d (List.mem_cons_of_mem _ hd)) fun e he henv ↦ ?_
    rcases mem_healthEvents_commit he with he | ⟨event, rfl, rfl⟩
    · exact h e he henv
    · exact hcs _ List.mem_cons_self henv

/-- A time stays fresh while nothing is recorded at it. -/
theorem signalEventsFresh_commitAll {time : Int} (cs : List Statement) (db : Db)
    (hcs : ∀ c ∈ cs, RecordsAwayFrom environmentId time c)
    (h : SignalEventsFresh environmentId time db) :
    SignalEventsFresh environmentId time (commitAll cs db) := by
  induction cs generalizing db with
  | nil => exact h
  | cons c cs ih =>
    refine ih _ (fun d hd ↦ hcs d (List.mem_cons_of_mem _ hd)) fun e he henv ↦ ?_
    rcases mem_signalEvents_commit he with he | rfl
    · exact h e he henv
    · exact hcs _ List.mem_cons_self henv

/-- The streak states a publish leaves: its own Environment's is replaced. -/
theorem publishState_recordHealthAndBuildEvents (environmentId : String)
    (health : EnvironmentHealth) (build : Option String) (now : Int) (db : Db) :
    ((recordHealthAndBuildEvents environmentId health build now).run db).dashboardPublishState =
      Function.update db.dashboardPublishState environmentId
        (some (nextPublishState health build (db.dashboardPublishState environmentId))) := by
  have hkeep : ∀ (events : List HealthEvent) (t : Db),
      (commitAll (events.map Statement.recordHealthEvent) t).dashboardPublishState =
        t.dashboardPublishState := by
    intro events t
    apply commitAll_frame Db.dashboardPublishState
    intro c hc u
    obtain ⟨e, -, rfl⟩ := List.mem_map.mp hc
    rfl
  rw [Prog.run, trace_recordHealthAndBuildEvents, commitAll_append]
  cases hst : db.dashboardPublishState environmentId with
  | none =>
    simp only [recordStatements, commitAll_cons]
    exact hkeep _ _
  | some state =>
    simp only [recordStatements, commitAll_append]
    exact congrArg (Function.update · _ _) (hkeep _ db)

/-- Signal streaks and Signal events are none of its business. -/
theorem signal_recordHealthAndBuildEvents (environmentId : String)
    (health : EnvironmentHealth) (build : Option String) (now : Int) (db : Db) :
    ((recordHealthAndBuildEvents environmentId health build now).run db).signalPublishState =
      db.signalPublishState ∧
    ∀ t, observed recordedSignalEvents
      ((recordHealthAndBuildEvents environmentId health build now).trace db) t = [] := by
  have hstmts : ∀ c ∈ (recordHealthAndBuildEvents environmentId health build now).trace db,
      ∀ t, (commit c t).signalPublishState = t.signalPublishState ∧
        recordedSignalEvents c t = [] := by
    intro c hc t
    rcases mem_recordHealthAndBuildEvents hc with ⟨e, -, rfl⟩ | rfl | rfl | rfl <;>
      exact ⟨rfl, rfl⟩
  exact ⟨commitAll_frame _ _ _ fun c hc t ↦ (hstmts c hc t).1,
    fun t ↦ observed_eq_nil _ _ _ fun c hc t ↦ (hstmts c hc t).2⟩

end Statements

end Daku.Health
