import Daku.Health.Events

/-!
# What one publish records

The statements of an uninterrupted publish, spelled out: at most one health event, at most one
build event, the new streak state, then retention. Both logs count streaks the same way, so
both are stated with the machine of `Daku.Base.Streak` over stored texts. Everything later says
about recorded events is derived from the two trace equations here.
-/

namespace Daku.Health

open Daku.Base Daku.Base.Prog Daku.Protocol Daku.Store

/-- The streak a stored Environment state stands for. -/
def healthStreak (state : PublishState) : Streak String :=
  ⟨state.lastHealth, state.consecutive, state.previousHealth⟩

/-- The streak a stored Signal state stands for. -/
def signalStreak (state : SignalPublishState) : Streak String :=
  ⟨state.lastState, state.consecutive, state.previousState⟩

/-- Confirmed health changes that become events: not to waiting, and not the first poll. -/
def announced (health : EnvironmentHealth) (previous : String) : Bool :=
  health ≠ .waiting && !(previous == EnvironmentHealth.waiting.asStr && health == .healthy)

/-- Announced changes, as the source tests for them. -/
theorem announced_iff (health : EnvironmentHealth) (previous : String) :
    announced health previous = true ↔
      health ≠ .waiting ∧ ¬(previous = EnvironmentHealth.waiting.asStr ∧ health = .healthy) := by
  simp [announced, imp_iff_not_or]

/-- The event of a confirmed health change. -/
def healthChangeEvent (environmentId : String) (health : EnvironmentHealth) (now : Int)
    (previous : String) : HealthEvent where
  environmentId := environmentId
  observedAt := now
  kind := HealthEventKind.health.asStr
  fromHealth := some previous
  toHealth := health.asStr
  build := none
  note := none

/-- The event of a newly observed build. -/
def buildEvent (environmentId : String) (health : EnvironmentHealth) (now : Int)
    (fromHealth : Option String) (build : String) : HealthEvent where
  environmentId := environmentId
  observedAt := now
  kind := HealthEventKind.build.asStr
  fromHealth := fromHealth
  toHealth := health.asStr
  build := some build
  note := none

/-- The health event a publish over a stored state records. -/
def dueHealthEvent (environmentId : String) (health : EnvironmentHealth) (now : Int)
    (state : PublishState) : Option HealthEvent :=
  (((healthStreak state).reports health.asStr).filter (announced health)).map
    (healthChangeEvent environmentId health now)

/-- The build event a publish over a stored state records. -/
def dueBuildEvent (environmentId : String) (health : EnvironmentHealth)
    (build : Option String) (now : Int) (state : PublishState) : Option HealthEvent :=
  if build = state.lastBuild then none
  else build.map (buildEvent environmentId health now (some state.lastHealth))

/-- The streak state a publish leaves. -/
def nextPublishState (health : EnvironmentHealth) (build : Option String)
    (state : Option PublishState) : PublishState :=
  let next := Streak.next (state.map healthStreak) health.asStr
  ⟨next.last, next.consecutive, next.previous, build⟩

/-- The health and build events a publish over a stored state is due to record. -/
def dueEvents (environmentId : String) (health : EnvironmentHealth) (build : Option String)
    (now : Int) : Option PublishState → List HealthEvent
  | none => (build.map (buildEvent environmentId health now none)).toList
  | some state =>
    (dueHealthEvent environmentId health now state).toList ++
      (dueBuildEvent environmentId health build now state).toList

/-- The statements of a publish before retention. The first publish stores its streak before
it records the build; every later one records its events first. -/
def recordStatements (environmentId : String) (health : EnvironmentHealth)
    (build : Option String) (now : Int) (stored : Option PublishState) : List Statement :=
  let records := (dueEvents environmentId health build now stored).map .recordHealthEvent
  let store := Statement.storePublishState environmentId (nextPublishState health build stored)
  match stored with
  | none => store :: records
  | some _ => records ++ [store]

/-- The retention statements of the health-event log. -/
def pruneHealthStatements (environmentId : String) (now : Int) : List Statement :=
  [.deleteHealthEventsBefore environmentId (satSub now healthEventsRetentionSecs),
    .keepNewestHealthEvents environmentId]

/-- The Signal event a vote over a stored state records. -/
def dueSignalEvent (environmentId signalId : String) (state : SignalState) (now : Int)
    (stored : SignalPublishState) : Option SignalEvent :=
  ((signalStreak stored).reports state.asStr).map fun previous ↦ {
    environmentId, signalId, observedAt := now
    fromState := some previous, toState := state.asStr }

/-- The streak state a vote leaves. -/
def nextSignalPublishState (state : SignalState) (stored : Option SignalPublishState) :
    SignalPublishState :=
  let next := Streak.next (stored.map signalStreak) state.asStr
  ⟨next.last, next.consecutive, next.previous⟩

/-- The statements of one vote. -/
def voteStatements (environmentId : String) (now : Int) (vote : String × SignalState)
    (stored : Option SignalPublishState) : List Statement :=
  if vote.2 = .skipped then []
  else
    (stored.bind (dueSignalEvent environmentId vote.1 vote.2 now)).toList.map
      .recordSignalEvent ++
    [.storeSignalPublishState environmentId vote.1 (nextSignalPublishState vote.2 stored)]

/-- The retention statements of the Signal-event log. -/
def pruneSignalStatements (environmentId : String) (now : Int) : List Statement :=
  [.deleteSignalEventsBefore environmentId (satSub now healthEventsRetentionSecs),
    .keepNewestSignalEvents environmentId]

private theorem extendStreak_eq (state : Streak String) (current : String) :
    extendStreak current state.last state.consecutive state.previous =
      ((state.advance current).consecutive, (state.advance current).previous) := by
  simp only [extendStreak, Streak.advance]
  split <;> rfl

private theorem nextPublishState_some (health : EnvironmentHealth) (build : Option String)
    (state : PublishState) :
    nextPublishState health build (some state) =
      ⟨health.asStr, ((healthStreak state).advance health.asStr).consecutive,
        ((healthStreak state).advance health.asStr).previous, build⟩ := by
  simp [nextPublishState, Streak.next]

private theorem nextSignalPublishState_some (state : SignalState) (stored : SignalPublishState) :
    nextSignalPublishState state (some stored) =
      ⟨state.asStr, ((signalStreak stored).advance state.asStr).consecutive,
        ((signalStreak stored).advance state.asStr).previous⟩ := by
  simp [nextSignalPublishState, Streak.next]

private theorem advance_same {state : Streak String} {current : String}
    (h : current = state.last) :
    state.advance current = { state with consecutive := satAdd state.consecutive 1 } := by
  rw [Streak.advance, if_pos h]

/-- The source's test for a confirmed health change, as the machine's report. -/
private theorem toList_dueHealthEvent (environmentId : String) (health : EnvironmentHealth)
    (now : Int) (state : PublishState) :
    (dueHealthEvent environmentId health now state).toList =
      if health.asStr = state.lastHealth ∧
          ((healthStreak state).advance health.asStr).consecutive = 2 ∧
          health.asStr ≠ EnvironmentHealth.waiting.asStr ∧
          ¬Decidable.decide (((healthStreak state).advance health.asStr).previous =
              some EnvironmentHealth.waiting.asStr ∧
            health.asStr = EnvironmentHealth.healthy.asStr) ∧
          ((healthStreak state).advance health.asStr).previous.any (· ≠ health.asStr) then
        [{ environmentId, observedAt := now, kind := HealthEventKind.health.asStr
           fromHealth := ((healthStreak state).advance health.asStr).previous
           toHealth := health.asStr, build := none, note := none }]
      else [] := by
  by_cases hc : health.asStr = state.lastHealth
  · have hc' : health.asStr = (healthStreak state).last := hc
    rw [dueHealthEvent, advance_same hc', Streak.reports]
    cases hp : state.previousHealth with
    | none => simp [healthStreak, hp]
    | some p =>
      by_cases htwo : satAdd state.consecutive 1 = 2
      · have hst : (healthStreak state).last = health.asStr := hc.symm
        have hone : satAdd (healthStreak state).consecutive 1 = 2 := htwo
        have hprev : (healthStreak state).previous = some p := hp
        simp only [hst, hone, hprev, ← hc, and_self, if_true, true_and, Option.any_some,
          Option.some.injEq]
        by_cases hpv : p = health.asStr
        · simp [hpv, Option.filter]
        · have hann := announced_iff health p
          by_cases ha : announced health p = true
          · have hcond := hann.mp ha
            simp [hpv, Option.filter, ha, hcond, healthChangeEvent]
          · have hcond := mt hann.mpr ha
            rw [if_neg fun h ↦ hcond ⟨fun hw ↦ h.1 (congrArg _ hw), fun hcold ↦
              h.2.1 (decide_eq_true ⟨hcold.1, congrArg _ hcold.2⟩)⟩]
            simp [hpv, Option.filter, ha]
      · simp [healthStreak, htwo]
  · have hc' : health.asStr ≠ (healthStreak state).last := hc
    rw [dueHealthEvent, Streak.reports_of_ne hc', if_neg fun h ↦ hc h.1]
    rfl

private theorem toList_dueBuildEvent (environmentId : String) (health : EnvironmentHealth)
    (build : Option String) (now : Int) (state : PublishState) :
    (dueBuildEvent environmentId health build now state).toList =
      if build.isSome ∧ build ≠ state.lastBuild then
        [{ environmentId, observedAt := now, kind := HealthEventKind.build.asStr
           fromHealth := some state.lastHealth, toHealth := health.asStr, build, note := none }]
      else [] := by
  cases build with
  | none => simp [dueBuildEvent]
  | some b =>
    by_cases h : some b = state.lastBuild
    · simp [dueBuildEvent, h]
    · simp [dueBuildEvent, h, buildEvent]

private theorem toList_dueSignalEvent (environmentId signalId : String) (state : SignalState)
    (now : Int) (stored : SignalPublishState) :
    (dueSignalEvent environmentId signalId state now stored).toList =
      if state.asStr = stored.lastState ∧
          ((signalStreak stored).advance state.asStr).consecutive = 2 ∧
          ((signalStreak stored).advance state.asStr).previous.any (· ≠ state.asStr) then
        [{ environmentId, signalId, observedAt := now
           fromState := ((signalStreak stored).advance state.asStr).previous
           toState := state.asStr }]
      else [] := by
  by_cases hc : state.asStr = stored.lastState
  · have hc' : state.asStr = (signalStreak stored).last := hc
    rw [dueSignalEvent, advance_same hc', Streak.reports]
    cases hp : stored.previousState with
    | none => simp [signalStreak, hp]
    | some p =>
      by_cases htwo : satAdd stored.consecutive 1 = 2
      · by_cases hpv : p = stored.lastState <;>
          simp [signalStreak, hp, htwo, hc, hpv, Option.filter]
      · simp [signalStreak, htwo]
  · have hc' : state.asStr ≠ (signalStreak stored).last := hc
    rw [dueSignalEvent, Streak.reports_of_ne hc', if_neg fun h ↦ hc h.1]
    rfl

/-- The statements of an uninterrupted publish of one Environment. -/
theorem trace_recordHealthAndBuildEvents (environmentId : String) (health : EnvironmentHealth)
    (build : Option String) (now : Int) (db : Db) :
    (recordHealthAndBuildEvents environmentId health build now).trace db =
      recordStatements environmentId health build now (db.dashboardPublishState environmentId) ++
        pruneHealthStatements environmentId now := by
  simp only [recordHealthAndBuildEvents, trace_query_bind, loadPublishState]
  cases h : db.dashboardPublishState environmentId with
  | none =>
    cases build with
    | none => rfl
    | some b => rfl
  | some state =>
    have hext : extendStreak health.asStr state.lastHealth state.consecutive
        state.previousHealth = (((healthStreak state).advance health.asStr).consecutive,
          ((healthStreak state).advance health.asStr).previous) :=
      extendStreak_eq (healthStreak state) health.asStr
    simp only [hext]
    simp only [recordStatements, dueEvents]
    rw [List.map_append, toList_dueHealthEvent, toList_dueBuildEvent, nextPublishState_some]
    -- Both tests, of the health change and of the build, are now the same on the two sides.
    split <;> split <;> rfl

/-- The statements of one vote, and nothing for a skipped one. -/
theorem trace_recordSignalVote (environmentId : String) (now : Int) (vote : String × SignalState)
    (db : Db) :
    (recordSignalVote environmentId now vote).trace db =
      voteStatements environmentId now vote (db.signalPublishState (environmentId, vote.1)) := by
  obtain ⟨signalId, state⟩ := vote
  simp only [recordSignalVote, voteStatements]
  split
  · rfl
  · simp only [trace_query_bind, loadSignalPublishState]
    cases h : db.signalPublishState (environmentId, signalId) with
    | none => rfl
    | some stored =>
      have hext : extendStreak state.asStr stored.lastState stored.consecutive
          stored.previousState = (((signalStreak stored).advance state.asStr).consecutive,
            ((signalStreak stored).advance state.asStr).previous) :=
        extendStreak_eq (signalStreak stored) state.asStr
      simp only [hext, Option.bind_some]
      rw [toList_dueSignalEvent, nextSignalPublishState_some]
      split <;> rfl

/-- A vote only changes the streak of its own Signal. -/
theorem signalPublishState_commitAll_voteStatements (environmentId : String) (now : Int)
    (vote : String × SignalState) (stored : Option SignalPublishState) (db : Db) :
    (commitAll (voteStatements environmentId now vote stored) db).signalPublishState =
      if vote.2 = .skipped then db.signalPublishState
      else Function.update db.signalPublishState (environmentId, vote.1)
        (some (nextSignalPublishState vote.2 stored)) := by
  rw [voteStatements]
  split
  · rfl
  · rw [commitAll_append]
    have hkeep : (commitAll ((stored.bind
        (dueSignalEvent environmentId vote.1 vote.2 now)).toList.map
          Statement.recordSignalEvent) db).signalPublishState = db.signalPublishState := by
      apply commitAll_frame Db.signalPublishState
      intro c hc t
      obtain ⟨e, -, rfl⟩ := List.mem_map.mp hc
      rfl
    exact congrArg (Function.update · _ _) hkeep

/-- The statements of an uninterrupted round of votes: every Signal votes once, so every vote
reads the streak the round started with. -/
theorem trace_recordSignalEvents (environmentId : String) (votes : List (String × SignalState))
    (now : Int) (db : Db) (hnodup : (votes.map Prod.fst).Nodup) :
    (recordSignalEvents environmentId votes now).trace db =
      votes.flatMap (fun vote ↦ voteStatements environmentId now vote
        (db.signalPublishState (environmentId, vote.1))) ++
      pruneSignalStatements environmentId now := by
  rw [recordSignalEvents, trace_bind]
  congr 1
  induction votes generalizing db with
  | nil => rfl
  | cons vote votes ih =>
    obtain ⟨hvote, hnodup⟩ := List.nodup_cons.mp hnodup
    rw [trace_each_cons, ih _ hnodup, List.flatMap_cons, trace_recordSignalVote]
    congr 1
    apply List.flatMap_congr
    intro other hother
    have hne : other.1 ≠ vote.1 := fun h ↦ hvote (h ▸ List.mem_map_of_mem hother)
    rw [Prog.run, trace_recordSignalVote, signalPublishState_commitAll_voteStatements]
    split
    · rfl
    · rw [Function.update_of_ne (by simpa using hne)]

end Daku.Health
