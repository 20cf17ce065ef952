import Daku.Health.Recorded

/-!
# Event recording across a crash

The statements of `record_health_and_build_events` and `record_signal_events` commit one by
one. A daemon that stops between two of them publishes the same observations again at a later
time, under new event keys. Recording is exactly-once when what the events say is what they
would say had the interrupted publish never started or run to its end.
-/

namespace Daku.Health

open Daku.Base Daku.Base.Prog Daku.Protocol Daku.Store

/-- The crash point lies inside the window between an event and the streak state it belongs
to. The first publish stores its streak first; later ones record first, the health event before
the build event. -/
def InterruptsRecording (health : EnvironmentHealth) (build : Option String)
    (stored : Option PublishState) (n : Nat) : Prop :=
  match stored with
  | none => build ≠ none ∧ n = 1
  | some state =>
    (n = 1 ∧ (HealthDue health state ∨ BuildDue build state)) ∨
      (n = 2 ∧ HealthDue health state ∧ BuildDue build state)

section Health

variable {environmentId : String} {health : EnvironmentHealth} {build : Option String}
  {now later : Int} {db : Db}

/-- The window is that of the due events: it opens with the first one and closes when the
streak state follows the last one. -/
private theorem interruptsRecording_some_iff (environmentId : String) (now : Int)
    (state : PublishState) (n : Nat) :
    InterruptsRecording health build (some state) n ↔
      0 < n ∧ n ≤ (dueEvents environmentId health build now (some state)).length := by
  have hh := isSome_dueHealthEvent_iff environmentId health now state
  have hb := isSome_dueBuildEvent_iff environmentId health build now state
  simp only [InterruptsRecording, dueEvents, List.length_append, ← hh, ← hb]
  cases dueHealthEvent environmentId health now state <;>
    cases dueBuildEvent environmentId health build now state <;> simp <;> omega

/-- What due events say does not depend on when they are recorded. -/
private theorem content_dueEvents (environmentId : String) (health : EnvironmentHealth)
    (build : Option String) (now later : Int) (stored : Option PublishState) :
    (dueEvents environmentId health build now stored).map healthContent =
      (dueEvents environmentId health build later stored).map healthContent := by
  cases stored with
  | none => cases build <;> rfl
  | some state =>
    simp only [dueEvents, dueHealthEvent, dueBuildEvent, List.map_append]
    congr 1
    · cases ((healthStreak state).reports health.asStr).filter (announced health) <;> rfl
    · split
      · rfl
      · cases build <;> rfl

/-- Over the state it leaves, a publish of the same observations only confirms a health change,
and only one it did not record itself. -/
private theorem dueEvents_nextPublishState (environmentId : String) (health : EnvironmentHealth)
    (build : Option String) (now later : Int) (stored : Option PublishState) :
    (∀ e ∈ dueEvents environmentId health build later
      (some (nextPublishState health build stored)), e.kind = HealthEventKind.health.asStr) ∧
    ((∃ e ∈ dueEvents environmentId health build now stored,
      e.kind = HealthEventKind.health.asStr) ∨ stored = none →
      dueEvents environmentId health build later
        (some (nextPublishState health build stored)) = []) := by
  have hbuild : dueBuildEvent environmentId health build later
      (nextPublishState health build stored) = none := by
    simp [dueBuildEvent, nextPublishState]
  refine ⟨fun e he ↦ ?_, fun h ↦ ?_⟩
  · rw [dueEvents, hbuild] at he
    obtain ⟨p, rfl⟩ := of_dueHealthEvent (Option.mem_toList.mp (by simpa using he))
    rfl
  · have hhealth : dueHealthEvent environmentId health later
        (nextPublishState health build stored) = none := by
      rw [← Option.not_isSome_iff_eq_none, isSome_dueHealthEvent_iff]
      rintro ⟨-, hone, p, hprev, -⟩
      rcases h with ⟨e, he, hkind⟩ | rfl
      · cases stored with
        | none =>
          obtain ⟨b, -, rfl⟩ := Option.map_eq_some_iff.mp (Option.mem_toList.mp he)
          exact absurd hkind (by simp [buildEvent])
        | some state =>
          rcases List.mem_append.mp he with he | he
          · have hdue := (isSome_dueHealthEvent_iff _ _ _ _).mp
              (Option.isSome_of_mem (Option.mem_toList.mp he))
            have hlast : health.asStr = (healthStreak state).last := hdue.1
            have htwo : (nextPublishState health build (some state)).consecutive =
                satAdd state.consecutive 1 := by
              simp only [nextPublishState, Option.map_some, Streak.next, Streak.advance,
                if_pos hlast]
              rfl
            rw [htwo, hdue.2.1] at hone
            exact absurd hone (by decide)
          · obtain ⟨b, rfl⟩ := of_dueBuildEvent (Option.mem_toList.mp he)
            exact absurd hkind (by simp [buildEvent])
      · cases hprev
    rw [dueEvents, hbuild, hhealth]
    rfl

/-- What a crash after `n` statements and a later publish record together. -/
private theorem observedCrash_health (health : EnvironmentHealth) (build : Option String)
    (n : Nat) (hne : now ≠ later)
    (hlater : HealthEventsFresh environmentId later db) :
    let p := recordHealthAndBuildEvents environmentId health build now
    observedCrash recordedHealthEvents p n
        (recordHealthAndBuildEvents environmentId health build later) db =
      observed recordedHealthEvents ((p.trace db).take n) db ++
        dueEvents environmentId health build later
          ((p.crashed n db).dashboardPublishState environmentId) := by
  intro p
  have hstep : ∀ c ∈ (p.trace db).take n, RecordsAwayFrom environmentId later c := by
    intro c hc
    rcases mem_recordHealthAndBuildEvents (List.mem_of_mem_take hc) with
      ⟨e, he, rfl⟩ | rfl | rfl | rfl
    · exact fun _ ↦ ne_of_eq_of_ne (of_mem_dueEvents he).2.1 hne
    all_goals trivial
  have hcrashed : HealthEventsFresh environmentId later (p.crashed n db) :=
    healthEventsFresh_commitAll _ db hstep hlater
  rw [observedCrash, observed_recordHealthAndBuildEvents health build later hcrashed]

/-- Behind the streak state a crash only cuts off retention. -/
private theorem observedCrash_health_done (health : EnvironmentHealth) (build : Option String)
    (n : Nat) (hne : now ≠ later)
    (hfresh : HealthEventsFresh environmentId now db)
    (hlater : HealthEventsFresh environmentId later db)
    (hn : (dueEvents environmentId health build now
      (db.dashboardPublishState environmentId)).length < n) :
    observedCrash recordedHealthEvents (recordHealthAndBuildEvents environmentId health build now)
        n (recordHealthAndBuildEvents environmentId health build later) db =
      dueEvents environmentId health build now (db.dashboardPublishState environmentId) ++
        dueEvents environmentId health build later
          (some (nextPublishState health build (db.dashboardPublishState environmentId))) := by
  obtain ⟨hrows, hstate⟩ := observed_recordStatements health build now
    (db.dashboardPublishState environmentId) hfresh
  have hlen : (recordStatements environmentId health build now
      (db.dashboardPublishState environmentId)).length ≤ n := by
    cases hst : db.dashboardPublishState environmentId <;> rw [hst] at hn <;>
      simp only [recordStatements, List.length_cons, List.length_append, List.length_map,
        List.length_nil] <;> omega
  rw [observedCrash_health health build n hne hlater, Prog.crashed,
    trace_recordHealthAndBuildEvents, List.take_append, List.take_of_length_le hlen,
    observed_append, commitAll_append, hrows]
  have hprune : ∀ (m : Nat) (t : Db),
      observed recordedHealthEvents ((pruneHealthStatements environmentId now).take m) t = [] ∧
      (commitAll ((pruneHealthStatements environmentId now).take m) t).dashboardPublishState =
        t.dashboardPublishState := by
    intro m t
    have hmem : ∀ c ∈ (pruneHealthStatements environmentId now).take m, ∀ u : Db,
        recordedHealthEvents c u = [] ∧
          (commit c u).dashboardPublishState = u.dashboardPublishState := by
      intro c hc u
      have hc' := List.mem_of_mem_take hc
      simp only [pruneHealthStatements, List.mem_cons, List.not_mem_nil, or_false] at hc'
      rcases hc' with rfl | rfl <;> exact ⟨rfl, rfl⟩
    exact ⟨observed_eq_nil _ _ _ fun c hc u ↦ (hmem c hc u).1,
      commitAll_frame _ _ _ fun c hc u ↦ (hmem c hc u).2⟩
  rw [(hprune _ _).1, (hprune _ _).2, hstate, Function.update_self, List.append_nil]

/-- Under a streak there was, the events come first: a crash among them leaves the streak as it
was, and the next publish records them all again. -/
private theorem observedCrash_health_some {state : PublishState} {n : Nat} (hne : now ≠ later)
    (hfresh : HealthEventsFresh environmentId now db)
    (hlater : HealthEventsFresh environmentId later db)
    (hst : db.dashboardPublishState environmentId = some state)
    (hle : n ≤ (dueEvents environmentId health build now (some state)).length) :
    observedCrash recordedHealthEvents (recordHealthAndBuildEvents environmentId health build now)
        n (recordHealthAndBuildEvents environmentId health build later) db =
      (dueEvents environmentId health build now (some state)).take n ++
        dueEvents environmentId health build later (some state) := by
  have hcut : (recordStatements environmentId health build now (some state) ++
      pruneHealthStatements environmentId now).take n =
      ((dueEvents environmentId health build now (some state)).take n).map
        .recordHealthEvent := by
    simp only [recordStatements]
    rw [List.append_assoc, List.take_append_of_le_length (by simpa using hle), List.map_take]
  obtain ⟨hrows, hafter⟩ := observed_some_dueEvents health build now (some state) n hfresh
  have hstate : (commitAll (((dueEvents environmentId health build now (some state)).take
      n).map Statement.recordHealthEvent) db).dashboardPublishState environmentId =
      some state := by
    rw [hafter]
    exact hst
  rw [observedCrash_health health build n hne hlater, Prog.crashed,
    trace_recordHealthAndBuildEvents, hst, hcut, hrows, hstate]

/-- Without a streak it is stored first: a crash behind it hides the build from the next
publish. -/
private theorem observedCrash_health_none {b : String} (hne : now ≠ later)
    (hlater : HealthEventsFresh environmentId later db)
    (hst : db.dashboardPublishState environmentId = none) :
    observedCrash recordedHealthEvents
        (recordHealthAndBuildEvents environmentId health (some b) now) 1
        (recordHealthAndBuildEvents environmentId health (some b) later) db = [] := by
  have hlost := (dueEvents_nextPublishState environmentId health (some b) now later none).2
    (Or.inr rfl)
  have hstate : (commitAll ((recordStatements environmentId health (some b) now none ++
      pruneHealthStatements environmentId now).take 1) db).dashboardPublishState
        environmentId = some (nextPublishState health (some b) none) :=
    Function.update_self ..
  rw [observedCrash_health health (some b) 1 hne hlater, Prog.crashed,
    trace_recordHealthAndBuildEvents, hst, hstate, hlost]
  rfl

/-- A non-empty beginning said twice is neither the whole said once nor the whole followed by
something of a kind the whole does not contain. -/
private theorem take_append_ne {α : Type} {c d : List α} {n : Nat} (P : α → Prop) (hn : 0 < n)
    (hle : n ≤ c.length) (hd : ∀ x ∈ d, P x) (hc : (∃ x ∈ c, P x) → d = []) :
    c.take n ++ c ≠ c ∧ c.take n ++ c ≠ c ++ d := by
  have hlong : (c.take n ++ c).length = n + c.length := by
    rw [List.length_append, List.length_take, Nat.min_eq_left hle]
  have hne : c ≠ [] := by
    rintro rfl
    simp only [List.length_nil, Nat.le_zero_eq] at hle
    omega
  constructor
  · intro h
    rw [h] at hlong
    omega
  · intro h
    by_cases hnil : d = []
    · rw [h, hnil, List.append_nil] at hlong
      omega
    · have hlast : (c.take n ++ c).getLast (by simp [hne]) = (c ++ d).getLast (by simp [hne]) := by
        simp only [h]
      rw [List.getLast_append_of_right_ne_nil _ _ hne,
        List.getLast_append_of_right_ne_nil _ _ hnil] at hlast
      have hP : P (c.getLast hne) := hlast ▸ hd _ (List.getLast_mem hnil)
      exact hnil (hc ⟨_, List.getLast_mem hne, hP⟩)

/-- For every prior state, every observation and every crash point, recording is exactly-once
unless the crash falls between an event and the streak state it belongs to. -/
theorem healthEvents_crashTransparent_iff (n : Nat) (hne : now ≠ later)
    (hfresh : HealthEventsFresh environmentId now db)
    (hlater : HealthEventsFresh environmentId later db) :
    CrashTransparent recordedHealthEvents (List.map healthContent)
        (recordHealthAndBuildEvents environmentId health build now) n
        (recordHealthAndBuildEvents environmentId health build later) db ↔
      ¬InterruptsRecording health build (db.dashboardPublishState environmentId) n := by
  obtain ⟨hkinds, hnone⟩ := dueEvents_nextPublishState environmentId health build now later
    (db.dashboardPublishState environmentId)
  have hdone := fun m ↦ observedCrash_health_done health build m hne hfresh hlater
  have hcontent := content_dueEvents environmentId health build now later
    (db.dashboardPublishState environmentId)
  have hfull : (dueEvents environmentId health build now
      (db.dashboardPublishState environmentId)).length <
      ((recordHealthAndBuildEvents environmentId health build now).trace db).length := by
    rw [trace_recordHealthAndBuildEvents, List.length_append]
    cases db.dashboardPublishState environmentId <;>
      simp [recordStatements, pruneHealthStatements] <;> omega
  have hzero : observedCrash recordedHealthEvents
      (recordHealthAndBuildEvents environmentId health build now) 0
      (recordHealthAndBuildEvents environmentId health build later) db =
      dueEvents environmentId health build later (db.dashboardPublishState environmentId) :=
    observedCrash_health health build 0 hne hlater
  rw [CrashTransparent, hdone _ hfull, hzero]
  by_cases hn : (dueEvents environmentId health build now
      (db.dashboardPublishState environmentId)).length < n
  · -- The streak state is stored: the publish is complete but for retention.
    rw [hdone n hn]
    refine iff_of_true (Or.inr rfl) ?_
    cases hst : db.dashboardPublishState environmentId with
    | none =>
      rintro ⟨hb, rfl⟩
      obtain ⟨b, rfl⟩ := Option.ne_none_iff_exists'.mp hb
      rw [hst] at hn
      exact absurd hn (by simp [dueEvents])
    | some state =>
      rw [interruptsRecording_some_iff environmentId now, ← hst]
      omega
  · rcases Nat.eq_zero_or_pos n with rfl | hpos
    · -- Nothing was committed.
      rw [hzero]
      refine iff_of_true (Or.inl rfl) ?_
      cases db.dashboardPublishState environmentId with
      | none => simp [InterruptsRecording]
      | some state => simp [interruptsRecording_some_iff environmentId now]
    · cases hst : db.dashboardPublishState environmentId with
      | none =>
        -- The streak is stored, its build event is not: the next publish sees nothing new.
        rw [hst] at hn
        cases build with
        | none => exact absurd hpos (by simpa [dueEvents] using hn)
        | some b =>
          obtain rfl : n = 1 := by simp [dueEvents] at hn; omega
          refine iff_of_false ?_ (not_not_intro ⟨by simp, rfl⟩)
          rw [observedCrash_health_none hne hlater hst]
          rintro (h | h) <;> simp [dueEvents] at h
      | some state =>
        -- Events are recorded under the old streak: the next publish records them again.
        rw [hst] at hn hnone hkinds hcontent
        have hle := not_lt.mp hn
        obtain ⟨honce, htwice⟩ := take_append_ne
          (c := (dueEvents environmentId health build now (some state)).map healthContent)
          (d := (dueEvents environmentId health build later
            (some (nextPublishState health build (some state)))).map healthContent)
          (fun x ↦ x.1 = HealthEventKind.health.asStr) hpos (by simpa using hle)
          (by simpa [healthContent] using hkinds)
          (by
            rintro ⟨x, hx, hk⟩
            obtain ⟨e, he, rfl⟩ := List.mem_map.mp hx
            rw [hnone (Or.inl ⟨e, he, hk⟩), List.map_nil])
        refine iff_of_false ?_ (not_not_intro
          ((interruptsRecording_some_iff environmentId now state n).mpr ⟨hpos, hle⟩))
        rw [observedCrash_health_some hne hfresh hlater hst hle]
        simp only [List.map_append, ← hcontent, List.map_take]
        rintro (h | h)
        · exact honce h
        · exact htwice h

end Health

/-- The crash point lies right behind the event of some vote, before its streak is stored. -/
def InterruptsVotes (environmentId : String) (votes : List (String × SignalState)) (now : Int)
    (stored : String × String → Option SignalPublishState) (n : Nat) : Prop :=
  ∃ earlier vote rest, votes = earlier ++ vote :: rest ∧
    SignalDue vote.2 (stored (environmentId, vote.1)) ∧
    n = (earlier.flatMap fun v ↦
      voteStatements environmentId now v (stored (environmentId, v.1))).length + 1

/-- What the events of one Signal say. -/
def signalView (signalId : String) (events : List SignalEvent) :
    List (String × Option String × String) :=
  (events.filter fun e ↦ e.signalId = signalId).map signalContent

section Signals

variable {environmentId : String} {now later : Int} {db : Db}

/-- A beginning of concatenated blocks ends between two blocks or inside one. -/
private theorem take_flatMap {α β : Type} (f : α → List β) (xs : List α) (n : Nat) :
    (∃ earlier rest, xs = earlier ++ rest ∧ (xs.flatMap f).take n = earlier.flatMap f) ∨
    ∃ earlier x rest k, xs = earlier ++ x :: rest ∧ 0 < k ∧ k < (f x).length ∧
      n = (earlier.flatMap f).length + k := by
  induction xs generalizing n with
  | nil => exact Or.inl ⟨[], [], rfl, by simp⟩
  | cons x xs ih =>
    by_cases hn : n < (f x).length
    · rcases Nat.eq_zero_or_pos n with rfl | hpos
      · exact Or.inl ⟨[], x :: xs, rfl, by simp⟩
      · exact Or.inr ⟨[], x, xs, n, rfl, hpos, hn, by simp⟩
    · have hle := not_lt.mp hn
      rcases ih (n - (f x).length) with ⟨earlier, rest, rfl, htake⟩ | ⟨earlier, y, rest, k, rfl,
        hpos, hk, hsub⟩
      · refine Or.inl ⟨x :: earlier, rest, rfl, ?_⟩
        rw [List.flatMap_cons, List.take_append, List.take_of_length_le hle, htake,
          List.flatMap_cons]
      · refine Or.inr ⟨x :: earlier, y, rest, k, rfl, hpos, hk, ?_⟩
        rw [List.flatMap_cons, List.length_append]
        omega

/-- What a due event says does not depend on when it is recorded. -/
private theorem content_dueVoteEvent (now later : Int) (vote : String × SignalState)
    (stored : Option SignalPublishState) :
    (dueVoteEvent environmentId now vote stored).map signalContent =
      (dueVoteEvent environmentId later vote stored).map signalContent := by
  rw [dueVoteEvent, dueVoteEvent]
  split
  · rfl
  · cases stored with
    | none => rfl
    | some s =>
      simp only [Option.bind_some, dueSignalEvent, Option.map_map]
      rfl

/-- What the votes of one round say about one Signal: at most its own due event. -/
private def tells (environmentId signalId : String) (now : Int)
    (votes : List (String × SignalState)) (stored : Option SignalPublishState) :
    List (String × Option String × String) :=
  match votes.lookup signalId with
  | none => []
  | some state =>
    ((dueVoteEvent environmentId now (signalId, state) stored).map signalContent).toList

private theorem tells_time (environmentId signalId : String) (now later : Int)
    (votes : List (String × SignalState)) (stored : Option SignalPublishState) :
    tells environmentId signalId now votes stored =
      tells environmentId signalId later votes stored := by
  simp only [tells]
  split
  · rfl
  · rw [content_dueVoteEvent now later]

private theorem signalView_votes (environmentId signalId : String)
    (votes : List (String × SignalState)) (now : Int) (states : String → Option SignalPublishState)
    (hnodup : (votes.map Prod.fst).Nodup) :
    signalView signalId (votes.filterMap fun vote ↦
        dueVoteEvent environmentId now vote (states vote.1)) =
      tells environmentId signalId now votes (states signalId) := by
  induction votes with
  | nil => rfl
  | cons vote votes ih =>
    obtain ⟨id, state⟩ := vote
    obtain ⟨hvote, hnodup⟩ := List.nodup_cons.mp hnodup
    have hrest := ih hnodup
    simp only [signalView, tells] at hrest ⊢
    rw [List.filterMap_cons]
    by_cases hid : signalId = id
    · subst hid
      have hlook : votes.lookup signalId = none := by
        rw [List.lookup_eq_none_iff]
        intro p hp
        have hne : signalId ≠ p.1 := fun h ↦ hvote (List.mem_map.mpr ⟨p, hp, h.symm⟩)
        simpa using hne
      rw [hlook] at hrest
      simp only [List.lookup_cons, beq_self_eq_true]
      cases hdue : dueVoteEvent environmentId now (signalId, state) (states signalId) with
      | none => exact hrest
      | some e =>
        have hkey := of_dueVoteEvent hdue
        have hsig : e.signalId = signalId := congrArg (fun k ↦ k.2.1) hkey
        rw [List.filter_cons_of_pos (by simpa using hsig), List.map_cons, hrest]
        rfl
    · have hbeq : (signalId == id) = false := by simpa using hid
      simp only [List.lookup_cons, hbeq]
      cases hdue : dueVoteEvent environmentId now (id, state) (states id) with
      | none => exact hrest
      | some e =>
        have hkey := of_dueVoteEvent hdue
        have hsig : e.signalId = id := congrArg (fun k ↦ k.2.1) hkey
        rw [List.filter_cons_of_neg (by simpa [hsig] using Ne.symm hid), hrest]

/-- What a crash after `n` statements and a later publish record together. -/
private theorem observedCrash_votes (votes : List (String × SignalState)) (n : Nat)
    (hne : now ≠ later) (hnodup : (votes.map Prod.fst).Nodup)
    (hlater : SignalEventsFresh environmentId later db) :
    let stmts := (votes.flatMap fun v ↦ voteStatements environmentId now v
      (db.signalPublishState (environmentId, v.1))).take n
    observedCrash recordedSignalEvents (recordSignalEvents environmentId votes now) n
        (recordSignalEvents environmentId votes later) db =
      observed recordedSignalEvents stmts db ++
        votes.filterMap fun v ↦ dueVoteEvent environmentId later v
          ((commitAll stmts db).signalPublishState (environmentId, v.1)) := by
  intro stmts
  have hstep : ∀ c ∈ ((recordSignalEvents environmentId votes now).trace db).take n,
      RecordsAwayFrom environmentId later c := by
    intro c hc
    rcases mem_recordSignalEvents hnodup (List.mem_of_mem_take hc) with
      ⟨e, rfl, -, he⟩ | ⟨id, state, rfl⟩ | rfl | rfl
    · exact fun _ ↦ ne_of_eq_of_ne he hne
    all_goals trivial
  have hcrashed : SignalEventsFresh environmentId later
      ((recordSignalEvents environmentId votes now).crashed n db) :=
    signalEventsFresh_commitAll _ db hstep hlater
  have hprune : ∀ (m : Nat) (t : Db),
      observed recordedSignalEvents ((pruneSignalStatements environmentId now).take m) t = [] ∧
      (commitAll ((pruneSignalStatements environmentId now).take m) t).signalPublishState =
        t.signalPublishState := by
    intro m t
    have hmem : ∀ c ∈ (pruneSignalStatements environmentId now).take m, ∀ u : Db,
        recordedSignalEvents c u = [] ∧
          (commit c u).signalPublishState = u.signalPublishState := by
      intro c hc u
      have hc' := List.mem_of_mem_take hc
      simp only [pruneSignalStatements, List.mem_cons, List.not_mem_nil, or_false] at hc'
      rcases hc' with rfl | rfl <;> exact ⟨rfl, rfl⟩
    exact ⟨observed_eq_nil _ _ _ fun c hc u ↦ (hmem c hc u).1,
      commitAll_frame _ _ _ fun c hc u ↦ (hmem c hc u).2⟩
  rw [observedCrash, observed_recordSignalEvents votes later hnodup hcrashed, Prog.crashed,
    trace_recordSignalEvents _ _ _ _ hnodup, List.take_append, observed_append, commitAll_append,
    (hprune _ _).1, (hprune _ _).2, List.append_nil]

/-- What one Signal tells when a crash follows a whole number of votes: the votes before the
crash are judged by the old streaks, then all of them by the streaks the crash left. -/
private theorem signalView_boundary (signalId : String)
    {votes earlier rest : List (String × SignalState)} {n : Nat} (hne : now ≠ later)
    (hnodup : (votes.map Prod.fst).Nodup) (hfresh : SignalEventsFresh environmentId now db)
    (hlater : SignalEventsFresh environmentId later db)
    (hsplit : votes = earlier ++ rest)
    (htake : (votes.flatMap fun v ↦ voteStatements environmentId now v
      (db.signalPublishState (environmentId, v.1))).take n =
      earlier.flatMap fun v ↦ voteStatements environmentId now v
        (db.signalPublishState (environmentId, v.1))) :
    let stored := db.signalPublishState (environmentId, signalId)
    signalView signalId (observedCrash recordedSignalEvents
        (recordSignalEvents environmentId votes now) n
        (recordSignalEvents environmentId votes later) db) =
      tells environmentId signalId later earlier stored ++
        tells environmentId signalId later votes (nextVoteState earlier signalId stored) := by
  intro stored
  have hearlier : (earlier.map Prod.fst).Nodup := by
    rw [hsplit, List.map_append] at hnodup
    exact (List.nodup_append.mp hnodup).1
  have hnew : ∀ vote ∈ earlier, ∀ r ∈ db.signalEvents, r.key ≠ (environmentId, vote.1, now) :=
    fun vote _ ↦ hfresh.key_ne vote.1
  have hstate := signalPublishState_votes environmentId db.signalPublishState earlier now db
    hearlier fun _ _ ↦ rfl
  rw [observedCrash_votes votes n hne hnodup hlater, htake,
    observed_votes db.signalPublishState earlier now db hearlier hnew]
  simp only [hstate, if_true]
  rw [signalView, List.filter_append, List.map_append]
  have hfirst := signalView_votes environmentId signalId earlier now
    (fun id ↦ db.signalPublishState (environmentId, id)) hearlier
  have hsecond := signalView_votes environmentId signalId votes later
    (fun id ↦ nextVoteState earlier id (db.signalPublishState (environmentId, id))) hnodup
  rw [tells_time _ _ now later] at hfirst
  exact congrArg₂ (· ++ ·) hfirst hsecond

/-- A vote over the streak it just left tells nothing after a change it told itself. -/
private theorem dueVoteEvent_next {vote : String × SignalState}
    {stored : Option SignalPublishState} (hdue : SignalDue vote.2 stored) :
    dueVoteEvent environmentId later vote (some (nextSignalPublishState vote.2 stored)) = none := by
  rw [← Option.not_isSome_iff_eq_none, isSome_dueVoteEvent_iff]
  obtain ⟨-, s, rfl, hlast, hone, -⟩ := hdue
  rintro ⟨-, t, ht, -, htwo, -⟩
  obtain rfl := Option.some.inj ht
  have hlast' : vote.2.asStr = (signalStreak s).last := hlast
  have hnext : (nextSignalPublishState vote.2 (some s)).consecutive = satAdd s.consecutive 1 := by
    simp only [nextSignalPublishState, Option.map_some, Streak.next, Streak.advance,
      if_pos hlast']
    rfl
  rw [hnext, hone] at htwo
  exact absurd htwo (by decide)

private theorem length_voteStatements_le (environmentId : String) (now : Int)
    (vote : String × SignalState) (stored : Option SignalPublishState) :
    (voteStatements environmentId now vote stored).length ≤ 2 := by
  rw [voteStatements]
  split
  · simp
  · cases stored.bind (dueSignalEvent environmentId vote.1 vote.2 now) <;> simp

/-- Only a vote that confirms a change issues two statements. -/
private theorem isSome_of_one_lt_length {vote : String × SignalState}
    {stored : Option SignalPublishState}
    (h : 1 < (voteStatements environmentId now vote stored).length) :
    (dueVoteEvent environmentId now vote stored).isSome := by
  rw [voteStatements] at h
  rw [dueVoteEvent]
  split at h
  · simp at h
  · next hskip =>
    rw [if_neg hskip]
    cases hdue : stored.bind (dueSignalEvent environmentId vote.1 vote.2 now) with
    | none => simp [hdue] at h
    | some e => rfl

/-- The Signal of a due vote votes once, and tells its change. -/
private theorem tells_window (later : Int) {votes earlier rest : List (String × SignalState)}
    {vote : String × SignalState} (hnodup : (votes.map Prod.fst).Nodup)
    (hsplit : votes = earlier ++ vote :: rest)
    (hdue : SignalDue vote.2 (db.signalPublishState (environmentId, vote.1))) :
    votes.lookup vote.1 = some vote.2 ∧ earlier.lookup vote.1 = none ∧
      (tells environmentId vote.1 later votes
        (db.signalPublishState (environmentId, vote.1))).length = 1 := by
  have hearlier : earlier.lookup vote.1 = none := by
    rw [List.lookup_eq_none_iff]
    intro p hp
    rw [hsplit, List.map_append, List.nodup_append] at hnodup
    have hne := hnodup.2.2 p.1 (List.mem_map_of_mem hp) vote.1 (by simp)
    simpa using Ne.symm hne
  have hlook : votes.lookup vote.1 = some vote.2 := by
    rw [hsplit, List.lookup_append, hearlier]
    obtain ⟨id, state⟩ := vote
    simp
  refine ⟨hlook, hearlier, ?_⟩
  obtain ⟨e, he⟩ := Option.isSome_iff_exists.mp
    ((isSome_dueVoteEvent_iff environmentId later _ _).mpr hdue)
  simp only [tells, hlook, he, Option.map_some, Option.toList_some, List.length_cons,
    List.length_nil]

/-- What a Signal tells when the crash falls between its event and its streak. -/
private theorem signalView_window {votes earlier rest : List (String × SignalState)}
    {vote : String × SignalState} {n : Nat} (hne : now ≠ later)
    (hnodup : (votes.map Prod.fst).Nodup) (hfresh : SignalEventsFresh environmentId now db)
    (hlater : SignalEventsFresh environmentId later db)
    (hsplit : votes = earlier ++ vote :: rest)
    (hdue : SignalDue vote.2 (db.signalPublishState (environmentId, vote.1)))
    (hn : n = (earlier.flatMap fun v ↦ voteStatements environmentId now v
      (db.signalPublishState (environmentId, v.1))).length + 1) :
    signalView vote.1 (observedCrash recordedSignalEvents
        (recordSignalEvents environmentId votes now) n
        (recordSignalEvents environmentId votes later) db) =
      tells environmentId vote.1 later votes (db.signalPublishState (environmentId, vote.1)) ++
        tells environmentId vote.1 later votes
          (db.signalPublishState (environmentId, vote.1)) := by
  obtain ⟨hlook, hearlier, -⟩ := tells_window later hnodup hsplit hdue
  have hbegin : ((earlier ++ [vote]).map Prod.fst).Nodup := by
    refine hnodup.sublist (List.Sublist.map _ ?_)
    rw [hsplit]
    exact (List.Sublist.refl earlier).append (List.singleton_sublist.mpr List.mem_cons_self)
  obtain ⟨e, he⟩ := Option.isSome_iff_exists.mp
    ((isSome_dueVoteEvent_iff environmentId now _ _).mpr hdue)
  -- The due vote issues two statements; the crash cuts off the second.
  have hpair : voteStatements environmentId now vote
      (db.signalPublishState (environmentId, vote.1)) =
      [.recordSignalEvent e, .storeSignalPublishState environmentId vote.1
        (nextSignalPublishState vote.2 (db.signalPublishState (environmentId, vote.1)))] := by
    rw [dueVoteEvent, if_neg hdue.1] at he
    rw [voteStatements, if_neg hdue.1, he]
    rfl
  have htake : (votes.flatMap fun v ↦ voteStatements environmentId now v
      (db.signalPublishState (environmentId, v.1))).take n =
      (earlier.flatMap fun v ↦ voteStatements environmentId now v
        (db.signalPublishState (environmentId, v.1))) ++ [.recordSignalEvent e] := by
    rw [hsplit, List.flatMap_append, List.flatMap_cons, hpair, hn, List.take_length_add_append]
    rfl
  have hrows := observed_votes db.signalPublishState (earlier ++ [vote]) now db hbegin
    fun v _ ↦ hfresh.key_ne v.1
  have hobs : observed recordedSignalEvents ((earlier.flatMap fun v ↦
      voteStatements environmentId now v (db.signalPublishState (environmentId, v.1))) ++
      [.recordSignalEvent e]) db = (earlier ++ [vote]).filterMap fun v ↦
        dueVoteEvent environmentId now v (db.signalPublishState (environmentId, v.1)) := by
    rw [← hrows, List.flatMap_append, List.flatMap_singleton, hpair, observed_append,
      observed_append]
    rfl
  have hstate : ∀ id, (commitAll ((earlier.flatMap fun v ↦
      voteStatements environmentId now v (db.signalPublishState (environmentId, v.1))) ++
      [Statement.recordSignalEvent e]) db).signalPublishState (environmentId, id) =
        nextVoteState earlier id (db.signalPublishState (environmentId, id)) := by
    intro id
    rw [commitAll_append]
    have hvotes := signalPublishState_votes environmentId db.signalPublishState earlier now db
      (hbegin.sublist ((List.sublist_append_left _ _).map _)) (fun _ _ ↦ rfl) (environmentId, id)
    rw [if_pos rfl] at hvotes
    exact hvotes
  rw [observedCrash_votes votes n hne hnodup hlater, htake, hobs]
  simp only [hstate]
  rw [signalView, List.filter_append, List.map_append]
  have hfirst := signalView_votes environmentId vote.1 (earlier ++ [vote]) now
    (fun id ↦ db.signalPublishState (environmentId, id)) hbegin
  have hsecond := signalView_votes environmentId vote.1 votes later
    (fun id ↦ nextVoteState earlier id (db.signalPublishState (environmentId, id))) hnodup
  have hlook' : (earlier ++ [vote]).lookup vote.1 = some vote.2 := by
    rw [List.lookup_append, hearlier]
    obtain ⟨id, state⟩ := vote
    simp
  rw [tells_time _ _ now later] at hfirst
  refine congrArg₂ (· ++ ·) (hfirst.trans ?_) (hsecond.trans ?_)
  · simp only [tells, hlook, hlook']
  · simp only [nextVoteState, hearlier]

/-- For every prior state, every round of votes and every crash point, recording is
exactly-once for every Signal unless the crash falls between an event and its streak. -/
theorem signalEvents_crashTransparent_iff (votes : List (String × SignalState)) (n : Nat)
    (hne : now ≠ later) (hnodup : (votes.map Prod.fst).Nodup)
    (hfresh : SignalEventsFresh environmentId now db)
    (hlater : SignalEventsFresh environmentId later db) :
    (∀ signalId, CrashTransparent recordedSignalEvents (signalView signalId)
        (recordSignalEvents environmentId votes now) n
        (recordSignalEvents environmentId votes later) db) ↔
      ¬InterruptsVotes environmentId votes now db.signalPublishState n := by
  have hzero := fun id ↦ signalView_boundary id (n := 0) hne hnodup hfresh hlater
    (List.nil_append votes).symm rfl
  have hlen : (votes.flatMap fun v ↦ voteStatements environmentId now v
      (db.signalPublishState (environmentId, v.1))).length ≤
      ((recordSignalEvents environmentId votes now).trace db).length := by
    rw [trace_recordSignalEvents _ _ _ _ hnodup, List.length_append]
    exact Nat.le_add_right _ _
  have hfull := fun id ↦
    signalView_boundary id hne hnodup hfresh hlater (List.append_nil votes).symm
      (List.take_of_length_le hlen)
  constructor
  · -- Inside the window the event is told twice, by the crashed publish and by the next one.
    rintro h ⟨earlier, vote, rest, hsplit, hdue, hn⟩
    have hwindow := signalView_window hne hnodup hfresh hlater hsplit hdue hn
    obtain ⟨hlook, hearlier, hone⟩ := tells_window later hnodup hsplit hdue
    rcases h vote.1 with h | h
    · rw [hwindow, hzero vote.1] at h
      have hlong := congrArg List.length h
      simp only [tells, hlook, List.lookup_nil, nextVoteState] at hlong hone
      simp only [List.length_append, List.length_nil] at hlong
      omega
    · rw [hwindow, hfull vote.1] at h
      have hlong := congrArg List.length h
      have hskip : ¬vote.2 = .skipped := hdue.1
      simp only [tells, hlook, nextVoteState, if_neg hskip, dueVoteEvent_next hdue] at hlong hone
      simp only [List.length_append, Option.map_none, Option.toList_none, List.length_nil]
        at hlong
      omega
  · intro hI id
    rcases take_flatMap (fun v ↦ voteStatements environmentId now v
      (db.signalPublishState (environmentId, v.1))) votes n with
      ⟨earlier, rest, hsplit, htake⟩ | ⟨earlier, vote, rest, k, hsplit, hpos, hk, hn⟩
    · have hcrash := signalView_boundary id hne hnodup hfresh hlater hsplit htake
      cases hl : earlier.lookup id with
      | none =>
        left
        rw [hcrash, hzero id]
        simp only [tells, nextVoteState, hl, List.lookup_nil]
      | some state =>
        right
        have hl' : votes.lookup id = some state := by
          rw [hsplit, List.lookup_append, hl]
          rfl
        rw [hcrash, hfull id]
        simp only [tells, nextVoteState, hl, hl']
    · -- Only a vote that confirms a change issues two statements.
      have hdue := (isSome_dueVoteEvent_iff environmentId now _ _).mp
        (isSome_of_one_lt_length (lt_of_le_of_lt (Nat.succ_le_of_lt hpos) hk))
      obtain rfl : k = 1 := by
        have := length_voteStatements_le environmentId now vote
          (db.signalPublishState (environmentId, vote.1))
        omega
      exact absurd ⟨earlier, vote, rest, hsplit, hdue, hn⟩ hI

end Signals

/-- Crash-safe recording, for every prior state, observation and crash point: a publish that is
interrupted and repeated under another time tells every transition and every build exactly once,
unless it was interrupted between an event and the streak state it belongs to. -/
theorem recording_crashTransparent_iff (environmentId : String) (now later : Int) (db : Db)
    (health : EnvironmentHealth) (build : Option String) (votes : List (String × SignalState))
    (n : Nat) (hne : now ≠ later) (hnodup : (votes.map Prod.fst).Nodup)
    (hhealth : HealthEventsFresh environmentId now db)
    (hhealth' : HealthEventsFresh environmentId later db)
    (hsignal : SignalEventsFresh environmentId now db)
    (hsignal' : SignalEventsFresh environmentId later db) :
    (CrashTransparent recordedHealthEvents (List.map healthContent)
        (recordHealthAndBuildEvents environmentId health build now) n
        (recordHealthAndBuildEvents environmentId health build later) db ↔
      ¬InterruptsRecording health build (db.dashboardPublishState environmentId) n) ∧
    ((∀ signalId, CrashTransparent recordedSignalEvents (signalView signalId)
        (recordSignalEvents environmentId votes now) n
        (recordSignalEvents environmentId votes later) db) ↔
      ¬InterruptsVotes environmentId votes now db.signalPublishState n) :=
  ⟨healthEvents_crashTransparent_iff n hne hhealth hhealth',
    signalEvents_crashTransparent_iff votes n hne hnodup hsignal hsignal'⟩

/-- An Environment published healthy, then degraded, with one Signal likewise. -/
private def degradedOnce : Db :=
  (recordSignalEvents "prod" [("jobs", .degraded)] 60).run <|
    (recordHealthAndBuildEvents "prod" .degraded (some "v1") 60).run <|
      (recordSignalEvents "prod" [("jobs", .healthy)] 0).run <|
        (recordHealthAndBuildEvents "prod" .healthy (some "v1") 0).run .empty

/-- A publish that confirms both changes and crashes behind the streak states. -/
theorem recording_crash_behind_streaks :
    CrashTransparent recordedHealthEvents (List.map healthContent)
        (recordHealthAndBuildEvents "prod" .degraded (some "v1") 120) 2
        (recordHealthAndBuildEvents "prod" .degraded (some "v1") 180) degradedOnce ∧
      ∀ signalId, CrashTransparent recordedSignalEvents (signalView signalId)
        (recordSignalEvents "prod" [("jobs", .degraded)] 120) 2
        (recordSignalEvents "prod" [("jobs", .degraded)] 180) degradedOnce := by
  have h := recording_crashTransparent_iff "prod" 120 180 degradedOnce .degraded (some "v1")
    [("jobs", .degraded)] 2 (by decide) (by decide) (by decide) (by decide) (by decide)
    (by decide)
  have hstored : degradedOnce.dashboardPublishState "prod" =
      some ⟨"degraded", 1, some "healthy", some "v1"⟩ := by decide
  refine ⟨h.1.mpr ?_, h.2.mpr ?_⟩
  · rw [hstored]
    rintro (⟨hn, -⟩ | ⟨-, -, hbuild⟩)
    · exact absurd hn (by decide)
    · exact hbuild.2 rfl
  · rintro ⟨earlier, vote, rest, hsplit, -, hn⟩
    have hnil : earlier = [] := by
      have hlen := congrArg List.length hsplit
      simp only [List.length_cons, List.length_append, List.length_nil] at hlen
      exact List.length_eq_zero_iff.mp (by omega)
    rw [hnil] at hn
    exact absurd hn (by decide)

/-- A crash right behind the health event: the next publish records the same change again. A
crash right behind the first streak state: the first build is never recorded. -/
theorem recording_crash_before_streak :
    (observedCrash recordedHealthEvents
        (recordHealthAndBuildEvents "prod" .degraded (some "v1") 120) 1
        (recordHealthAndBuildEvents "prod" .degraded (some "v1") 180) degradedOnce).map
          healthContent =
      [("health", some "healthy", "degraded", none),
        ("health", some "healthy", "degraded", none)] ∧
    observedCrash recordedHealthEvents
        (recordHealthAndBuildEvents "prod" .healthy (some "v1") 0) 1
        (recordHealthAndBuildEvents "prod" .healthy (some "v1") 60) .empty = [] ∧
    (observed recordedHealthEvents
        ((recordHealthAndBuildEvents "prod" .healthy (some "v1") 0).trace .empty) .empty).map
          healthContent = [("build", none, "healthy", some "v1")] := by
  decide

end Daku.Health
