import Daku.Collector.Loop

/-!
# Publishing the same snapshots again

`CollectorLoop::run` publishes what is stored before its first tick, so every restart publishes
the last snapshots once more (`collector.rs:394–403`). A republish records nothing exactly when
no change is pending; runs whose republishes all meet that record what the run without them
records. The two runs are related by streaks that only differ in how far they counted.
-/

namespace Daku.Health

open Daku.Base Daku.Base.Prog Daku.Protocol Daku.Store Daku.Collector

/-- Announced changes, over the stored texts. -/
def announcedText (current previous : String) : Bool :=
  current ≠ EnvironmentHealth.waiting.asStr &&
    !(previous == EnvironmentHealth.waiting.asStr && current == EnvironmentHealth.healthy.asStr)

private theorem announced_eq (health : EnvironmentHealth) :
    announced health = announcedText health.asStr := by
  funext previous
  cases health <;> simp [announced, announcedText, EnvironmentHealth.asStr]

private theorem dueHealthEvent_eq (environmentId : String) (health : EnvironmentHealth)
    (now : Int) (state : PublishState) :
    dueHealthEvent environmentId health now state =
      ((healthStreak state).dueReport announcedText health.asStr).map
        (healthChangeEvent environmentId health now) := by
  rw [dueHealthEvent, Streak.dueReport, announced_eq]

private theorem dueSignalEvent_eq (environmentId signalId : String) (state : SignalState)
    (now : Int) (stored : SignalPublishState) :
    dueSignalEvent environmentId signalId state now stored =
      ((signalStreak stored).dueReport (fun _ _ ↦ true) state.asStr).map fun previous ↦ {
        environmentId, signalId, observedAt := now
        fromState := some previous, toState := state.asStr } := by
  rw [dueSignalEvent, Streak.dueReport]
  congr 1
  cases (signalStreak stored).reports state.asStr <;> rfl

/-- Environment streaks that record alike from now on. -/
def HealthAlike (s t : PublishState) : Prop :=
  Streak.Alike announcedText (healthStreak s) (healthStreak t) ∧ s.lastBuild = t.lastBuild

/-- Signal streaks that record alike from now on. -/
def SignalAlike (s t : SignalPublishState) : Prop :=
  Streak.Alike (fun _ _ ↦ true) (signalStreak s) (signalStreak t)

section Steps

variable {health : EnvironmentHealth} {build : Option String} {s t : Option PublishState}
  {state : SignalState} {v w : Option SignalPublishState}

/-- One more publish keeps streaks alike. -/
private theorem healthAlike_next (h : Option.Rel HealthAlike s t) :
    Option.Rel HealthAlike (some (nextPublishState health build s))
      (some (nextPublishState health build t)) := by
  apply Option.Rel.some
  cases h with
  | none => exact ⟨Streak.Alike.refl (le_refl 1), rfl⟩
  | some h => exact ⟨h.1.advance health.asStr, rfl⟩

/-- Alike streaks are due to record the same. -/
private theorem dueEvents_alike (environmentId : String) (now : Int)
    (h : Option.Rel HealthAlike s t) :
    dueEvents environmentId health build now s = dueEvents environmentId health build now t := by
  cases h with
  | none => rfl
  | @some s t h =>
    have hlast : s.lastHealth = t.lastHealth := h.1.last
    simp only [dueEvents, dueHealthEvent_eq, dueBuildEvent, h.1.due, h.2, hlast]

/-- One more vote keeps streaks alike. -/
private theorem signalAlike_next (h : Option.Rel SignalAlike v w) :
    Option.Rel SignalAlike (some (nextSignalPublishState state v))
      (some (nextSignalPublishState state w)) := by
  apply Option.Rel.some
  cases h with
  | none => exact Streak.Alike.refl (le_refl 1)
  | some h => exact Streak.Alike.advance h state.asStr

private theorem signalAlike_nextVoteState (votes : List (String × SignalState)) (id : String)
    (h : Option.Rel SignalAlike v w) :
    Option.Rel SignalAlike (nextVoteState votes id v) (nextVoteState votes id w) := by
  unfold nextVoteState
  split
  · split
    · exact h
    · exact signalAlike_next h
  · exact h

/-- Alike streaks are due to record the same. -/
private theorem dueVoteEvent_alike (environmentId : String) (now : Int)
    (vote : String × SignalState) (h : Option.Rel SignalAlike v w) :
    dueVoteEvent environmentId now vote v = dueVoteEvent environmentId now vote w := by
  cases h with
  | none => rfl
  | @some v w h => simp only [dueVoteEvent, Option.bind_some, dueSignalEvent_eq, h.due]

/-- Seeing the last health and build once more changes nothing when no change is due. -/
private theorem healthAlike_again {s : PublishState} (hone : 1 ≤ s.consecutive)
    (hlast : s.lastHealth = health.asStr) (hbuild : s.lastBuild = build)
    (hdue : ¬HealthDue health s) :
    HealthAlike s (nextPublishState health build (some s)) := by
  have hstreak : (healthStreak s).last = health.asStr := hlast
  have hnone : (healthStreak s).dueReport announcedText (healthStreak s).last = none := by
    have hevent := mt (isSome_dueHealthEvent_iff "" health 0 s).mp hdue
    rw [Option.not_isSome_iff_eq_none, dueHealthEvent_eq, Option.map_eq_none_iff] at hevent
    rw [hstreak]
    exact hevent
  have halike : Streak.Alike announcedText (healthStreak s)
      ((healthStreak s).advance (healthStreak s).last) := Streak.alike_advance_last hone hnone
  rw [hstreak] at halike
  exact ⟨halike, hbuild⟩

/-- Seeing the last state once more changes nothing when no change is due. -/
private theorem signalAlike_again {s : SignalPublishState} (hone : 1 ≤ s.consecutive)
    (hlast : s.lastState = state.asStr) (hskip : state ≠ .skipped)
    (hdue : ¬SignalDue state (some s)) :
    SignalAlike s (nextSignalPublishState state (some s)) := by
  have hstreak : (signalStreak s).last = state.asStr := hlast
  have hnone : (signalStreak s).dueReport (fun _ _ ↦ true) (signalStreak s).last = none := by
    have hevent := mt (isSome_dueVoteEvent_iff "" 0 ("", state) (some s)).mp hdue
    rw [Option.not_isSome_iff_eq_none, dueVoteEvent, if_neg hskip, Option.bind_some,
      dueSignalEvent_eq, Option.map_eq_none_iff] at hevent
    rw [hstreak]
    exact hevent
  have halike : Streak.Alike (fun _ _ ↦ true) (signalStreak s)
      ((signalStreak s).advance (signalStreak s).last) := Streak.alike_advance_last hone hnone
  rw [hstreak] at halike
  exact halike

end Steps

/-- The two databases hold the same snapshots and streaks that record alike. -/
structure RecordsAlike (x o : Db) : Prop where
  snapshots : x.signalSnapshots = o.signalSnapshots
  health : ∀ id, Option.Rel HealthAlike (x.dashboardPublishState id) (o.dashboardPublishState id)
  signals : ∀ key, Option.Rel SignalAlike (x.signalPublishState key) (o.signalPublishState key)

/-- Every stored event is older than `time`. -/
def EventsBefore (time : Int) (db : Db) : Prop :=
  (∀ e ∈ db.healthEvents, e.observedAt < time) ∧ ∀ e ∈ db.signalEvents, e.observedAt < time

/-- No Environment in the list, and no Signal of it, waits for a second sighting of a change. -/
def NothingPending (fromStr : FromStr) (environments : List EnvironmentConfig) (db : Db) : Prop :=
  ∀ e ∈ environments,
    (∀ s ∈ db.dashboardPublishState e.id,
      ¬HealthDue (verdict fromStr (loadAllSignalSnapshots db) e.id).health s) ∧
    ∀ vote ∈ (verdict fromStr (loadAllSignalSnapshots db) e.id).votes,
      ¬SignalDue vote.2 (db.signalPublishState (e.id, vote.1))

instance (health : EnvironmentHealth) (state : PublishState) : Decidable (HealthDue health state) :=
  decidable_of_iff _ (isSome_dueHealthEvent_iff "" health 0 state)

instance (state : SignalState) (stored : Option SignalPublishState) :
    Decidable (SignalDue state stored) :=
  decidable_of_iff _ (isSome_dueVoteEvent_iff "" 0 ("", state) stored)

instance (fromStr : FromStr) (environments : List EnvironmentConfig) (db : Db) :
    Decidable (NothingPending fromStr environments db) := by
  unfold NothingPending
  infer_instance

/-- The streaks are as a publish of the stored snapshots leaves them. -/
structure Published (fromStr : FromStr) (environments : List EnvironmentConfig) (db : Db) :
    Prop where
  health : ∀ e ∈ environments, ∃ s, db.dashboardPublishState e.id = some s ∧
    s.lastHealth = (verdict fromStr (loadAllSignalSnapshots db) e.id).health.asStr ∧
    s.lastBuild = (verdict fromStr (loadAllSignalSnapshots db) e.id).build
  signals : ∀ e ∈ environments,
    ∀ vote ∈ (verdict fromStr (loadAllSignalSnapshots db) e.id).votes, vote.2 ≠ .skipped →
      ∃ s, db.signalPublishState (e.id, vote.1) = some s ∧ s.lastState = vote.2.asStr

section Publish

variable {fromStr : FromStr} {environments : List EnvironmentConfig} {now : Int} {poll : Nat}
  {db x o : Db}

theorem EventsBefore.health_fresh (h : EventsBefore now db) (environmentId : String) :
    HealthEventsFresh environmentId now db := by
  intro e he _ hat
  have := h.1 e he
  omega

theorem EventsBefore.signal_fresh (h : EventsBefore now db) (environmentId : String) :
    SignalEventsFresh environmentId now db := by
  intro e he _ hat
  have := h.2 e he
  omega

/-- A publish leaves events no younger than itself. -/
private theorem eventsBefore_publishDashboard {time : Int}
    (hkeyed : SnapshotsKeyed db.signalSnapshots) (hlt : now < time) (h : EventsBefore now db) :
    EventsBefore time ((publishDashboard fromStr environments now poll).run db) := by
  have haway : ∀ environmentId t, time ≤ t → ∀ c ∈ (publishDashboard fromStr environments now
      poll).trace db, RecordsAwayFrom environmentId t c := fun environmentId t ht ↦
    recordsAwayFrom_publishDashboard fromStr environments now poll db hkeyed environmentId
      (by omega)
  constructor
  · intro e he
    by_contra hge
    refine healthEventsFresh_commitAll _ db (haway e.environmentId e.observedAt (not_lt.mp hge))
      (fun d hd _ hat ↦ ?_) e he rfl rfl
    have := h.1 d hd
    omega
  · intro e he
    by_contra hge
    refine signalEventsFresh_commitAll _ db (haway e.environmentId e.observedAt (not_lt.mp hge))
      (fun d hd _ hat ↦ ?_) e he rfl rfl
    have := h.2 d hd
    omega

/-- Publishing both databases records the same and keeps them alike. -/
private theorem recordsAlike_publishDashboard
    (hids : (environments.map EnvironmentConfig.id).Nodup)
    (hkeyed : SnapshotsKeyed o.signalSnapshots) (h : RecordsAlike x o)
    (hx : EventsBefore now x) (ho : EventsBefore now o) :
    observed recordedHealthEvents ((publishDashboard fromStr environments now poll).trace x) x =
      observed recordedHealthEvents ((publishDashboard fromStr environments now poll).trace o) o ∧
    observed recordedSignalEvents ((publishDashboard fromStr environments now poll).trace x) x =
      observed recordedSignalEvents ((publishDashboard fromStr environments now poll).trace o) o ∧
    RecordsAlike ((publishDashboard fromStr environments now poll).run x)
      ((publishDashboard fromStr environments now poll).run o) := by
  have hkeyed' : SnapshotsKeyed x.signalSnapshots := h.snapshots ▸ hkeyed
  have hload : loadAllSignalSnapshots x = loadAllSignalSnapshots o := by
    rw [loadAllSignalSnapshots, h.snapshots, loadAllSignalSnapshots]
  refine ⟨?_, ?_, ⟨?_, fun id ↦ ?_, fun key ↦ ?_⟩⟩
  · rw [observedHealth_publishDashboard _ _ _ _ _ hids hkeyed' fun e _ ↦ hx.health_fresh e.id,
      observedHealth_publishDashboard _ _ _ _ _ hids hkeyed fun e _ ↦ ho.health_fresh e.id, hload]
    exact List.flatMap_congr fun e _ ↦ dueEvents_alike e.id now (h.health e.id)
  · rw [observedSignal_publishDashboard _ _ _ _ _ hids hkeyed' fun e _ ↦ hx.signal_fresh e.id,
      observedSignal_publishDashboard _ _ _ _ _ hids hkeyed fun e _ ↦ ho.signal_fresh e.id, hload]
    exact List.flatMap_congr fun e _ ↦ List.filterMap_congr fun vote _ ↦
      dueVoteEvent_alike e.id now vote (h.signals (e.id, vote.1))
  · rw [signalSnapshots_publishDashboard,
      signalSnapshots_publishDashboard, h.snapshots]
  · rw [publishState_publishDashboard _ _ _ _ _ hids hkeyed',
      publishState_publishDashboard _ _ _ _ _ hids hkeyed, hload]
    split
    · exact healthAlike_next (h.health id)
    · exact h.health id
  · rw [signalPublishState_publishDashboard _ _ _ _ _ hids hkeyed',
      signalPublishState_publishDashboard _ _ _ _ _ hids hkeyed, hload]
    split
    · exact signalAlike_nextVoteState _ _ (h.signals key)
    · exact h.signals key

/-- A vote is found under its Signal. -/
private theorem lookup_of_mem {votes : List (String × SignalState)} {vote : String × SignalState}
    (hnodup : (votes.map Prod.fst).Nodup) (h : vote ∈ votes) :
    votes.lookup vote.1 = some vote.2 := by
  induction votes with
  | nil => cases h
  | cons v votes ih =>
    obtain ⟨hv, hnodup⟩ := List.nodup_cons.mp hnodup
    rcases List.mem_cons.mp h with rfl | h
    · rw [List.lookup_cons, beq_self_eq_true]
    · have hne : vote.1 ≠ v.1 := fun he ↦ hv (he ▸ List.mem_map_of_mem h)
      have hbeq : (vote.1 == v.1) = false := by simpa using hne
      rw [List.lookup_cons, hbeq]
      exact ih hnodup h

/-- A publish leaves the streaks at what it published. -/
private theorem published_publishDashboard (hids : (environments.map EnvironmentConfig.id).Nodup)
    (hkeyed : SnapshotsKeyed db.signalSnapshots) :
    Published fromStr environments ((publishDashboard fromStr environments now poll).run db) := by
  have hload : loadAllSignalSnapshots ((publishDashboard fromStr environments now poll).run db) =
      loadAllSignalSnapshots db := by
    rw [loadAllSignalSnapshots, signalSnapshots_publishDashboard,
      loadAllSignalSnapshots]
  constructor
  · intro e he
    rw [hload, publishState_publishDashboard _ _ _ _ _ hids hkeyed,
      if_pos (List.mem_map_of_mem he)]
    refine ⟨_, rfl, ?_, rfl⟩
    cases db.dashboardPublishState e.id with
    | none => rfl
    | some s => exact Streak.last_advance _ _
  · intro e he vote hvote hskip
    rw [hload] at hvote
    have hnodup := nodup_votes fromStr (snapshotsKeyed_load hkeyed) e.id
    rw [signalPublishState_publishDashboard _ _ _ _ _ hids hkeyed,
      if_pos (List.mem_map_of_mem he), nextVoteState, lookup_of_mem hnodup hvote]
    refine ⟨nextSignalPublishState vote.2 (db.signalPublishState (e.id, vote.1)),
      if_neg hskip, ?_⟩
    cases db.signalPublishState (e.id, vote.1) with
    | none => rfl
    | some s => exact Streak.last_advance _ _

/-- Over published streaks a republish records nothing exactly when nothing is pending. -/
private theorem records_nothing_iff (hids : (environments.map EnvironmentConfig.id).Nodup)
    (hkeyed : SnapshotsKeyed db.signalSnapshots) (hbefore : EventsBefore now db)
    (hpub : Published fromStr environments db) :
    (observed recordedHealthEvents ((publishDashboard fromStr environments now poll).trace db)
        db = [] ∧
      observed recordedSignalEvents ((publishDashboard fromStr environments now poll).trace db)
        db = []) ↔ NothingPending fromStr environments db := by
  rw [observedHealth_publishDashboard _ _ _ _ _ hids hkeyed fun e _ ↦ hbefore.health_fresh e.id,
    observedSignal_publishDashboard _ _ _ _ _ hids hkeyed fun e _ ↦ hbefore.signal_fresh e.id,
    List.flatMap_eq_nil_iff, List.flatMap_eq_nil_iff, ← forall₂_and, NothingPending]
  apply forall₂_congr
  intro e he
  apply and_congr
  · obtain ⟨s, hs, -, hbuild⟩ := hpub.health e he
    rw [hs, dueEvents, dueBuildEvent, if_pos hbuild.symm, Option.toList_none, List.append_nil,
      Option.toList_eq_nil_iff, ← Option.not_isSome_iff_eq_none, isSome_dueHealthEvent_iff]
    simp only [Option.mem_def, Option.some.injEq, forall_eq']
  · rw [List.filterMap_eq_nil_iff]
    apply forall₂_congr
    intro vote _
    rw [← isSome_dueVoteEvent_iff e.id now, Option.not_isSome_iff_eq_none]

private theorem exists_of_rel_some {α β : Type} {r : α → β → Prop} {a : Option α} {b : β}
    (h : Option.Rel r a (some b)) : ∃ c, a = some c ∧ r c b := by
  cases h with
  | some h => exact ⟨_, rfl, h⟩

/-- Over published streaks with nothing pending a republish only counts. -/
private theorem recordsAlike_republish (hids : (environments.map EnvironmentConfig.id).Nodup)
    (hkeyed : SnapshotsKeyed o.signalSnapshots) (h : RecordsAlike x o)
    (hpub : Published fromStr environments o) (hpending : NothingPending fromStr environments o) :
    RecordsAlike x ((publishDashboard fromStr environments now poll).run o) := by
  refine ⟨?_, fun id ↦ ?_, fun key ↦ ?_⟩
  · rw [signalSnapshots_publishDashboard, h.snapshots]
  · rw [publishState_publishDashboard _ _ _ _ _ hids hkeyed]
    split
    · next hid =>
      obtain ⟨e, he, rfl⟩ := List.mem_map.mp hid
      obtain ⟨s, hs, hlast, hbuild⟩ := hpub.health e he
      have hx := h.health e.id
      rw [hs] at hx ⊢
      obtain ⟨t, ht, halike, hbuilds⟩ := exists_of_rel_some hx
      have hagain := healthAlike_again halike.counts.2 hlast hbuild ((hpending e he).1 s hs)
      rw [ht]
      exact Option.Rel.some ⟨halike.trans hagain.1, hbuilds.trans hagain.2⟩
    · exact h.health id
  · rw [signalPublishState_publishDashboard _ _ _ _ _ hids hkeyed]
    obtain ⟨env, id⟩ := key
    split
    · next hid =>
      obtain ⟨e, he, rfl⟩ := List.mem_map.mp hid
      unfold nextVoteState
      split
      · next state hlook =>
        split
        · exact h.signals _
        · next hskip =>
          obtain ⟨l₁, l₂, hvotes, -⟩ := List.lookup_eq_some_iff.mp hlook
          have hvote : (id, state) ∈
              (verdict fromStr (loadAllSignalSnapshots o) e.id).votes := by
            rw [hvotes]
            simp
          obtain ⟨s, hs, hlast⟩ := hpub.signals e he _ hvote hskip
          have hdue := (hpending e he).2 _ hvote
          have hx := h.signals (e.id, id)
          simp only at hs hdue
          rw [hs] at hx hdue ⊢
          obtain ⟨t, ht, halike⟩ := exists_of_rel_some hx
          have hagain := signalAlike_again halike.counts.2 hlast hskip hdue
          rw [ht]
          exact Option.Rel.some (Streak.Alike.trans halike hagain)
      · exact h.signals _
    · exact h.signals _

end Publish

/-- A turn of the loop, and the times at which the daemon then starts again and publishes what
is stored. -/
structure Round extends Turn where
  republishes : List Int

/-- Publish times of a round, in order. -/
def Round.times (r : Round) : List Int := r.now :: r.republishes

section Rounds

variable (fromStr : FromStr) (toText : ToText) (poll : Nat)

/-- A round without its restarts. -/
def Round.once (r : Round) : DbProg Unit := r.toTurn.program fromStr toText poll

/-- A round with its restarts. -/
def Round.again (r : Round) : DbProg Unit := do
  r.once fromStr toText poll
  each r.republishes (publish fromStr poll r.environments)

/-- Nothing is pending at any of the republishes that follow. -/
def RepublishesSettled (environments : List EnvironmentConfig) : List Int → Db → Prop
  | [], _ => True
  | t :: ts, db => NothingPending fromStr environments db ∧
      RepublishesSettled environments ts ((publish fromStr poll environments t).run db)

/-- Nothing is pending at any republish of the run. -/
def RoundsSettled : List Round → Db → Prop
  | [], _ => True
  | r :: rs, db =>
    RepublishesSettled fromStr poll r.environments r.republishes
        ((r.once fromStr toText poll).run db) ∧
      RoundsSettled rs ((r.again fromStr toText poll).run db)

instance decidableRepublishesSettled (environments : List EnvironmentConfig) :
    (ts : List Int) → (db : Db) → Decidable (RepublishesSettled fromStr poll environments ts db)
  | [], _ => instDecidableTrue
  | t :: ts, db =>
    have := decidableRepublishesSettled environments ts
      ((publish fromStr poll environments t).run db)
    inferInstanceAs (Decidable (_ ∧ _))

instance decidableRoundsSettled :
    (rounds : List Round) → (db : Db) → Decidable (RoundsSettled fromStr toText poll rounds db)
  | [], _ => instDecidableTrue
  | r :: rs, db =>
    have := decidableRoundsSettled rs ((r.again fromStr toText poll).run db)
    inferInstanceAs (Decidable (_ ∧ _))

end Rounds

/-- The health, build and Signal events a program records. -/
def recordedBy {α : Type} (p : DbProg α) (db : Db) : List HealthEvent × List SignalEvent :=
  (observed recordedHealthEvents (p.trace db) db, observed recordedSignalEvents (p.trace db) db)

private theorem recordedBy_bind {α β : Type} (p : DbProg α) (f : α → DbProg β) (db : Db) :
    recordedBy (p >>= f) db =
      ((recordedBy p db).1 ++ (recordedBy (f (p.result db)) (p.run db)).1,
        (recordedBy p db).2 ++ (recordedBy (f (p.result db)) (p.run db)).2) := by
  simp only [recordedBy, trace_bind, observed_append]
  rfl

/-- What every state of a run meets: one snapshot for each Signal, and events older than the
publishes that follow. -/
def Sound (upcoming : List Int) (db : Db) : Prop :=
  SnapshotsKeyed db.signalSnapshots ∧ ∀ t ∈ upcoming, EventsBefore t db

section Runs

variable {fromStr : FromStr} {toText : ToText} {poll : Nat} {environments : List EnvironmentConfig}
  {now : Int} {upcoming : List Int} {db x o : Db}

private theorem recordedBy_publish (db : Db) :
    recordedBy (publish fromStr poll environments now) db =
      recordedBy (publishDashboard fromStr environments now poll) db := by
  rw [recordedBy, trace_publish]
  rfl

private theorem sound_tick (runs : List CollectorRun) (h : Sound upcoming db) :
    Sound upcoming ((tick fromStr toText runs).run db) := by
  have honly := only_tick fromStr toText runs
  constructor
  · exact nodup_signalSnapshots_commitAll _ h.1
  · intro t ht
    rw [EventsBefore,
      honly.frame Db.healthEvents fun c hc t ↦ (commit_writesObservations hc t).2.2.1,
      honly.frame Db.signalEvents fun c hc t ↦ (commit_writesObservations hc t).2.2.2.1]
    exact h.2 t ht

private theorem sound_publish (h : Sound (now :: upcoming) db)
    (htimes : (now :: upcoming).Pairwise (· < ·)) :
    Sound upcoming ((publish fromStr poll environments now).run db) := by
  obtain ⟨hlater, -⟩ := List.pairwise_cons.mp htimes
  rw [run_publish]
  constructor
  · rw [signalSnapshots_publishDashboard]
    exact h.1
  · intro t ht
    exact eventsBefore_publishDashboard h.1 (hlater t ht) (h.2 now List.mem_cons_self)

private theorem recordedBy_tick (runs : List CollectorRun) (db : Db) :
    recordedBy (tick fromStr toText runs) db = ([], []) := by
  have honly := only_tick fromStr toText runs
  have hnone : ∀ c, WritesObservations c → ∀ t : Db,
      recordedHealthEvents c t = [] ∧ recordedSignalEvents c t = [] := by
    intro c hc t
    cases c with
    | upsertSignalSnapshot | insertSignalSample | deleteSignalSamplesBefore => exact ⟨rfl, rfl⟩
    | _ => cases hc
  rw [recordedBy, honly.observed_eq_nil recordedHealthEvents fun c hc t ↦ (hnone c hc t).1,
    honly.observed_eq_nil recordedSignalEvents fun c hc t ↦ (hnone c hc t).2]

private theorem recordsAlike_tick (runs : List CollectorRun) (h : RecordsAlike x o) :
    RecordsAlike ((tick fromStr toText runs).run x) ((tick fromStr toText runs).run o) := by
  have honly := only_tick fromStr toText runs
  have hhealth := honly.frame Db.dashboardPublishState
    fun c hc t ↦ (commit_writesObservations hc t).1
  have hsignals := honly.frame Db.signalPublishState
    fun c hc t ↦ (commit_writesObservations hc t).2.1
  refine ⟨(readsThrough_tick fromStr toText runs).run_view acts_signalSnapshots h.snapshots,
    fun id ↦ ?_, fun key ↦ ?_⟩
  · rw [hhealth, hhealth]
    exact h.health id
  · rw [hsignals, hsignals]
    exact h.signals key

/-- Republishing any number of times keeps the run sound and its streaks as published. -/
private theorem sound_republishes (ts : List Int) (h : Sound (ts ++ upcoming) db)
    (hids : (environments.map EnvironmentConfig.id).Nodup)
    (hpub : Published fromStr environments db) (htimes : (ts ++ upcoming).Pairwise (· < ·)) :
    Sound upcoming ((each ts (publish fromStr poll environments)).run db) ∧
      Published fromStr environments ((each ts (publish fromStr poll environments)).run db) := by
  induction ts generalizing db with
  | nil => exact ⟨h, hpub⟩
  | cons t ts ih =>
    rw [run_each_cons]
    refine ih (sound_publish h htimes) ?_ (List.pairwise_cons.mp htimes).2
    rw [run_publish]
    exact published_publishDashboard hids h.1

/-- Republishing with nothing pending records nothing and keeps the two runs alike. -/
private theorem recordsAlike_republishes (ts : List Int) (h : Sound (ts ++ upcoming) o)
    (hxo : RecordsAlike x o) (hids : (environments.map EnvironmentConfig.id).Nodup)
    (hpub : Published fromStr environments o) (htimes : (ts ++ upcoming).Pairwise (· < ·))
    (hsettled : RepublishesSettled fromStr poll environments ts o) :
    recordedBy (each ts (publish fromStr poll environments)) o = ([], []) ∧
      RecordsAlike x ((each ts (publish fromStr poll environments)).run o) := by
  induction ts generalizing o with
  | nil => exact ⟨rfl, hxo⟩
  | cons t ts ih =>
    obtain ⟨hrest, halike⟩ := ih (o := (publish fromStr poll environments t).run o)
      (sound_publish h htimes)
      (by rw [run_publish]; exact recordsAlike_republish hids h.1 hxo hpub hsettled.1)
      (by rw [run_publish]; exact published_publishDashboard hids h.1)
      (List.pairwise_cons.mp htimes).2 hsettled.2
    refine ⟨?_, by rw [run_each_cons]; exact halike⟩
    have hfirst : recordedBy (publish fromStr poll environments t) o = ([], []) := by
      rw [recordedBy_publish, recordedBy, Prod.mk.injEq]
      exact (records_nothing_iff hids h.1 (h.2 t List.mem_cons_self) hpub).mpr hsettled.1
    change recordedBy (publish fromStr poll environments t >>= fun _ ↦
      each ts (publish fromStr poll environments)) o = ([], [])
    rw [recordedBy_bind, hfirst, hrest]
    rfl

private theorem run_again (r : Round) (db : Db) : (r.again fromStr toText poll).run db =
    (each r.republishes (publish fromStr poll r.environments)).run
      ((r.once fromStr toText poll).run db) := by
  rw [Round.again, run_bind]

/-- The tick and the publish of a round leave a sound run with published streaks. -/
private theorem sound_once (r : Round) (h : Sound (r.now :: upcoming) db)
    (hids : (r.environments.map EnvironmentConfig.id).Nodup)
    (htimes : (r.now :: upcoming).Pairwise (· < ·)) :
    Sound upcoming ((r.once fromStr toText poll).run db) ∧
      Published fromStr r.environments ((r.once fromStr toText poll).run db) := by
  have htick : Sound (r.now :: upcoming) ((tick fromStr toText r.runs).run db) :=
    sound_tick r.runs h
  rw [Round.once, run_turn]
  refine ⟨sound_publish htick htimes, ?_⟩
  rw [run_publish]
  exact published_publishDashboard hids htick.1

/-- So does a round with its restarts. -/
private theorem sound_again (r : Round) (h : Sound (r.times ++ upcoming) db)
    (hids : (r.environments.map EnvironmentConfig.id).Nodup)
    (htimes : (r.times ++ upcoming).Pairwise (· < ·)) :
    Sound upcoming ((r.again fromStr toText poll).run db) ∧
      Published fromStr r.environments ((r.again fromStr toText poll).run db) := by
  have honce : Sound (r.republishes ++ upcoming) ((r.once fromStr toText poll).run db) ∧
      Published fromStr r.environments ((r.once fromStr toText poll).run db) :=
    sound_once r h hids htimes
  rw [run_again]
  exact sound_republishes r.republishes honce.1 hids honce.2 (List.pairwise_cons.mp htimes).2

/-- Rounds keep a run sound. -/
private theorem sound_rounds (rounds : List Round)
    (h : Sound (rounds.flatMap Round.times ++ upcoming) db)
    (hids : ∀ r ∈ rounds, (r.environments.map EnvironmentConfig.id).Nodup)
    (htimes : (rounds.flatMap Round.times ++ upcoming).Pairwise (· < ·)) :
    Sound upcoming ((each rounds (Round.again fromStr toText poll)).run db) := by
  induction rounds generalizing db with
  | nil => exact h
  | cons r rounds ih =>
    rw [List.flatMap_cons, List.append_assoc] at h htimes
    rw [run_each_cons]
    exact ih (sound_again r h (hids r List.mem_cons_self) htimes).1
      (fun r' hr' ↦ hids r' (List.mem_cons_of_mem _ hr')) (List.pairwise_append.mp htimes).2.1

/-- A tick and its publish record the same over alike databases and keep them alike. -/
private theorem recordsAlike_once (r : Round) (hx : Sound (r.now :: upcoming) x)
    (ho : Sound (r.now :: upcoming) o) (hxo : RecordsAlike x o)
    (hids : (r.environments.map EnvironmentConfig.id).Nodup) :
    recordedBy (r.once fromStr toText poll) x = recordedBy (r.once fromStr toText poll) o ∧
      RecordsAlike ((r.once fromStr toText poll).run x) ((r.once fromStr toText poll).run o) := by
  have hx' : Sound (r.now :: upcoming) ((tick fromStr toText r.runs).run x) := sound_tick r.runs hx
  have ho' : Sound (r.now :: upcoming) ((tick fromStr toText r.runs).run o) := sound_tick r.runs ho
  obtain ⟨hhealth, hsignals, halike⟩ := recordsAlike_publishDashboard hids ho'.1
    (recordsAlike_tick r.runs hxo) (hx'.2 r.now List.mem_cons_self)
    (ho'.2 r.now List.mem_cons_self)
  have hfirst : ∀ db, recordedBy (r.once fromStr toText poll) db =
      recordedBy (publishDashboard fromStr r.environments r.now poll)
        ((tick fromStr toText r.runs).run db) := by
    intro db
    rw [Round.once, Turn.program, recordedBy_bind, recordedBy_tick, recordedBy_publish]
    rfl
  refine ⟨?_, ?_⟩
  · rw [hfirst, hfirst]
    exact Prod.ext hhealth hsignals
  · rw [Round.once, run_turn, run_turn, run_publish, run_publish]
    exact halike

/-- Rounds whose republishes all find nothing pending record what they record without them. -/
private theorem recordedBy_rounds (rounds : List Round) (hx : Sound (rounds.flatMap Round.times) x)
    (ho : Sound (rounds.flatMap Round.times) o) (hxo : RecordsAlike x o)
    (hids : ∀ r ∈ rounds, (r.environments.map EnvironmentConfig.id).Nodup)
    (htimes : (rounds.flatMap Round.times).Pairwise (· < ·))
    (hsettled : RoundsSettled fromStr toText poll rounds o) :
    recordedBy (each rounds (Round.once fromStr toText poll)) x =
      recordedBy (each rounds (Round.again fromStr toText poll)) o := by
  induction rounds generalizing x o with
  | nil => rfl
  | cons r rounds ih =>
    rw [List.flatMap_cons] at hx ho htimes
    have hid := hids r List.mem_cons_self
    obtain ⟨hsame, halike⟩ := recordsAlike_once r hx ho hxo hid
    obtain ⟨hsound, hpub⟩ := sound_once r ho hid htimes
    obtain ⟨hnone, hagain⟩ := recordsAlike_republishes r.republishes hsound halike hid hpub
      (List.pairwise_cons.mp htimes).2 hsettled.1
    have hround : recordedBy (r.again fromStr toText poll) o =
        recordedBy (r.once fromStr toText poll) x := by
      rw [Round.again, recordedBy_bind, hnone, hsame, List.append_nil, List.append_nil]
    have hrest := ih (x := (r.once fromStr toText poll).run x)
      (o := (r.again fromStr toText poll).run o)
      ⟨(sound_once r hx hid htimes).1.1, fun t ht ↦
        (sound_once r hx hid htimes).1.2 t (List.mem_append_right _ ht)⟩
      (sound_again r ho hid htimes).1 (by rw [run_again]; exact hagain)
      (fun r' hr' ↦ hids r' (List.mem_cons_of_mem _ hr')) (List.pairwise_append.mp htimes).2.1
      hsettled.2
    change recordedBy (r.once fromStr toText poll >>= fun _ ↦
        each rounds (Round.once fromStr toText poll)) x =
      recordedBy (r.again fromStr toText poll >>= fun _ ↦
        each rounds (Round.again fromStr toText poll)) o
    rw [recordedBy_bind, recordedBy_bind, hround, hrest]

end Runs

/-- In every database a run reaches, a republish at a later time records nothing exactly when no
Environment or Signal has a change that was published once and waits for its second sighting;
and a run whose republishes all find nothing pending records the events of the run without
them. -/
theorem republish_idempotent (fromStr : FromStr) (toText : ToText) (poll : Nat)
    (rounds : List Round)
    (hids : ∀ r ∈ rounds, (r.environments.map EnvironmentConfig.id).Nodup)
    (htimes : (rounds.flatMap Round.times).Pairwise (· < ·)) :
    (∀ r ∈ rounds.getLast?, ∀ now, (∀ t ∈ rounds.flatMap Round.times, t < now) →
      (recordedBy (publish fromStr poll r.environments now)
          ((each rounds (Round.again fromStr toText poll)).run .empty) = ([], []) ↔
        NothingPending fromStr r.environments
          ((each rounds (Round.again fromStr toText poll)).run .empty))) ∧
    (RoundsSettled fromStr toText poll rounds .empty →
      recordedBy (each rounds (Round.again fromStr toText poll)) .empty =
        recordedBy (each rounds (Round.once fromStr toText poll)) .empty) := by
  have hempty : ∀ upcoming, Sound upcoming Db.empty := fun upcoming ↦
    ⟨List.nodup_nil, fun t _ ↦ ⟨fun e he ↦ absurd he List.not_mem_nil,
      fun e he ↦ absurd he List.not_mem_nil⟩⟩
  refine ⟨fun r hr now hnow ↦ ?_, fun hsettled ↦ ?_⟩
  · obtain ⟨earlier, rfl⟩ := List.getLast?_eq_some_iff.mp hr
    have hlast : r ∈ earlier ++ [r] := List.mem_append_right _ List.mem_cons_self
    have hall : ((earlier ++ [r]).flatMap Round.times ++ [now]).Pairwise (· < ·) :=
      List.pairwise_append.mpr ⟨htimes, List.pairwise_singleton _ _, fun t ht u hu ↦
        List.mem_singleton.mp hu ▸ hnow t ht⟩
    rw [List.flatMap_append, List.flatMap_singleton, List.append_assoc] at hall
    have hearlier : Sound (r.times ++ [now])
        ((each earlier (Round.again fromStr toText poll)).run .empty) :=
      sound_rounds earlier (hempty _) (fun r' hr' ↦ hids r' (List.mem_append_left _ hr')) hall
    have hdb : (each (earlier ++ [r]) (Round.again fromStr toText poll)).run .empty =
        (r.again fromStr toText poll).run
          ((each earlier (Round.again fromStr toText poll)).run .empty) := by
      rw [run_each_append, run_each_cons]
      rfl
    obtain ⟨hsound, hpub⟩ := sound_again r hearlier (hids r hlast)
      (List.pairwise_append.mp hall).2.1
    rw [hdb, recordedBy_publish, recordedBy, Prod.mk.injEq]
    exact records_nothing_iff (hids r hlast) hsound.1 (hsound.2 now List.mem_cons_self) hpub
  · exact (recordedBy_rounds rounds (hempty _) (hempty _) ⟨rfl, fun _ ↦ .none, fun _ ↦ .none⟩
      hids htimes hsettled).symm

/-- One poll of the HTTP Environment, its publish and the restarts that follow. -/
def shopPoll (state : SignalState) (now : Int) (republishes : List Int) : Round where
  runs := [.perEnvironment ⟨httpProbeSignalId, false, false⟩ [shop] now fun _ ↦
    .ok ⟨state, .object [], none⟩]
  environments := [shop]
  now := now
  republishes := republishes

/-- A change published once is confirmed by the restart that follows it. -/
theorem republish_confirms_single_poll :
    recordedBy (each [shopPoll .healthy 0 [], shopPoll .degraded 60 [90]]
        (Round.once emptyObjectFromStr (fun _ ↦ "{}") 60)) .empty = ([], []) ∧
      recordedBy (each [shopPoll .healthy 0 [], shopPoll .degraded 60 [90]]
        (Round.again emptyObjectFromStr (fun _ ↦ "{}") 60)) .empty =
        ([healthChangeEvent "shop" .degraded 90 "healthy"],
          [⟨"shop", httpProbeSignalId, 90, some "healthy", "degraded"⟩]) := by
  decide

/-- Restarts before and after a confirmed change leave its events alone. -/
theorem republish_around_confirmed_change :
    let rounds := [shopPoll .healthy 0 [30], shopPoll .degraded 60 [], shopPoll .degraded 120 [150]]
    recordedBy (publish emptyObjectFromStr 60 [shop] 180)
        ((each rounds (Round.again emptyObjectFromStr (fun _ ↦ "{}") 60)).run .empty) = ([], []) ∧
      recordedBy (each rounds (Round.again emptyObjectFromStr (fun _ ↦ "{}") 60)) .empty =
        recordedBy (each rounds (Round.once emptyObjectFromStr (fun _ ↦ "{}") 60)) .empty := by
  intro rounds
  have h := republish_idempotent emptyObjectFromStr (fun _ ↦ "{}") 60 rounds (by decide) (by decide)
  exact ⟨(h.1 _ rfl 180 (by decide)).mpr (by decide), h.2 (by decide)⟩

end Daku.Health
