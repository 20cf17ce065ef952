import Daku.Health.Recorded
import Mathlib.Data.List.Chain

/-!
# Health events against the confirmed health

A publish sequence of one Environment has a confirmed health: the first published value, until
a different one is published twice in a row. `health.rs:387–389` announces a confirmed change
as a health event, and `PublishState` remembers the value before the current streak as its
`from`. The recorded events are compared with the confirmed changes.
-/

namespace Daku.Health

open Daku.Base Daku.Base.Prog Daku.Protocol Daku.Store

/-- What one publish decided for the Environment, and when. -/
structure Publish where
  now : Int
  health : EnvironmentHealth
  build : Option String
  deriving DecidableEq, Repr

/-- A sequence of publishes of one Environment. -/
def publishAll (environmentId : String) (ps : List Publish) : DbProg Unit :=
  each ps fun p ↦ recordHealthAndBuildEvents environmentId p.health p.build p.now

/-- Rows of kind `health`. -/
def isHealthKind (event : HealthEvent) : Bool := event.kind = HealthEventKind.health.asStr

/-- The health events a sequence of publishes records. -/
def recordedHealth (environmentId : String) (ps : List Publish) (db : Db) : List HealthEvent :=
  (observed recordedHealthEvents ((publishAll environmentId ps).trace db) db).filter isHealthKind

/-- One health event for every reported change, at the publish that reports it. -/
def changeEvents (environmentId : String) :
    List Publish → List (Option EnvironmentHealth) → List HealthEvent
  | p :: ps, report :: reports =>
    (report.map fun previous ↦
      healthChangeEvent environmentId p.health p.now previous.asStr).toList ++
      changeEvents environmentId ps reports
  | _, _ => []

/-- The events a sequence of publishes should record: the changes of the confirmed health. -/
def confirmedChanges (environmentId : String) (ps : List Publish) : List HealthEvent :=
  changeEvents environmentId ps (Debounce.reportsAlong none (ps.map Publish.health))

/-- Consecutive events chain: each starts where the one before it ended. -/
def Chained (events : List HealthEvent) : Prop :=
  events.IsChain fun a b ↦ b.fromHealth = some a.toHealth

/-- The stored streak is that of a sequence of published values. -/
private def Tracks (stored : Option PublishState) (s : Option (Streak EnvironmentHealth)) : Prop :=
  stored.map healthStreak = s.map (Streak.map EnvironmentHealth.asStr)

private theorem tracks_next {stored : Option PublishState}
    {s : Option (Streak EnvironmentHealth)} (h : Tracks stored s) (health : EnvironmentHealth)
    (build : Option String) :
    Tracks (some (nextPublishState health build stored)) (some (Streak.next s health)) := by
  have hnext : healthStreak (nextPublishState health build stored) =
      Streak.next (stored.map healthStreak) health.asStr := rfl
  rw [Tracks, Option.map_some, Option.map_some, hnext, h]
  cases s with
  | none => rfl
  | some t =>
    exact congrArg some (Streak.map_advance EnvironmentHealth.asStr_injective t health).symm

/-- The values a streak remembers are real observations. -/
private def Observes (s : Option (Streak EnvironmentHealth)) : Prop :=
  ∀ t, s = some t → t.last ≠ .waiting ∧ t.previous ≠ some .waiting

private theorem observes_next {s : Option (Streak EnvironmentHealth)} {v : EnvironmentHealth}
    (hs : Observes s) (hv : v ≠ .waiting) : Observes (some (Streak.next s v)) := by
  rintro t ⟨⟩
  cases s with
  | none => exact ⟨hv, by simp [Streak.next, Streak.start]⟩
  | some t =>
    obtain ⟨hlast, hprev⟩ := hs t rfl
    refine ⟨by rw [Streak.next, Streak.last_advance]; exact hv, ?_⟩
    simp only [Streak.next, Streak.advance]
    split
    · exact hprev
    · simpa using hlast

/-- One publish records exactly what the counting machine reports. -/
private theorem filter_dueEvents {stored : Option PublishState}
    {s : Option (Streak EnvironmentHealth)} (environmentId : String) (p : Publish)
    (htracks : Tracks stored s) (hobs : Observes s) (hp : p.health ≠ .waiting) :
    (dueEvents environmentId p.health p.build p.now stored).filter isHealthKind =
      ((Streak.emits s p.health).map fun previous ↦
        healthChangeEvent environmentId p.health p.now previous.asStr).toList := by
  cases stored with
  | none =>
    cases s with
    | some t => simp [Tracks] at htracks
    | none =>
      simp only [dueEvents, Streak.emits]
      cases p.build with
      | none => rfl
      | some b => simp [isHealthKind, buildEvent]
  | some state =>
    cases s with
    | none => simp [Tracks] at htracks
    | some t =>
      have hstreak : healthStreak state = t.map EnvironmentHealth.asStr := by
        simpa [Tracks] using htracks
      have hbuild : (dueBuildEvent environmentId p.health p.build p.now state).toList.filter
          isHealthKind = [] := by
        rw [List.filter_eq_nil_iff]
        intro e he
        obtain ⟨b, rfl⟩ := of_dueBuildEvent (Option.mem_toList.mp he)
        simp [isHealthKind, buildEvent]
      have hhealth : dueHealthEvent environmentId p.health p.now state =
          (Streak.emits (some t) p.health).map fun previous ↦
            healthChangeEvent environmentId p.health p.now previous.asStr := by
        rw [dueHealthEvent, hstreak, Streak.reports_map EnvironmentHealth.asStr_injective]
        simp only [Streak.emits]
        cases hr : t.reports p.health with
        | none => rfl
        | some q =>
          have hq : q ≠ .waiting := by
            rintro rfl
            exact (hobs t rfl).2 ((Streak.reports_eq_some_iff _ _ _).mp hr).2.2.1
          have hann : announced p.health q.asStr = true := by
            rw [announced_iff]
            exact ⟨hp, fun h ↦ hq (EnvironmentHealth.asStr_injective h.1)⟩
          simp [Option.filter, hann]
      rw [dueEvents, List.filter_append, hbuild, List.append_nil, hhealth]
      cases Streak.emits (some t) p.health with
      | none => rfl
      | some q => simp [isHealthKind, healthChangeEvent]

/-- A sequence of publishes records what the counting machine reports on its values. -/
private theorem recordedHealth_eq (environmentId : String) (ps : List Publish) (db : Db)
    (s : Option (Streak EnvironmentHealth))
    (htracks : Tracks (db.dashboardPublishState environmentId) s) (hobs : Observes s)
    (hps : ∀ p ∈ ps, p.health ≠ .waiting) (htimes : ps.Pairwise fun p q ↦ p.now < q.now)
    (hkeys : ∀ p ∈ ps, HealthEventsFresh environmentId p.now db) :
    recordedHealth environmentId ps db =
      changeEvents environmentId ps (Streak.reportsAlong s (ps.map Publish.health)) := by
  induction ps generalizing db s with
  | nil => rfl
  | cons p ps ih =>
    obtain ⟨hlater, htimes⟩ := List.pairwise_cons.mp htimes
    have hp := hps p List.mem_cons_self
    have hstate :=
      publishState_recordHealthAndBuildEvents environmentId p.health p.build p.now db
    have hrest := ih ((recordHealthAndBuildEvents environmentId p.health p.build p.now).run db)
      (some (Streak.next s p.health))
      (by rw [hstate, Function.update_self]; exact tracks_next htracks _ _)
      (observes_next hobs hp) (fun q hq ↦ hps q (List.mem_cons_of_mem _ hq)) htimes
      (fun q hq ↦ healthEventsFresh_commitAll _ db
        (fun c hc ↦ by
          rcases mem_recordHealthAndBuildEvents hc with ⟨e, he, rfl⟩ | rfl | rfl | rfl
          · exact fun _ ↦ ne_of_eq_of_ne (of_mem_dueEvents he).2.1 (hlater q hq).ne
          all_goals trivial)
        (hkeys q (List.mem_cons_of_mem _ hq)))
    rw [recordedHealth, publishAll, trace_each_cons, observed_append, List.filter_append,
      observed_recordHealthAndBuildEvents _ _ _ (hkeys p List.mem_cons_self),
      filter_dueEvents environmentId p htracks hobs hp, List.map_cons, Streak.reportsAlong_cons,
      changeEvents]
    exact congrArg (_ ++ ·) hrest

private theorem observedAt_mem_changeEvents {environmentId : String} {ps : List Publish}
    {reports : List (Option EnvironmentHealth)} {e : HealthEvent}
    (h : e ∈ changeEvents environmentId ps reports) : ∃ p ∈ ps, e.observedAt = p.now := by
  induction ps generalizing reports with
  | nil => cases h
  | cons p ps ih =>
    cases reports with
    | nil => cases h
    | cons r reports =>
      rcases List.mem_append.mp h with h | h
      · obtain ⟨q, -, rfl⟩ := Option.map_eq_some_iff.mp (Option.mem_toList.mp h)
        exact ⟨p, List.mem_cons_self, rfl⟩
      · obtain ⟨q, hq, he⟩ := ih h
        exact ⟨q, List.mem_cons_of_mem _ hq, he⟩

/-- Publish times tell events apart: equal events come from equal reports. -/
private theorem changeEvents_inj {environmentId : String} {ps : List Publish}
    {rs ts : List (Option EnvironmentHealth)} (hrs : rs.length = ps.length)
    (hts : ts.length = ps.length) (htimes : ps.Pairwise fun p q ↦ p.now < q.now) :
    changeEvents environmentId ps rs = changeEvents environmentId ps ts ↔ rs = ts := by
  refine ⟨fun h ↦ ?_, fun h ↦ h ▸ rfl⟩
  induction ps generalizing rs ts with
  | nil => rw [List.length_eq_zero_iff.mp hrs, List.length_eq_zero_iff.mp hts]
  | cons p ps ih =>
    obtain ⟨hlater, htimes⟩ := List.pairwise_cons.mp htimes
    obtain ⟨r, rs, rfl⟩ := List.exists_cons_of_length_eq_add_one hrs
    obtain ⟨t, ts, rfl⟩ := List.exists_cons_of_length_eq_add_one hts
    have hrest : changeEvents environmentId ps rs = changeEvents environmentId ps ts → rs = ts :=
      ih (by simpa using hrs) (by simpa using hts) htimes
    have hforeign : ∀ {us : List (Option EnvironmentHealth)} {previous : EnvironmentHealth},
        healthChangeEvent environmentId p.health p.now previous.asStr ∉
          changeEvents environmentId ps us := by
      intro us previous hmem
      obtain ⟨q, hq, he⟩ := observedAt_mem_changeEvents hmem
      have := hlater q hq
      simp only [healthChangeEvent] at he
      omega
    cases r with
    | none =>
      cases t with
      | none => rw [hrest h]
      | some v =>
        have hmem : healthChangeEvent environmentId p.health p.now v.asStr ∈
            changeEvents environmentId ps rs := by
          simp only [changeEvents] at h
          exact (show changeEvents environmentId ps rs = _ from h) ▸ List.mem_cons_self
        exact absurd hmem hforeign
    | some u =>
      cases t with
      | none =>
        have hmem : healthChangeEvent environmentId p.health p.now u.asStr ∈
            changeEvents environmentId ps ts := by
          simp only [changeEvents] at h
          exact (show _ = changeEvents environmentId ps ts from h) ▸ List.mem_cons_self
        exact absurd hmem hforeign
      | some v =>
        obtain ⟨hhead, htail⟩ := List.cons.inj (show _ :: _ = _ :: _ from h)
        have huv : u = v := by simpa [healthChangeEvent] using hhead
        rw [huv, hrest htail]

private theorem length_reportsAlong (s : Option (Streak EnvironmentHealth))
    (vs : List EnvironmentHealth) : (Streak.reportsAlong s vs).length = vs.length := by
  induction vs generalizing s with
  | nil => rfl
  | cons v vs ih => simp [ih]

private theorem length_debounceReportsAlong (d : Option (Debounce EnvironmentHealth))
    (vs : List EnvironmentHealth) : (Debounce.reportsAlong d vs).length = vs.length := by
  induction vs generalizing d with
  | nil => rfl
  | cons v vs ih => simp [Debounce.reportsAlong, ih]

/-- Changes of the confirmed health chain, the first one starting at the confirmed value. -/
private theorem chained_changeEvents (environmentId : String) (ps : List Publish)
    (d : Option (Debounce EnvironmentHealth)) :
    Chained (changeEvents environmentId ps (Debounce.reportsAlong d (ps.map Publish.health))) ∧
      ∀ t, d = some t → ∀ e ∈ (changeEvents environmentId ps
        (Debounce.reportsAlong d (ps.map Publish.health))).head?,
          e.fromHealth = some t.confirmed.asStr := by
  induction ps generalizing d with
  | nil => exact ⟨List.IsChain.nil, by simp [changeEvents]⟩
  | cons p ps ih =>
    obtain ⟨hchain, hhead⟩ := ih (some (Debounce.next d p.health))
    have hfrom := hhead _ rfl
    simp only [List.map_cons, Debounce.reportsAlong, changeEvents]
    cases d with
    | none => exact ⟨hchain, fun t ht ↦ by cases ht⟩
    | some t =>
      have hconf := Debounce.confirmed_advance t p.health
      simp only [Debounce.emits, Debounce.next] at hconf hfrom hchain ⊢
      cases hr : t.reports p.health with
      | none =>
        rw [if_pos hr] at hconf
        rw [hconf] at hfrom
        refine ⟨hchain, ?_⟩
        rintro _ ⟨⟩ e he
        exact hfrom e he
      | some q =>
        rw [if_neg (by rw [hr]; simp)] at hconf
        rw [hconf] at hfrom
        obtain ⟨rfl, -, -⟩ := (Debounce.reports_eq_some_iff t _ _).mp hr
        refine ⟨hchain.cons hfrom, ?_⟩
        rintro _ ⟨⟩ e he
        obtain rfl : healthChangeEvent environmentId p.health p.now t.confirmed.asStr = e := by
          simpa using he
        rfl

/-- For every sequence of publishes of a fresh Environment, the recorded health events are the
changes of its confirmed health, and chain, exactly when every confirmed streak starts right
after the confirmed value. A flap between them breaks it: the remembered `from` is the flap. -/
theorem recordedHealth_eq_confirmedChanges_iff (environmentId : String) (ps : List Publish)
    (db : Db) (hfresh : db.dashboardPublishState environmentId = none)
    (hkeys : ∀ p ∈ ps, HealthEventsFresh environmentId p.now db)
    (htimes : ps.Pairwise fun p q ↦ p.now < q.now) (hobs : ∀ p ∈ ps, p.health ≠ .waiting) :
    (recordedHealth environmentId ps db = confirmedChanges environmentId ps ∧
        Chained (recordedHealth environmentId ps db)) ↔
      ConfirmedBeforeStreaks (ps.map Publish.health) := by
  have hrec := recordedHealth_eq environmentId ps db none (by rw [hfresh]; rfl)
    (fun t ht ↦ by cases ht) hobs htimes hkeys
  have heq : recordedHealth environmentId ps db = confirmedChanges environmentId ps ↔
      ConfirmedBeforeStreaks (ps.map Publish.health) := by
    rw [hrec, confirmedChanges, changeEvents_inj (by simp [length_reportsAlong])
      (by simp [length_debounceReportsAlong]) htimes, reportsAlong_eq_iff]
  rw [← heq]
  exact ⟨And.left, fun h ↦ ⟨h, h ▸ (chained_changeEvents environmentId ps none).1⟩⟩

/-- A confirmed outage and its confirmed recovery are recorded as such. -/
theorem recordedHealth_outage :
    let ps : List Publish := [⟨60, .healthy, none⟩, ⟨120, .down, none⟩, ⟨180, .down, none⟩,
      ⟨240, .healthy, none⟩, ⟨300, .healthy, none⟩]
    recordedHealth "prod" ps .empty = confirmedChanges "prod" ps ∧
      Chained (recordedHealth "prod" ps .empty) :=
  (recordedHealth_eq_confirmedChanges_iff "prod" _ .empty rfl
    (fun _ _ e he ↦ by cases he) (by decide) (by decide)).mpr (by decide)

/-- A one-publish excursion, followed by two publishes of the old value, is recorded as a
change to the old value. -/
theorem recordedHealth_flap :
    let ps : List Publish := [⟨60, .healthy, none⟩, ⟨120, .degraded, none⟩,
      ⟨180, .healthy, none⟩, ⟨240, .healthy, none⟩]
    confirmedChanges "prod" ps = [] ∧
      recordedHealth "prod" ps .empty = [healthChangeEvent "prod" .healthy 240 "degraded"] := by
  decide

end Daku.Health
