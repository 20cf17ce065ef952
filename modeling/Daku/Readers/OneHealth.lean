import Daku.Collector.Collect
import Daku.Readers.Digest

/-!
# One health for every reader

`decide` lets a platform without an availability Signal carry its own reachability
(`health.rs:52–58`); the MCP tools and the digest look at the availability row only. They
report the published health exactly where nothing but that row can decide.
-/

namespace Daku.Readers

open Daku.Base Daku.Protocol Daku.Store Daku.Health Daku.Collector

/-- A snapshot that speaks for its platform: it reads unreachable, or it is a primary probe
that is down (`health.rs:60–72`). -/
def SpeaksUnreachable (fromStr : FromStr) (snapshot : SignalSnapshot) : Prop :=
  wireReachability fromStr snapshot.payloadJson = .unreachable ∨
    (snapshot.signalId = httpProbeSignalId ∨ snapshot.signalId = actionsSignalId) ∧
      snapshotState snapshot = .down

/-- The availability row decides alone: there is one, or no snapshot speaks for its platform. -/
def AvailabilityDecides (fromStr : FromStr) (envSnaps : List SignalSnapshot) : Prop :=
  (∃ s ∈ envSnaps, s.signalId = availabilitySignalId) ∨
    ∀ s ∈ envSnaps, ¬SpeaksUnreachable fromStr s

instance (fromStr : FromStr) (snapshot : SignalSnapshot) :
    Decidable (SpeaksUnreachable fromStr snapshot) := by
  unfold SpeaksUnreachable
  infer_instance

instance (fromStr : FromStr) (envSnaps : List SignalSnapshot) :
    Decidable (AvailabilityDecides fromStr envSnaps) := by
  unfold AvailabilityDecides
  infer_instance

/-- A document reports this health and this reachability. -/
def Says (reply : Value) (health : EnvironmentHealth) (reachability : Reachability) : Prop :=
  reply.get "health" = some (.string health.asStr) ∧
    reply.get "reachability" = some (.string reachability.asStr)

/-- Both tools and the digest report what the summary of the Environment says. -/
structure ReadAlike (fromStr : FromStr) (db : Db) (environments : List EnvironmentConfig)
    (environment : EnvironmentConfig) (now days : Int) (summary : EnvironmentSummary) : Prop where
  list : Says (environmentRow fromStr db environment) summary.health summary.reachability
  get : ∃ reply, healthGet fromStr db environments environment.id = .ok reply ∧
    Says reply summary.health summary.reachability
  digest : weeklyDigest fromStr db environment now days =
    digestHeading environment days summary.health summary.reachability ++
      digestBody now (digestEvents db environment.id now days)
        (environmentSnapshots environment.id (loadAllSignalSnapshots db))

section Verdict

variable {fromStr : FromStr} {envSnaps : List SignalSnapshot}

/-- The platform loop ends unreachable exactly when it was or a snapshot speaks so. -/
theorem platformReachability_eq_reachable_iff (acc : Reachability)
    (hacc : acc = .reachable ∨ acc = .unreachable) :
    platformReachability fromStr acc envSnaps = .reachable ↔
      acc = .reachable ∧ ∀ s ∈ envSnaps, ¬SpeaksUnreachable fromStr s := by
  induction envSnaps generalizing acc with
  | nil => simp [platformReachability]
  | cons s envSnaps ih =>
    rw [platformReachability, List.forall_mem_cons]
    by_cases hread : wireReachability fromStr s.payloadJson = .unreachable
    · have hspeaks : SpeaksUnreachable fromStr s := Or.inl hread
      simp [if_pos hread, hspeaks]
    · rw [if_neg hread]
      split
      · next hdown =>
        have hspeaks : SpeaksUnreachable fromStr s := Or.inr hdown
        rw [ih _ (Or.inr rfl)]
        simp [hspeaks]
      · next hdown =>
        have hquiet : ¬SpeaksUnreachable fromStr s := fun h ↦ h.elim hread hdown
        rw [ih acc hacc]
        simp [hquiet]

/-- The verdict's reachability is that of the availability row exactly when that row decides
alone. -/
theorem reachability_decide_iff :
    (Health.decide fromStr envSnaps).reachability = availabilityReachability fromStr envSnaps ↔
      AvailabilityDecides fromStr envSnaps := by
  rw [Health.decide, availabilityReachability, AvailabilityDecides]
  cases hfind : envSnaps.find? fun s ↦ s.signalId = availabilitySignalId with
  | some s =>
    have hmem := List.mem_of_find?_eq_some hfind
    have hid : s.signalId = availabilitySignalId := by simpa using List.find?_some hfind
    simp only [true_iff]
    exact Or.inl ⟨s, hmem, hid⟩
  | none =>
    have hnone : ¬∃ s ∈ envSnaps, s.signalId = availabilitySignalId := by
      rintro ⟨s, hs, hid⟩
      exact absurd hid (by simpa using List.find?_eq_none.mp hfind s hs)
    simp only [hnone, false_or]
    rw [platformReachability_eq_reachable_iff .reachable (Or.inl rfl)]
    simp only [true_and]

end Verdict

private theorem says_inj {reply : Value} {h h' : EnvironmentHealth} {r r' : Reachability}
    (hs : Says reply h r) (hs' : Says reply h' r') : h = h' ∧ r = r' := by
  have hh : h.asStr = h'.asStr := by simpa using hs.1.symm.trans hs'.1
  have hr : r.asStr = r'.asStr := by simpa using hs.2.symm.trans hs'.2
  refine ⟨EnvironmentHealth.asStr_injective hh, ?_⟩
  have hparse := congrArg Reachability.parse hr
  simpa using hparse

/-- What the readers report: the roll-up by the availability row alone. -/
private theorem reports (fromStr : FromStr) (db : Db) (hkeys : SnapshotsKeyed db.signalSnapshots)
    (environments : List EnvironmentConfig) (environment : EnvironmentConfig)
    (hmem : environment ∈ environments) :
    let envSnaps := environmentSnapshots environment.id (loadAllSignalSnapshots db)
    let reachability := availabilityReachability fromStr envSnaps
    let health := healthRollup reachability (Health.decide fromStr envSnaps).votes
    Says (environmentRow fromStr db environment) health reachability ∧
      ∃ reply, healthGet fromStr db environments environment.id = .ok reply ∧
        Says reply health reachability := by
  obtain ⟨hvotes, hreach⟩ := votesOf_eq fromStr db hkeys environment.id
  intro envSnaps reachability health
  have hhealth : healthRollup (votesOf fromStr db environment.id).reachability
      (votesOf fromStr db environment.id).votes = health := by
    rw [hvotes, hreach]
    rfl
  obtain ⟨found, hfound⟩ : ∃ found, findEnvironment environments environment.id = .ok found := by
    rw [findEnvironment]
    cases h : environments.find? fun e ↦ e.id = environment.id with
    | some found => exact ⟨found, rfl⟩
    | none =>
      have hother := List.find?_eq_none.mp h environment hmem
      simp at hother
  refine ⟨⟨?_, ?_⟩, _, by rw [healthGet, hfound]; rfl, ?_, ?_⟩
  · exact congrArg (fun h ↦ some (Value.string (EnvironmentHealth.asStr h))) hhealth
  · exact congrArg (fun r ↦ some (Value.string (Reachability.asStr r))) hreach
  · exact congrArg (fun h ↦ some (Value.string (EnvironmentHealth.asStr h))) hhealth
  · exact congrArg (fun r ↦ some (Value.string (Reachability.asStr r))) hreach

/-- For every stored set of snapshots and every configured Environment, the MCP tools and the
digest report the published health and reachability exactly when the availability row decides
alone. An HTTP or GitHub Environment whose probe is down is reported reachable and degraded. -/
theorem readAlike_iff (fromStr : FromStr) (db : Db) (hkeys : SnapshotsKeyed db.signalSnapshots)
    (environments : List EnvironmentConfig) (environment : EnvironmentConfig)
    (hmem : environment ∈ environments) (now days : Int) (pollIntervalSecs : Nat) :
    let envSnaps := environmentSnapshots environment.id (loadAllSignalSnapshots db)
    ReadAlike fromStr db environments environment now days
        (environmentSummary (Health.decide fromStr envSnaps) envSnaps pollIntervalSecs
          environment) ↔
      AvailabilityDecides fromStr envSnaps := by
  intro envSnaps
  obtain ⟨hlist, hget⟩ := reports fromStr db hkeys environments environment hmem
  rw [← reachability_decide_iff]
  constructor
  · intro h
    exact (says_inj h.list hlist).2
  · intro hreach
    have hhealth : (Health.decide fromStr envSnaps).health =
        healthRollup (availabilityReachability fromStr envSnaps)
          (Health.decide fromStr envSnaps).votes := by
      rw [← hreach]
      rfl
    refine ⟨?_, ?_, ?_⟩
    · simpa only [environmentSummary, hhealth, hreach] using hlist
    · simpa only [environmentSummary, hhealth, hreach] using hget
    · rw [weeklyDigest_eq]
      simp only [environmentSummary, hhealth, hreach]
      rfl

/-- A database with one row: the HTTP probe of `shop` in the given state. -/
def probedShop (state : SignalState) : Db :=
  { Db.empty with
    signalSnapshots := [⟨"shop", httpProbeSignalId, 60, state.asStr, "{}"⟩] }

/-- A degraded probe is read alike. -/
theorem readAlike_of_degraded_probe :
    let envSnaps := environmentSnapshots "shop" (loadAllSignalSnapshots (probedShop .degraded))
    ReadAlike emptyObjectFromStr (probedShop .degraded) [prod, shop] shop 90 7
      (environmentSummary (Health.decide emptyObjectFromStr envSnaps) envSnaps 60 shop) :=
  (readAlike_iff emptyObjectFromStr (probedShop .degraded) (by simp [SnapshotsKeyed, probedShop])
    [prod, shop] shop (by decide) 90 7 60).mpr (by decide +kernel)

/-- A probe that is down is published as an outage; the tools and the digest report the
Environment as reachable and degraded. -/
theorem down_probe_read_as_degraded :
    let db := probedShop .down
    let envSnaps := environmentSnapshots "shop" (loadAllSignalSnapshots db)
    let decided := Health.decide emptyObjectFromStr envSnaps
    decided.health = .down ∧ decided.reachability = .unreachable ∧
      Says (environmentRow emptyObjectFromStr db shop) .degraded .reachable ∧
      (∃ reply, healthGet emptyObjectFromStr db [prod, shop] "shop" = .ok reply ∧
        Says reply .degraded .reachable) ∧
      weeklyDigest emptyObjectFromStr db shop 90 7 =
        digestHeading shop 7 .degraded .reachable ++
          digestBody 90 (digestEvents db "shop" 90 7) envSnaps ∧
      ¬ReadAlike emptyObjectFromStr db [prod, shop] shop 90 7
        (environmentSummary decided envSnaps 60 shop) := by
  have hrow : Says (environmentRow emptyObjectFromStr (probedShop .down) shop) .degraded
      .reachable := ⟨rfl, rfl⟩
  refine ⟨by decide +kernel, by decide +kernel, hrow, ⟨_, rfl, rfl, rfl⟩, ?_, fun h ↦ ?_⟩
  · rw [weeklyDigest_eq]
    rfl
  · have hsame := (says_inj h.list hrow).2
    revert hsame
    decide +kernel

end Daku.Readers
