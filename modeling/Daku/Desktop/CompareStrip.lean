import Daku.Desktop.Published
import Daku.Environments.Registry
import Daku.Protocol.JsonText
import Daku.Protocol.Payload
import Daku.Signals.DriftVerdicts

/-!
# The compare strip

The strip and the rows that compare the Environments, `src/dashboard_state.rs:1640–1698,
2117–2148, 2260–2273`, after a collect of drift was published. The collect is over the ServiceNow
Environments (`crates/daku-core/src/collector.rs:535, 646–660`), the publish over all of them, so
a window shows of another Platform what an earlier collect left. It says there is a mismatch exactly
if two builds it knows differ, a comparison of the collect found the builds or a plugin different
that was not expected to differ, or such a leftover says so.
-/

namespace Daku.Desktop

open Daku.Base Daku.Protocol Daku.Store Daku.Wire Daku.Signals Daku.Environments
open Daku.Health (EnvironmentSummary SnapshotsKeyed availabilitySignalId)
open Daku.Http (Codec CredentialStore)

/-- `CompareStrip` (`dashboard_state.rs:399–402`). -/
structure CompareStrip where
  visible : Bool
  hasMismatch : Bool
  deriving DecidableEq, Repr

/-- `CompareRow` (`dashboard_state.rs:317–325`). -/
structure CompareRow where
  id : String
  label : String
  build : Option String
  drift : String
  lastClone : String
  mismatch : Bool
  deriving DecidableEq, Repr

namespace DashboardState

variable (s : DashboardState)

/-- The snapshot of a Signal in the window. -/
def snapshotOf (id signalId : String) : Option Snapshot := (s.snapshots id).bind (· signalId)

/-- `environment_build` (`dashboard_state.rs:2260–2266`). -/
def environmentBuild (id : String) : Option String :=
  (s.snapshotOf id "availability").bind fun snapshot ↦ parseBuild snapshot.payload

/-- The Environment is the clone source by its own snapshot. -/
def isCloneSource (environment : EnvironmentSummary) : Bool :=
  (s.snapshotOf environment.id "drift").any fun snapshot ↦
    driftRole snapshot.payload = some "source"

/-- `clone_source_id` (`dashboard_state.rs:1683–1698`). -/
def cloneSourceId : Option String :=
  (s.environments.find? s.isCloneSource).map EnvironmentSummary.id

/-- `reference_build` (`dashboard_state.rs:1673–1681`). -/
def referenceBuild : Option String :=
  s.cloneSourceId.bind s.environmentBuild <|>
    s.environments.findSome? fun environment ↦ s.environmentBuild environment.id

/-- `compare_strip` (`dashboard_state.rs:1640–1668`). -/
def compareStrip : CompareStrip :=
  if s.environments.length < 2 then ⟨false, false⟩
  else
    let sourceId := s.cloneSourceId
    let buildMismatch := s.referenceBuild.any fun reference ↦ s.environments.any fun environment ↦
      (s.environmentBuild environment.id).any (· ≠ reference)
    let pluginMismatch := s.environments.any fun environment ↦
      sourceId ≠ some environment.id &&
        (s.snapshotOf environment.id "drift").any fun snapshot ↦ driftMismatch snapshot.payload
    ⟨true, buildMismatch || pluginMismatch⟩

/-- `signal_summary` (`dashboard_state.rs:2138–2144`). -/
def signalSummary (id signalId : String) : String :=
  ((s.snapshotOf id signalId).map fun snapshot ↦ summarizeValue signalId snapshot.payload).getD ""

/-- `compare_rows` (`dashboard_state.rs:2117–2136`). -/
def compareRows : List CompareRow :=
  s.environments.map fun environment ↦
    let build := s.environmentBuild environment.id
    { id := environment.id, label := environment.label, build
      drift := s.signalSummary environment.id "drift"
      lastClone := s.signalSummary environment.id "last_clone"
      mismatch := match build, s.referenceBuild with
        | some build, some reference => build ≠ reference
        | _, _ => false }

/-- Two builds that the window knows differ. -/
def BuildsDiffer : Prop :=
  ∃ a ∈ s.environments, ∃ b ∈ s.environments, ∃ build build', s.environmentBuild a.id = some build ∧
    s.environmentBuild b.id = some build' ∧ build ≠ build'

/-- The Environment's own snapshot says that it differs from the source. -/
def SaysMismatch (environment : EnvironmentSummary) : Prop :=
  ∃ snapshot, s.snapshotOf environment.id "drift" = some snapshot ∧
    driftMismatch snapshot.payload = true

section Window

variable {s}

/-- The reference is the build of a listed Environment. -/
theorem exists_of_referenceBuild {reference : String} (h : s.referenceBuild = some reference) :
    ∃ e ∈ s.environments, s.environmentBuild e.id = some reference := by
  rw [referenceBuild, Option.orElse_eq_some] at h
  rcases h with h | ⟨-, h⟩
  · obtain ⟨id, hid, hbuild⟩ := Option.bind_eq_some_iff.mp h
    obtain ⟨e, he, rfl⟩ := Option.map_eq_some_iff.mp hid
    exact ⟨e, List.mem_of_find?_eq_some he, hbuild⟩
  · exact List.exists_of_findSome?_eq_some h

/-- There is a reference if a build is known. -/
theorem exists_referenceBuild {e : EnvironmentSummary} (he : e ∈ s.environments) {build : String}
    (hbuild : s.environmentBuild e.id = some build) :
    ∃ reference, s.referenceBuild = some reference := by
  have hfirst : (s.environments.findSome? fun e ↦ s.environmentBuild e.id).isSome := by
    rw [List.findSome?_isSome_iff]
    exact ⟨e, he, hbuild ▸ rfl⟩
  apply Option.isSome_iff_exists.mp
  rw [referenceBuild, Option.orElse_eq_orElse, Option.orElse_eq_or, Option.isSome_or, hfirst,
    Bool.or_true]

theorem buildMismatch_iff :
    (∃ reference, s.referenceBuild = some reference ∧ ∃ e ∈ s.environments, ∃ build,
      s.environmentBuild e.id = some build ∧ build ≠ reference) ↔ s.BuildsDiffer := by
  constructor
  · rintro ⟨reference, hreference, e, he, build, hbuild, hne⟩
    obtain ⟨e', he', hbuild'⟩ := exists_of_referenceBuild hreference
    exact ⟨e, he, e', he', build, reference, hbuild, hbuild', hne⟩
  · rintro ⟨a, ha, b, hb, build, build', hbuild, hbuild', hne⟩
    obtain ⟨reference, hreference⟩ := exists_referenceBuild ha hbuild
    refine ⟨reference, hreference, ?_⟩
    by_cases heq : build = reference
    · exact ⟨b, hb, build', hbuild', heq ▸ hne.symm⟩
    · exact ⟨a, ha, build, hbuild, heq⟩

/-- A row is tinted exactly if its build is known and is not the reference. -/
theorem exists_mismatch_row_iff :
    (∃ row ∈ s.compareRows, row.mismatch = true) ↔ s.BuildsDiffer := by
  rw [← buildMismatch_iff]
  constructor
  · rintro ⟨row, hrow, hmismatch⟩
    obtain ⟨e, he, rfl⟩ := List.mem_map.mp hrow
    dsimp only at hmismatch
    split at hmismatch
    · next build reference hbuild hreference =>
      exact ⟨reference, hreference, e, he, build, hbuild, of_decide_eq_true hmismatch⟩
    · cases hmismatch
  · rintro ⟨reference, hreference, e, he, build, hbuild, hne⟩
    refine ⟨_, List.mem_map_of_mem he, ?_⟩
    dsimp only
    rw [hbuild, hreference]
    exact decide_eq_true hne

theorem hasMismatch_iff : s.compareStrip.hasMismatch = true ↔ 2 ≤ s.environments.length ∧
    (s.BuildsDiffer ∨ ∃ e ∈ s.environments, s.cloneSourceId ≠ some e.id ∧ s.SaysMismatch e) := by
  rw [compareStrip]
  split
  · next hfew => exact iff_of_false Bool.false_ne_true fun h ↦ Nat.not_le.mpr hfew h.1
  · next hmany =>
    rw [and_iff_right (Nat.not_lt.mp hmany), ← buildMismatch_iff]
    simp only [Bool.or_eq_true, Option.any_eq_true, List.any_eq_true, decide_eq_true_iff,
      Bool.and_eq_true, SaysMismatch]

end Window

end DashboardState

section Payloads

variable {fromStr : FromStr} {toText : Value → String} {walks : Walks} {e : EnvironmentConfig}
  {verdict : DriftVerdict} {v w : Value}

theorem driftRole_congr (h : ∀ key, w.get key = v.get key) : driftRole w = driftRole v := by
  rw [driftRole, driftRole, text, text, h]

theorem driftMismatch_congr (h : ∀ key, w.get key = v.get key) :
    driftMismatch w = driftMismatch v := by
  simp only [driftMismatch, lengthAt, h]

theorem plain_optionalText (text : Option String) : (optionalText text).Plain := by
  cases text <;> trivial

theorem plain_toValue (m : PluginMismatch) : m.toValue.Plain := by
  refine ⟨?_, trivial, plain_optionalText _, plain_optionalText _, trivial⟩
  show (["id", "other_version", "source_version"] : List String).Pairwise (· < ·)
  decide

/-- What is stored of a verdict is read back. -/
theorem exists_read_verdict (h : ReadsBack fromStr toText) (walks : Walks) (e : EnvironmentConfig)
    (verdict : DriftVerdict) :
    ∃ value, fromStr (toText (verdict.observation walks e).2) = some value ∧
      ∀ key, value.get key = (verdict.observation walks e).2.get key := by
  cases verdict with
  | skipped reason => exact h _ (List.nodup_singleton _) ⟨trivial, trivial⟩
  | down message =>
    refine h _ ?_ ⟨trivial, trivial, trivial⟩
    show (["reachability", "detail"] : List String).Nodup
    decide
  | source => exact h _ (List.nodup_singleton _) ⟨trivial, trivial⟩
  | compared inventory other =>
    refine h _ ?_ ⟨?_, trivial, ?_, trivial, trivial, trivial, trivial⟩
    · show (["build_matches", "expected_mismatches", "mismatch_list", "mismatch_list_truncated",
        "mismatches", "truncated"] : List String).Nodup
      decide
    · cases buildMatches inventory.build other.build <;> trivial
    · refine Value.plainItems_iff.mpr fun item hitem ↦ ?_
      obtain ⟨m, -, rfl⟩ := List.mem_map.mp hitem
      exact plain_toValue m

/-- Only the payload of the source has its role. -/
theorem driftRole_observation :
    driftRole (verdict.observation walks e).2 = some "source" ↔ verdict = .source := by
  cases verdict with
  | source => exact iff_of_true rfl rfl
  | _ => exact iff_of_false (fun h ↦ by cases h) fun h ↦ by cases h

/-- There is a difference that is not expected. -/
theorem unexpected_pos_iff (walks : Walks) {inventory other : EnvInventory}
    {expectedDrift : List String} :
    0 < (unexpectedMismatches (diffPluginInventory (walks inventory.plugins) (walks other.plugins))
      expectedDrift).length ↔
      ∃ id, id ∉ expectedDrift ∧ byId inventory.plugins id ≠ byId other.plugins id := by
  simp only [List.length_pos_iff_exists_mem, unexpectedMismatches, List.mem_filter,
    decide_eq_true_iff, mem_diffPluginInventory]
  constructor
  · rintro ⟨m, hm, hexpected⟩
    refine ⟨m.id, hexpected, fun hsame ↦ ?_⟩
    rw [differenceAt_eq_none_iff.mpr hsame] at hm
    cases hm
  · rintro ⟨id, hexpected, hne⟩
    obtain ⟨m, hm⟩ := Option.ne_none_iff_exists'.mp (mt differenceAt_eq_none_iff.mp hne)
    have hid := id_of_differenceAt hm
    exact ⟨m, hid.symm ▸ hm, hid.symm ▸ hexpected⟩

/-- The comparison of a verdict found a difference that was not expected. -/
def FoundMismatch (e : EnvironmentConfig) (verdict : DriftVerdict) : Prop :=
  ∃ inventory other, verdict = .compared inventory other ∧
    (buildMatches inventory.build other.build = some false ∨
      ∃ id, id ∉ e.expectedDrift ∧ byId inventory.plugins id ≠ byId other.plugins id)

theorem driftMismatch_observation (walks : Walks) :
    driftMismatch (verdict.observation walks e).2 = true ↔ FoundMismatch e verdict := by
  cases verdict with
  | compared inventory other =>
    have hpayload : driftMismatch (driftCompare walks e inventory other).2 =
        (decide (buildMatches inventory.build other.build = some false) ||
          decide (0 < (unexpectedMismatches (diffPluginInventory (walks inventory.plugins)
            (walks other.plugins)) e.expectedDrift).length)) := by
      have hmatches : (((buildMatches inventory.build other.build).map Value.bool).getD
          .null).asBool = buildMatches inventory.build other.build := by
        cases buildMatches inventory.build other.build <;> rfl
      show (decide ((((buildMatches inventory.build other.build).map Value.bool).getD
        .null).asBool = some false) || _ || false) = _
      rw [hmatches, Bool.or_false]
      rfl
    show driftMismatch (driftCompare walks e inventory other).2 = true ↔ _
    rw [hpayload, Bool.or_eq_true, decide_eq_true_iff, decide_eq_true_iff, unexpected_pos_iff walks]
    constructor
    · exact fun h ↦ ⟨inventory, other, rfl, h⟩
    · rintro ⟨_, _, heq, h⟩
      cases heq
      exact h
  | _ => exact iff_of_false (fun h ↦ by cases h) fun ⟨_, _, h, _⟩ ↦ by cases h

end Payloads

/-- The build of an Environment in the database. -/
def storedBuild (fromStr : FromStr) (db : Db) (environmentId : String) : Option String :=
  (loadSignalSnapshot environmentId availabilitySignalId db).bind fun row ↦
    parseBuild ((fromStr row.payloadJson).getD .null)

/-- Two of the Environments have builds that differ. -/
def BuildsDifferIn (fromStr : FromStr) (db : Db) (environments : List EnvironmentConfig) : Prop :=
  ∃ a ∈ environments, ∃ b ∈ environments, ∃ build build', storedBuild fromStr db a.id = some build ∧
    storedBuild fromStr db b.id = some build' ∧ build ≠ build'

/-- What the database has of the drift of an Environment. -/
def storedDrift (fromStr : FromStr) (db : Db) (environmentId : String) : Option Value :=
  (loadSignalSnapshot environmentId driftSignalId db).map fun row ↦
    (fromStr row.payloadJson).getD .null

/-- An Environment says that it is the source: the verdict on it does, or, on another Platform than
ServiceNow, what an earlier collect left. -/
def SaysSource (fromStr : FromStr) (db : Db) (verdict : EnvironmentConfig → DriftVerdict)
    (e : EnvironmentConfig) : Prop :=
  (e.platform = .servicenow → verdict e = .source) ∧
    (e.platform ≠ .servicenow →
      ∃ payload ∈ storedDrift fromStr db e.id, driftRole payload = some "source")

/-- An Environment of another Platform than ServiceNow has a mismatch left from an earlier
collect. -/
def LeftMismatch (fromStr : FromStr) (db : Db) (e : EnvironmentConfig) : Prop :=
  e.platform ≠ .servicenow ∧
    ∃ payload ∈ storedDrift fromStr db e.id, driftMismatch payload = true

/-- Something about the payload of a snapshot, if there is one. -/
theorem exists_payload_iff {snapshot : Option Snapshot} {p : Value → Prop} :
    (∃ s, snapshot = some s ∧ p s.payload) ↔
      ∃ payload ∈ snapshot.map Snapshot.payload, p payload := by
  cases snapshot <;> simp

theorem mem_servicenowSubset {environments : List EnvironmentConfig} {e : EnvironmentConfig} :
    e ∈ servicenowSubset environments ↔ e ∈ environments ∧ e.platform = .servicenow := by
  rw [servicenowSubset, List.mem_filter, decide_eq_true_iff]

theorem two_le_length {α : Type} {a b : α} {l : List α} (ha : a ∈ l) (hb : b ∈ l) (hne : a ≠ b) :
    2 ≤ l.length := by
  match l with
  | [] => cases ha
  | [c] => exact absurd ((List.mem_singleton.mp ha).trans (List.mem_singleton.mp hb).symm) hne
  | _ :: _ :: _ => simp

section Told

variable {x : Round} {walks : Walks} {verdict : EnvironmentConfig → DriftVerdict} {d : Daemon}
  {environments : List EnvironmentConfig} {t : DashboardState}

/-- A window shows what the collect has stored, and what it has left alone. -/
structure Told (x : Round) (environments : List EnvironmentConfig) (walks : Walks)
    (verdict : EnvironmentConfig → DriftVerdict) (t : DashboardState) : Prop where
  ids : t.environments.map EnvironmentSummary.id = environments.map EnvironmentConfig.id
  builds : ∀ e ∈ environments,
    t.environmentBuild e.id = storedBuild x.codec.fromStr x.start.db e.id
  drift : ∀ e ∈ environments, e.platform = .servicenow →
    ∃ snapshot, t.snapshotOf e.id "drift" = some snapshot ∧
      ∀ key, snapshot.payload.get key = ((verdict e).observation walks e).2.get key
  left : ∀ e ∈ environments, e.platform ≠ .servicenow →
    (t.snapshotOf e.id "drift").map Snapshot.payload =
      storedDrift x.codec.fromStr x.start.db e.id

theorem told_publish (hids : (environments.map EnvironmentConfig.id).Nodup)
    (hsubset : x.environments = servicenowSubset environments)
    (hkeyed : SnapshotsKeyed x.start.db.signalSnapshots)
    (hreads : ReadsBack x.codec.fromStr x.texts.value) (h : x.Judged walks verdict d) (now : Int)
    (poll : Nat) (s : DashboardState) :
    Told x environments walks verdict (s.applyAll x.codec.fromStr
      (publishedMessages x.codec.fromStr environments now poll d.db)) := by
  have hshown := @shown_publish x.codec.fromStr environments now poll d.db s
  generalize s.applyAll x.codec.fromStr
    (publishedMessages x.codec.fromStr environments now poll d.db) = t at hshown ⊢
  have hsnapshot : ∀ e ∈ environments, ∀ signalId, t.snapshotOf e.id signalId =
      (loadSignalSnapshot e.id signalId d.db).map fun row ↦
        ⟨snapshotDto row, (x.codec.fromStr row.payloadJson).getD .null⟩ := by
    intro e he signalId
    rw [DashboardState.snapshotOf, hshown.2 e he, Option.bind_some,
      shownSnapshots_eq (h.keyed hkeyed)]
  refine ⟨hshown.1, fun e he ↦ ?_, fun e he hplatform ↦ ?_, fun e he hplatform ↦ ?_⟩
  · have hrow : loadSignalSnapshot e.id "availability" d.db =
        loadSignalSnapshot e.id availabilitySignalId x.start.db := h.available e.id
    rw [DashboardState.environmentBuild, hsnapshot e he, hrow, storedBuild, Option.bind_map]
    rfl
  · obtain ⟨value, hvalue, hget⟩ := exists_read_verdict hreads walks e (verdict e)
    have hstored := h.stored e (hsubset ▸ mem_servicenowSubset.mpr ⟨he, hplatform⟩)
    have hdrift := (hsnapshot e he "drift").trans (congrArg (Option.map _) hstored)
    refine ⟨_, hdrift, ?_⟩
    have hparsed : x.codec.fromStr (x.verdictRow walks e (verdict e)).payloadJson = some value :=
      hvalue
    dsimp only
    rw [hparsed]
    exact hget
  · have hspares : x.Spares e.id driftSignalId := by
      rintro - hmem
      rw [hsubset] at hmem
      obtain ⟨e', he', hid⟩ := List.mem_map.mp hmem
      obtain ⟨he', hservicenow⟩ := mem_servicenowSubset.mp he'
      exact hplatform (List.inj_on_of_nodup_map hids he he' hid.symm ▸ hservicenow)
    rw [hsnapshot e he, storedDrift, ← h.spared e.id driftSignalId hspares, Option.map_map]
    rfl

section Window

variable (h : Told x environments walks verdict t)

include h

theorem Told.exists_summary {e : EnvironmentConfig} (he : e ∈ environments) :
    ∃ summary ∈ t.environments, summary.id = e.id := by
  have hid : e.id ∈ t.environments.map EnvironmentSummary.id :=
    h.ids ▸ List.mem_map_of_mem (f := EnvironmentConfig.id) he
  exact List.mem_map.mp hid

theorem Told.exists_environment {summary : EnvironmentSummary} (hs : summary ∈ t.environments) :
    ∃ e ∈ environments, e.id = summary.id := by
  have hid : summary.id ∈ environments.map EnvironmentConfig.id :=
    h.ids ▸ List.mem_map_of_mem (f := EnvironmentSummary.id) hs
  exact List.mem_map.mp hid

theorem Told.isCloneSource_iff {summary : EnvironmentSummary} {e : EnvironmentConfig}
    (he : e ∈ environments) (hid : summary.id = e.id) :
    t.isCloneSource summary = true ↔ SaysSource x.codec.fromStr x.start.db verdict e := by
  have hpayload : t.isCloneSource summary = true ↔ ∃ payload ∈
      (t.snapshotOf e.id "drift").map Snapshot.payload, driftRole payload = some "source" := by
    rw [DashboardState.isCloneSource, hid, Option.any_eq_true, ← exists_payload_iff]
    simp only [decide_eq_true_iff]
  rw [hpayload]
  by_cases hplatform : e.platform = .servicenow
  · obtain ⟨snapshot, hsnapshot, hget⟩ := h.drift e he hplatform
    rw [hsnapshot, SaysSource, ← @driftRole_observation walks e (verdict e),
      ← driftRole_congr hget]
    simp [hplatform]
  · rw [h.left e he hplatform, SaysSource]
    simp [hplatform]

theorem Told.saysMismatch_iff {summary : EnvironmentSummary} {e : EnvironmentConfig}
    (he : e ∈ environments) (hid : summary.id = e.id) :
    t.SaysMismatch summary ↔ e.platform = .servicenow ∧ FoundMismatch e (verdict e) ∨
      LeftMismatch x.codec.fromStr x.start.db e := by
  have hpayload : t.SaysMismatch summary ↔ ∃ payload ∈
      (t.snapshotOf e.id "drift").map Snapshot.payload, driftMismatch payload = true := by
    rw [DashboardState.SaysMismatch, hid]
    exact exists_payload_iff (p := fun payload ↦ driftMismatch payload = true)
  rw [hpayload]
  by_cases hplatform : e.platform = .servicenow
  · obtain ⟨snapshot, hsnapshot, hget⟩ := h.drift e he hplatform
    rw [hsnapshot, LeftMismatch, ← driftMismatch_observation walks, ← driftMismatch_congr hget]
    simp [hplatform]
  · rw [h.left e he hplatform, LeftMismatch]
    simp [hplatform]

theorem Told.buildsDiffer_iff :
    t.BuildsDiffer ↔ BuildsDifferIn x.codec.fromStr x.start.db environments := by
  constructor
  · rintro ⟨a, ha, b, hb, build, build', hbuild, hbuild', hne⟩
    obtain ⟨a', ha', hida⟩ := h.exists_environment ha
    obtain ⟨b', hb', hidb⟩ := h.exists_environment hb
    rw [← hida, h.builds a' ha'] at hbuild
    rw [← hidb, h.builds b' hb'] at hbuild'
    exact ⟨a', ha', b', hb', build, build', hbuild, hbuild', hne⟩
  · rintro ⟨a, ha, b, hb, build, build', hbuild, hbuild', hne⟩
    obtain ⟨a', ha', hida⟩ := h.exists_summary ha
    obtain ⟨b', hb', hidb⟩ := h.exists_summary hb
    rw [← h.builds a ha, ← hida] at hbuild
    rw [← h.builds b hb, ← hidb] at hbuild'
    exact ⟨a', ha', b', hb', build, build', hbuild, hbuild', hne⟩

/-- The window names the first Environment that says it is the source. -/
theorem Told.cloneSourceId_iff (id : String) :
    t.cloneSourceId = some id ↔ ∃ before e after, environments = before ++ e :: after ∧
      e.id = id ∧ SaysSource x.codec.fromStr x.start.db verdict e ∧
      ∀ e' ∈ before, ¬ SaysSource x.codec.fromStr x.start.db verdict e' := by
  rw [DashboardState.cloneSourceId, Option.map_eq_some_iff]
  constructor
  · rintro ⟨summary, hfind, rfl⟩
    obtain ⟨hsource, before, after, hsplit, hbefore⟩ := List.find?_eq_some_iff_append.mp hfind
    have hids := h.ids
    rw [hsplit, List.map_append, List.map_cons] at hids
    obtain ⟨before', rest, rfl, hbefore', hrest⟩ := List.map_eq_append_iff.mp hids.symm
    obtain ⟨e, after', rfl, hid, -⟩ := List.map_eq_cons_iff.mp hrest
    have he : e ∈ before' ++ e :: after' := List.mem_append_right _ List.mem_cons_self
    refine ⟨before', e, after', rfl, hid, (h.isCloneSource_iff he hid.symm).mp hsource,
      fun e' he' hsays ↦ ?_⟩
    have hmem : e'.id ∈ before.map EnvironmentSummary.id :=
      hbefore' ▸ List.mem_map_of_mem (f := EnvironmentConfig.id) he'
    obtain ⟨summary', hs', hid'⟩ := List.mem_map.mp hmem
    have hnot := hbefore summary' hs'
    rw [(h.isCloneSource_iff (List.mem_append_left _ he') hid').mpr hsays] at hnot
    cases hnot
  · rintro ⟨before, e, after, rfl, rfl, hsays, hbefore⟩
    have hids := h.ids
    rw [List.map_append, List.map_cons] at hids
    obtain ⟨before', rest, hsplit, hbefore', hrest⟩ := List.map_eq_append_iff.mp hids
    obtain ⟨summary, after', rfl, hid, -⟩ := List.map_eq_cons_iff.mp hrest
    have he : e ∈ before ++ e :: after := List.mem_append_right _ List.mem_cons_self
    refine ⟨summary, List.find?_eq_some_iff_append.mpr
      ⟨(h.isCloneSource_iff he hid).mpr hsays, before', after', hsplit, fun summary' hs' ↦ ?_⟩, hid⟩
    have hmem : summary'.id ∈ before.map EnvironmentConfig.id :=
      hbefore' ▸ List.mem_map_of_mem (f := EnvironmentSummary.id) hs'
    obtain ⟨e', he', hid'⟩ := List.mem_map.mp hmem
    rw [Bool.not_eq_true', ← Bool.not_eq_true,
      h.isCloneSource_iff (List.mem_append_left _ he') hid'.symm]
    exact hbefore e' he'

theorem Told.hasMismatch_iff (hids : (environments.map EnvironmentConfig.id).Nodup)
    (hsubset : x.environments = servicenowSubset environments)
    (hjudged : x.Judged walks verdict d) :
    t.compareStrip.hasMismatch = true ↔ BuildsDifferIn x.codec.fromStr x.start.db environments ∨
      (∃ e ∈ servicenowSubset environments, FoundMismatch e (verdict e)) ∨
      ∃ e ∈ environments, LeftMismatch x.codec.fromStr x.start.db e ∧ 2 ≤ environments.length ∧
        t.cloneSourceId ≠ some e.id := by
  have hlength : t.environments.length = environments.length := by
    have hmap := congrArg List.length h.ids
    rwa [List.length_map, List.length_map] at hmap
  rw [DashboardState.hasMismatch_iff, h.buildsDiffer_iff, hlength]
  constructor
  · rintro ⟨hmany, hbuilds | ⟨summary, hs, hother, hsays⟩⟩
    · exact Or.inl hbuilds
    · obtain ⟨e, he, hid⟩ := h.exists_environment hs
      rcases (h.saysMismatch_iff he hid.symm).mp hsays with ⟨hplatform, hfound⟩ | hleft
      · exact Or.inr (Or.inl ⟨e, mem_servicenowSubset.mpr ⟨he, hplatform⟩, hfound⟩)
      · exact Or.inr (Or.inr ⟨e, he, hleft, hmany, hid ▸ hother⟩)
  · rintro (hbuilds | ⟨e, he, hfound⟩ | ⟨e, he, hleft, hmany, hother⟩)
    · refine ⟨?_, Or.inl hbuilds⟩
      obtain ⟨a, ha, b, hb, build, build', hbuild, hbuild', hne⟩ := hbuilds
      refine two_le_length ha hb fun heq ↦ hne ?_
      rw [heq] at hbuild
      exact Option.some.inj (hbuild.symm.trans hbuild')
    · obtain ⟨inventory, other, hcompared, -⟩ := id hfound
      obtain ⟨source, hfind, hne, -⟩ := hjudged.compared e (hsubset ▸ he) inventory other hcompared
      obtain ⟨he, hplatform⟩ := mem_servicenowSubset.mp he
      have hsource := (mem_servicenowSubset.mp (hsubset ▸ List.mem_of_find?_eq_some hfind)).1
      obtain ⟨summary, hs, hid⟩ := h.exists_summary he
      refine ⟨two_le_length he hsource hne, Or.inr ⟨summary, hs, fun hown ↦ ?_,
        (h.saysMismatch_iff he hid).mpr (Or.inl ⟨hplatform, hfound⟩)⟩⟩
      -- What is compared is not the source.
      rw [hid] at hown
      obtain ⟨before, e', after, hsplit, hid', hsays, -⟩ := (h.cloneSourceId_iff e.id).mp hown
      have he' : e' ∈ environments := hsplit ▸ List.mem_append_right _ List.mem_cons_self
      obtain rfl := List.inj_on_of_nodup_map hids he' he hid'
      have hverdict := hsays.1 hplatform
      rw [hcompared] at hverdict
      cases hverdict
    · obtain ⟨summary, hs, hid⟩ := h.exists_summary he
      exact ⟨hmany, Or.inr ⟨summary, hs, hid.symm ▸ hother,
        (h.saysMismatch_iff he hid).mpr (Or.inr hleft)⟩⟩

end Window

/-- A comparison that degrades its Environment found something, unless none is allowed. -/
theorem foundMismatch_of_degraded {e : EnvironmentConfig} {v : DriftVerdict}
    (hthreshold : 1 ≤ e.thresholds.driftMismatchesDegradedAt)
    (h : (v.observation walks e).1 = .degraded) : FoundMismatch e v := by
  cases v with
  | compared inventory other =>
    have hstate : driftState (buildMatches inventory.build other.build)
        (unexpectedMismatches (diffPluginInventory (walks inventory.plugins) (walks other.plugins))
          e.expectedDrift).length e.thresholds = .degraded := h
    rw [driftState] at hstate
    split at hstate
    · cases hstate
    · next hnot =>
      refine ⟨inventory, other, rfl, ?_⟩
      by_cases hbuild : buildMatches inventory.build other.build = some false
      · exact Or.inl hbuild
      · refine Or.inr ((unexpected_pos_iff walks).mp (Nat.pos_of_ne_zero fun hzero ↦ ?_))
        refine hnot ⟨hbuild, ?_⟩
        rw [hzero]
        exact hthreshold
  | _ => cases h

end Told

/-- An Environment that is compared. -/
def comparedEnvironment (id : String) (cloneSource : Bool) : EnvironmentConfig :=
  { Http.sampleEnvironment .basic with id, cloneSource }

/-- Two ServiceNow Environments, and one that has been moved to another Platform. -/
def movedEnvironments : List EnvironmentConfig :=
  [{ comparedEnvironment "moved" true with platform := .http }, comparedEnvironment "prod" true,
    comparedEnvironment "dev" false]

/-- What availability stored of a build. -/
def buildRow (id build : String) : SignalSnapshot :=
  ⟨id, availabilitySignalId, 0, "healthy", JsonText.toText (.object [("build", .string build)])⟩

/-- What an earlier collect stored of a clone source. -/
def sourceRow (id : String) : SignalSnapshot :=
  ⟨id, driftSignalId, 0, "healthy", JsonText.toText (.object [("role", .string "source")])⟩

/-- A daemon that cannot connect, knows two builds and has the row of an earlier collect. -/
def upgradedDaemon : Signals.Daemon where
  session := .new (fun _ _ ↦ .error "connection refused") fun _ ↦ 0
  db := { Db.empty with
    signalSnapshots := [buildRow "prod" "b1", buildRow "dev" "b2", sourceRow "moved"] }
  inventories _ := none

end Daku.Desktop
