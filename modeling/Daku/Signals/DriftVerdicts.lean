import Daku.Health.Dashboard
import Daku.Signals.Rounds

/-!
# What a collect of drift stores

`DriftCollector::collect` (`crates/daku-core/src/drift.rs:213–308`) stores a verdict on each
Environment: skipped, down, the source itself, or compared with the source. All comparisons of a
collect are with the one inventory of the clone source, and the inventories that were compared are
those the collector remembers.
-/

namespace Daku.Signals

open Daku.Base Daku.Protocol Daku.Http Daku.Collector Daku.Store Daku.Health

/-- What a collect finds out about an Environment. -/
inductive DriftVerdict where
  | skipped (reason : String)
  | down (message : String)
  | source
  | compared (inventory other : EnvInventory)

instance : Inhabited DriftVerdict := ⟨.source⟩

/-- State and payload of a verdict (`drift.rs:405–500`). -/
def DriftVerdict.observation (walks : Walks) (environment : EnvironmentConfig) :
    DriftVerdict → SignalState × Value
  | .skipped reason => (.skipped, .object [("skipped", .string reason)])
  | .down message => (.down, .object [("reachability", .string Reachability.unreachable.asStr),
      ("detail", .string message)])
  | .source => (.healthy, .object [("role", .string "source")])
  | .compared inventory other => driftCompare walks environment inventory other

/-- The plugins that the collector remembers of an Environment are those of the inventory. -/
def Remembers (d : Daemon) (environmentId : String) (inventory : EnvInventory) : Prop :=
  ∃ entry, d.inventories environmentId = some entry ∧ entry.plugins = inventory.plugins ∧
    entry.truncated = inventory.truncated

/-- Only the client and what is remembered of one Environment changed. -/
structure ReadOf (environmentId : String) (d t : Daemon) : Prop where
  db : t.db = d.db
  inventories : ∀ id, id ≠ environmentId → t.inventories id = d.inventories id

theorem ReadOf.refl (environmentId : String) (d : Daemon) : ReadOf environmentId d d :=
  ⟨rfl, fun _ _ ↦ rfl⟩

theorem ReadOf.trans {environmentId : String} {d t u : Daemon} (h : ReadOf environmentId d t)
    (h' : ReadOf environmentId t u) : ReadOf environmentId d u :=
  ⟨h'.db.trans h.db, fun id hid ↦ (h'.inventories id hid).trans (h.inventories id hid)⟩

namespace Round

variable (x : Round) (walks : Walks)

/-- The row of a verdict. -/
def verdictRow (environment : EnvironmentConfig) (verdict : DriftVerdict) : SignalSnapshot where
  environmentId := environment.id
  signalId := driftSignalId
  observedAt := x.observedAt
  state := (verdict.observation walks environment).1.asStr
  payloadJson := x.texts.value (verdict.observation walks environment).2

/-- The verdict on an Environment, if the source that was read is the given one. -/
def Fits (read : Option (EnvironmentConfig × EnvInventory)) (d : Daemon)
    (environment : EnvironmentConfig) : DriftVerdict → Prop
  | .source => ∃ inventory, read = some (environment, inventory)
  | .compared inventory other => ∃ source, read = some (source, inventory) ∧
      environment ≠ source ∧ Remembers d source.id inventory ∧ Remembers d environment.id other
  | _ => True

/-- The verdict of the collect is stored, and fits. -/
def HasVerdict (read : Option (EnvironmentConfig × EnvInventory)) (d : Daemon)
    (environment : EnvironmentConfig) (verdict : DriftVerdict) : Prop :=
  loadSignalSnapshot environment.id driftSignalId d.db =
      some (x.verdictRow walks environment verdict) ∧
    Fits read d environment verdict

/-- The row is none that the collect writes. -/
def Spares (environmentId signalId : String) : Prop :=
  signalId = driftSignalId → environmentId ∉ x.environments.map EnvironmentConfig.id

/-- What holds in the middle of a collect that has no verdict on the pending Environments. -/
structure Judging (read : Option (EnvironmentConfig × EnvInventory))
    (pending : List EnvironmentConfig) (d : Daemon) : Prop where
  spared : ∀ environmentId signalId, x.Spares environmentId signalId →
    loadSignalSnapshot environmentId signalId d.db =
      loadSignalSnapshot environmentId signalId x.start.db
  keyed : SnapshotsKeyed x.start.db.signalSnapshots → SnapshotsKeyed d.db.signalSnapshots
  judged : ∀ e ∈ x.environments, e ∉ pending → ∃ verdict, x.HasVerdict walks read d e verdict
  source : ∀ source inventory, read = some (source, inventory) →
    Remembers d source.id inventory ∧ x.HasVerdict walks read d source .source

/-- What a collect has stored. -/
structure Judged (verdict : EnvironmentConfig → DriftVerdict) (d : Daemon) : Prop where
  spared : ∀ environmentId signalId, x.Spares environmentId signalId →
    loadSignalSnapshot environmentId signalId d.db =
      loadSignalSnapshot environmentId signalId x.start.db
  keyed : SnapshotsKeyed x.start.db.signalSnapshots → SnapshotsKeyed d.db.signalSnapshots
  stored : ∀ e ∈ x.environments, loadSignalSnapshot e.id driftSignalId d.db =
    some (x.verdictRow walks e (verdict e))
  /-- Only the clone source can be a source. -/
  source : ∀ e ∈ x.environments, verdict e = .source →
    x.environments.find? EnvironmentConfig.cloneSource = some e
  /-- Whatever is compared is compared with what is remembered of the source. -/
  compared : ∀ e ∈ x.environments, ∀ inventory other, verdict e = .compared inventory other →
    ∃ source, x.environments.find? EnvironmentConfig.cloneSource = some source ∧ e ≠ source ∧
      verdict source = .source ∧ Remembers d source.id inventory ∧ Remembers d e.id other

/-- Availability is as it was. -/
theorem Judged.available {x : Round} {walks : Walks} {verdict : EnvironmentConfig → DriftVerdict}
    {d : Daemon} (h : x.Judged walks verdict d) (environmentId : String) :
    loadSignalSnapshot environmentId availabilitySignalId d.db =
      loadSignalSnapshot environmentId availabilitySignalId x.start.db :=
  h.spared environmentId availabilitySignalId fun heq ↦ absurd heq (by decide)

end Round

section Reading

variable {codec : Codec} {texts : Texts} {credentials : CredentialStore}
  {environment : EnvironmentConfig} {observedAt maxAgeSecs : Int} {d : Daemon}

/-- A program of the client reads. -/
theorem viaClient_reads {α : Type} (environmentId : String) (x : ClientM α) (d : Daemon) :
    Triple (fun t ↦ t = d) (viaClient x)
      (fun _ t ↦ ReadOf environmentId d t ∧ t.inventories = d.inventories)
      (fun _ t ↦ ReadOf environmentId d t ∧ t.inventories = d.inventories) := by
  refine (viaClient_triple (Triple.self x d.session)).weaken (fun _ h ↦ h) ?_ ?_ <;>
  · rintro _ t ⟨ht, -⟩
    rw [ht]
    exact ⟨⟨rfl, fun _ _ ↦ rfl⟩, rfl⟩

theorem fetchBuild_reads (environmentId : String) :
    Triple (fun t ↦ t = d) (fetchBuild codec credentials environment observedAt maxAgeSecs)
      (fun _ t ↦ ReadOf environmentId d t ∧ t.inventories = d.inventories)
      (fun _ t ↦ ReadOf environmentId d t ∧ t.inventories = d.inventories) := by
  refine Triple.bind _ (viaStore_query _) fun reused ↦ ?_
  cases reused with
  | some build =>
    refine Triple.pure ?_
    rintro _ ⟨-, rfl⟩
    exact ⟨.refl _ _, rfl⟩
  | none =>
    refine Triple.bind _ ((viaClient_reads environmentId _ d).weaken (fun _ h ↦ h.2)
      (fun _ _ h ↦ h) fun _ _ h ↦ h) fun response ↦ Triple.pure fun _ ht ↦ ht

/-- An inventory that is fetched is remembered. -/
theorem fetchInventory_reads :
    Triple (fun t ↦ t = d) (fetchInventory codec texts credentials environment observedAt)
      (fun read t ↦ ReadOf environment.id d t ∧
        ∃ entry, t.inventories environment.id = some entry ∧ entry.plugins = read.1 ∧
          entry.truncated = read.2)
      (fun _ t ↦ ReadOf environment.id d t) := by
  refine Triple.bind _ ((viaClient_reads environment.id _ d).weaken (fun _ h ↦ h)
    (fun _ _ h ↦ h) fun _ _ h ↦ h.1) fun plugins ↦ Triple.of_forall fun d₁ hd₁ ↦ ?_
  refine Triple.bind _ ((viaClient_reads environment.id _ d₁).weaken (fun _ h ↦ h)
    (fun _ _ h ↦ h) ?_) fun storeApps ↦ Triple.of_forall fun d₂ hd₂ ↦ ?_
  · rintro _ t ⟨ht, -⟩
    exact hd₁.1.trans ht
  refine Triple.modify_bind (Triple.pure ?_)
  rintro _ ⟨_, rfl, rfl⟩
  refine ⟨⟨hd₂.1.db.trans hd₁.1.db, fun id hid ↦ ?_⟩, _, Function.update_self _ _ _, rfl, rfl⟩
  exact (Function.update_of_ne hid _ _).trans ((congrFun hd₂.2 id).trans (congrFun hd₁.2 id))

/-- The inventory of an Environment is the one that is remembered. -/
theorem envInventory_reads :
    Triple (fun t ↦ t = d)
      (envInventory codec texts credentials environment observedAt maxAgeSecs)
      (fun inventory t ↦ ReadOf environment.id d t ∧ Remembers t environment.id inventory)
      (fun _ t ↦ ReadOf environment.id d t) := by
  refine Triple.get_bind fun d hd ↦ ?_
  subst hd
  have hbuild : ∀ read : List PluginRecord × Bool, Triple
      (fun t ↦ ReadOf environment.id d t ∧ ∃ entry, t.inventories environment.id = some entry ∧
        entry.plugins = read.1 ∧ entry.truncated = read.2)
      (do
        let build ← fetchBuild codec credentials environment observedAt maxAgeSecs
        pure { build, plugins := read.1, truncated := read.2 : EnvInventory })
      (fun inventory t ↦ ReadOf environment.id d t ∧ Remembers t environment.id inventory)
      (fun _ t ↦ ReadOf environment.id d t) := by
    intro read
    refine Triple.of_forall fun d₁ hd₁ ↦ ?_
    refine Triple.bind _ ((fetchBuild_reads environment.id).weaken (fun _ h ↦ h)
      (fun _ _ h ↦ h) ?_) fun build ↦ Triple.pure ?_
    · rintro _ t ⟨ht, -⟩
      exact hd₁.1.trans ht
    · rintro t ⟨ht, hsame⟩
      obtain ⟨entry, hentry, hplugins, htruncated⟩ := hd₁.2
      exact ⟨hd₁.1.trans ht, entry, (congrFun hsame _).trans hentry, hplugins, htruncated⟩
  cases hfresh : freshInventory environment.id observedAt d with
  | some entry =>
    refine Triple.bind _ (Triple.pure ?_) hbuild
    rintro _ rfl
    exact ⟨.refl _ _, entry, (Option.filter_eq_some_iff.mp hfresh).1, rfl, rfl⟩
  | none => exact Triple.bind _ fetchInventory_reads hbuild

end Reading

namespace Round

variable {x : Round} {walks : Walks} {environment source : EnvironmentConfig} {d t : Daemon}
  {read : Option (EnvironmentConfig × EnvInventory)} {pending : List EnvironmentConfig}
  {verdict : DriftVerdict} {E : String → Daemon → Prop} {maxAgeSecs : Int}

/-- The daemon after it stored a verdict. -/
def store (x : Round) (walks : Walks) (environment : EnvironmentConfig) (verdict : DriftVerdict)
    (d : Daemon) : Daemon :=
  { d with
    db := commit (Statement.upsertSignalSnapshot (x.verdictRow walks environment verdict)) d.db }

theorem load_store (environmentId signalId : String) :
    loadSignalSnapshot environmentId signalId (x.store walks environment verdict d).db =
      if (environment.id, driftSignalId) = (environmentId, signalId) then
        some (x.verdictRow walks environment verdict)
      else loadSignalSnapshot environmentId signalId d.db :=
  loadSignalSnapshot_upsert _ _

/-- Rows that are none of the collect's are left alone. -/
theorem load_store_spared {environmentId signalId : String} (hmem : environment ∈ x.environments)
    (h : x.Spares environmentId signalId) :
    loadSignalSnapshot environmentId signalId (x.store walks environment verdict d).db =
      loadSignalSnapshot environmentId signalId d.db := by
  rw [load_store, if_neg]
  intro hkey
  obtain ⟨rfl, rfl⟩ := Prod.mk.inj hkey
  exact h rfl (List.mem_map_of_mem hmem)

theorem keyed_store (h : SnapshotsKeyed d.db.signalSnapshots) :
    SnapshotsKeyed (x.store walks environment verdict d).db.signalSnapshots :=
  nodup_upsert h

/-- A verdict fits as long as what it compared is remembered. -/
theorem Fits.congr (h : Fits read d environment verdict)
    (henv : t.inventories environment.id = d.inventories environment.id)
    (hsource : ∀ source inventory, read = some (source, inventory) →
      t.inventories source.id = d.inventories source.id) : Fits read t environment verdict := by
  cases verdict with
  | compared inventory other =>
    obtain ⟨source, hread, hne, hremembers, hother⟩ := h
    refine ⟨source, hread, hne, ?_, ?_⟩
    · rw [Remembers, hsource source inventory hread]
      exact hremembers
    · rw [Remembers, henv]
      exact hother
  | _ => exact h

/-- What a turn comes to: it reads, and then stores its verdict. -/
structure Turn (x : Round) (walks : Walks) (inventory : Option EnvInventory)
    (environment : EnvironmentConfig) (d t : Daemon) (verdict : DriftVerdict) (mid : Daemon) :
    Prop where
  reads : ReadOf environment.id d mid
  stores : t = x.store walks environment verdict mid
  other : verdict ≠ .source
  compared : ∀ i other, verdict = .compared i other →
    inventory = some i ∧ Remembers mid environment.id other

theorem collectOther_turns (inventory : Option EnvInventory) :
    Triple (fun t ↦ t = d)
      (collectOther x.codec x.texts x.credentials walks environment x.observedAt maxAgeSecs
        inventory)
      (fun _ t ↦ ∃ verdict mid, x.Turn walks inventory environment d t verdict mid) E := by
  have hpersist : ∀ (verdict : DriftVerdict) (mid : Daemon), ReadOf environment.id d mid →
      verdict ≠ .source → (∀ i other, verdict = .compared i other →
        inventory = some i ∧ Remembers mid environment.id other) →
      Triple (fun t ↦ t = mid)
        (viaStore (persistSignalSnapshot x.texts.value environment.id driftSignalId x.observedAt
          (verdict.observation walks environment).1 (verdict.observation walks environment).2))
        (fun _ t ↦ ∃ verdict mid, x.Turn walks inventory environment d t verdict mid) E := by
    rintro verdict mid hreads hother hcompared _ rfl
    exact ⟨verdict, _, hreads, rfl, hother, hcompared⟩
  refine Triple.bind _ (viaStore_query _) fun gone ↦ Triple.of_forall ?_
  rintro _ ⟨-, rfl⟩
  cases gone with
  | some reachability =>
    exact hpersist (.skipped reachability.asStr) _ (.refl _ _) (fun h ↦ by cases h)
      fun _ _ h ↦ by cases h
  | none =>
    cases inventory with
    | none =>
      exact hpersist (.down "clone source unreachable") _ (.refl _ _) (fun h ↦ by cases h)
        fun _ _ h ↦ by cases h
    | some inventory =>
      refine Triple.bind _ (caught_triple envInventory_reads) fun result ↦
        Triple.of_forall fun mid hmid ↦ ?_
      cases result with
      | ok other =>
        refine hpersist (.compared inventory other) mid hmid.1 (fun h ↦ by cases h) ?_
        rintro _ _ ⟨⟩
        exact ⟨rfl, hmid.2⟩
      | error message =>
        exact hpersist (.down message) mid hmid (fun h ↦ by cases h) fun _ _ h ↦ by cases h

/-- The source itself, with its inventory if it was read. -/
theorem collectSource_turns (walks : Walks) :
    Triple (fun t ↦ t = d)
      (collectSource x.codec x.texts x.credentials source x.observedAt maxAgeSecs)
      (fun inventory t ↦ ∃ mid, ReadOf source.id d mid ∧ match inventory with
        | some inventory => Remembers mid source.id inventory ∧ t = x.store walks source .source mid
        | none => ∃ message, t = x.store walks source (.down message) mid) E := by
  refine Triple.bind _ (caught_triple envInventory_reads) fun result ↦
    Triple.of_forall fun mid hmid ↦ ?_
  cases result with
  | ok inventory =>
    refine Triple.bind (fun _ t ↦ t = x.store walks source .source mid) ?_ fun _ ↦ Triple.pure ?_
    · rintro _ rfl
      rfl
    · rintro _ rfl
      exact ⟨mid, hmid.1, hmid.2, rfl⟩
  | error message =>
    refine Triple.bind (fun _ t ↦ t = x.store walks source (.down message) mid) ?_ fun _ ↦
      Triple.pure ?_
    · rintro _ rfl
      rfl
    · rintro _ rfl
      exact ⟨mid, hmid, message, rfl⟩

section Runs

variable (hids : (x.environments.map EnvironmentConfig.id).Nodup)

/-- A turn on another Environment keeps a verdict. -/
theorem HasVerdict.turn {e : EnvironmentConfig} {v : DriftVerdict} {mid : Daemon}
    {inventory : Option EnvInventory} (h : x.HasVerdict walks read d e v)
    (hturn : x.Turn walks inventory environment d t verdict mid) (hne : e.id ≠ environment.id)
    (hsource : ∀ source i, read = some (source, i) → source.id ≠ environment.id) :
    x.HasVerdict walks read t e v := by
  rw [hturn.stores]
  refine ⟨?_, h.2.congr (hturn.reads.inventories _ hne) fun source i hread ↦
    hturn.reads.inventories _ (hsource source i hread)⟩
  rw [load_store, if_neg fun hkey ↦ hne (Prod.mk.inj hkey).1.symm, hturn.reads.db]
  exact h.1

include hids

theorem Judging.turn {mid : Daemon} (h : x.Judging walks read (environment :: pending) d)
    (hmem : environment ∈ x.environments)
    (hread : ∀ source i, read = some (source, i) →
      source ∈ x.environments ∧ environment ≠ source)
    (hturn : x.Turn walks (read.map Prod.snd) environment d t verdict mid) :
    x.Judging walks read pending t := by
  have hne : ∀ e ∈ x.environments, environment ≠ e → e.id ≠ environment.id := fun e he hne hid ↦
    hne (List.inj_on_of_nodup_map hids hmem he hid.symm)
  have hsource : ∀ source i, read = some (source, i) → source.id ≠ environment.id :=
    fun source i hsome ↦ hne source (hread source i hsome).1 (hread source i hsome).2
  have hremembers : ∀ source i, read = some (source, i) → Remembers t source.id i := by
    intro source i hsome
    rw [hturn.stores]
    show Remembers mid source.id i
    rw [Remembers, hturn.reads.inventories _ (hsource source i hsome)]
    exact (h.source source i hsome).1
  refine ⟨fun id signalId hspares ↦ ?_, fun hkeyed ↦ ?_, fun e he hdone ↦ ?_, fun source i hsome ↦
    ⟨hremembers source i hsome, (h.source source i hsome).2.turn hturn (hsource source i hsome)
      hsource⟩⟩
  · rw [hturn.stores, load_store_spared hmem hspares, hturn.reads.db]
    exact h.spared id signalId hspares
  · rw [hturn.stores]
    exact keyed_store (hturn.reads.db ▸ h.keyed hkeyed)
  · by_cases heq : environment = e
    · subst heq
      refine ⟨verdict, ?_, ?_⟩
      · rw [hturn.stores, load_store, if_pos rfl]
      · cases verdict with
        | source => exact absurd rfl hturn.other
        | compared i other =>
          obtain ⟨hinventory, hother⟩ := hturn.compared i other rfl
          obtain ⟨⟨source, i⟩, hsome, rfl⟩ := Option.map_eq_some_iff.mp hinventory
          refine ⟨source, hsome, (hread source i hsome).2, hremembers source i hsome, ?_⟩
          rw [hturn.stores]
          exact hother
        | _ => trivial
    · obtain ⟨v, hv⟩ := h.judged e he fun hpending ↦
        (List.mem_cons.mp hpending).elim (fun h ↦ heq h.symm) hdone
      exact ⟨v, hv.turn hturn (hne e he heq) hsource⟩

/-- After the turn of the source there is a verdict on it, and on no other. -/
theorem judging_of_source {mid : Daemon} {inventory : Option EnvInventory}
    (hmem : source ∈ x.environments) (hreads : ReadOf source.id x.start mid)
    (hstored : match inventory with
      | some inventory => Remembers mid source.id inventory ∧ t = x.store walks source .source mid
      | none => ∃ message, t = x.store walks source (.down message) mid) :
    x.Judging walks (inventory.map (source, ·)) (x.environments.filter fun e ↦ e.id ≠ source.id)
      t := by
  have hown : ∀ e ∈ x.environments, e ∉ x.environments.filter (fun e ↦ e.id ≠ source.id) →
      e = source := by
    intro e he hdone
    refine List.inj_on_of_nodup_map hids he hmem (by_contra fun hne ↦ hdone ?_)
    exact List.mem_filter.mpr ⟨he, decide_eq_true hne⟩
  have hkept : ∀ verdict, (∀ id signalId, x.Spares id signalId →
      loadSignalSnapshot id signalId (x.store walks source verdict mid).db =
        loadSignalSnapshot id signalId x.start.db) ∧
      (SnapshotsKeyed x.start.db.signalSnapshots →
        SnapshotsKeyed (x.store walks source verdict mid).db.signalSnapshots) :=
    fun verdict ↦ ⟨fun id signalId hspares ↦ by rw [load_store_spared hmem hspares, hreads.db],
      fun hkeyed ↦ keyed_store (hreads.db ▸ hkeyed)⟩
  cases inventory with
  | some inventory =>
    obtain ⟨hremembers, rfl⟩ := hstored
    have hverdict : x.HasVerdict walks (some (source, inventory))
        (x.store walks source .source mid) source .source :=
      ⟨by rw [load_store, if_pos rfl], inventory, rfl⟩
    refine ⟨(hkept _).1, (hkept _).2, fun e he hdone ↦ ?_, ?_⟩
    · rw [hown e he hdone]
      exact ⟨.source, hverdict⟩
    · rintro _ _ ⟨⟩
      exact ⟨hremembers, hverdict⟩
  | none =>
    obtain ⟨message, rfl⟩ := hstored
    refine ⟨(hkept _).1, (hkept _).2, fun e he hdone ↦ ?_, fun _ _ h ↦ by cases h⟩
    rw [hown e he hdone]
    exact ⟨.down message, by rw [load_store, if_pos rfl], trivial⟩

omit hids in
/-- A collect that is done has a verdict on every Environment. -/
theorem Judging.judged_all (h : x.Judging walks read [] d)
    (hread : ∀ source i, read = some (source, i) → source ∈ x.environments ∧
      x.environments.find? EnvironmentConfig.cloneSource = some source) :
    ∃ verdict, x.Judged walks verdict d := by
  have hverdicts : ∀ e, ∃ v, e ∈ x.environments → x.HasVerdict walks read d e v ∧
      ∀ i, read = some (e, i) → v = .source := by
    intro e
    by_cases he : e ∈ x.environments
    · by_cases hsource : ∃ i, read = some (e, i)
      · obtain ⟨i, hsome⟩ := hsource
        exact ⟨.source, fun _ ↦ ⟨(h.source e i hsome).2, fun _ _ ↦ rfl⟩⟩
      · obtain ⟨v, hv⟩ := h.judged e he List.not_mem_nil
        exact ⟨v, fun _ ↦ ⟨hv, fun i hsome ↦ absurd ⟨i, hsome⟩ hsource⟩⟩
    · exact ⟨.source, fun hmem ↦ absurd hmem he⟩
  choose verdict hverdict using hverdicts
  refine ⟨verdict, h.spared, h.keyed, fun e he ↦ (hverdict e he).1.1, fun e he hsource ↦ ?_,
    fun e he i other hcompared ↦ ?_⟩
  · have hfits := (hverdict e he).1.2
    rw [hsource] at hfits
    obtain ⟨i, hsome⟩ := hfits
    exact (hread e i hsome).2
  · have hfits := (hverdict e he).1.2
    rw [hcompared] at hfits
    obtain ⟨source, hsome, hne, hremembers, hother⟩ := hfits
    obtain ⟨hmem, hfind⟩ := hread source i hsome
    exact ⟨source, hfind, hne, (hverdict source hmem).2 i hsome, hremembers, hother⟩

theorem persistAllSkipped_judges {reason : EnvironmentConfig → String} :
    Triple (fun d ↦ d = x.start)
      (persistAllSkipped x.texts x.environments x.observedAt reason)
      (fun _ d ↦ ∃ verdict, x.Judged walks verdict d) E := by
  have hloop : Triple (x.Judging walks none x.environments)
      (persistAllSkipped x.texts x.environments x.observedAt reason)
      (fun _ ↦ x.Judging walks none []) E := by
    refine forEach_triple (x.Judging walks none) x.environments fun e he rest ↦ ?_
    intro d hd
    have hturn : x.Turn walks none e d (x.store walks e (.skipped (reason e)) d)
        (.skipped (reason e)) d :=
      ⟨.refl _ _, rfl, (fun h ↦ by cases h), fun _ _ h ↦ by cases h⟩
    exact hd.turn hids he (fun _ _ h ↦ by cases h) hturn
  refine hloop.weaken ?_ (fun _ _ h ↦ h.judged_all fun _ _ h ↦ by cases h) fun _ _ h ↦ h
  rintro _ rfl
  exact ⟨fun _ _ _ ↦ rfl, id, fun e he hdone ↦ absurd he hdone, fun _ _ h ↦ by cases h⟩

/-- Each way that a collect of drift can take has a verdict on every Environment. -/
theorem driftCollect_judges {pollIntervalSecs : Nat} :
    Triple (fun d ↦ d = x.start)
      (driftCollect x.codec x.texts x.credentials walks x.environments pollIntervalSecs
        x.observedAt)
      (fun _ d ↦ ∃ verdict, x.Judged walks verdict d) E := by
  unfold driftCollect
  cases hfind : x.environments.find? EnvironmentConfig.cloneSource with
  | none => exact persistAllSkipped_judges hids
  | some source =>
    dsimp only
    split
    · exact persistAllSkipped_judges hids
    refine Triple.bind _ (viaStore_query _) fun gone ↦ Triple.of_forall fun d hd ↦ ?_
    obtain ⟨-, rfl⟩ := hd
    cases gone with
    | some reachability => exact persistAllSkipped_judges hids
    | none =>
      have hmem : source ∈ x.environments := List.mem_of_find?_eq_some hfind
      let others := x.environments.filter fun e ↦ e.id ≠ source.id
      refine Triple.bind (fun inventory ↦ x.Judging walks (inventory.map (source, ·)) others)
        ((collectSource_turns walks).weaken (fun _ h ↦ h) ?_ fun _ _ h ↦ h) fun inventory ↦ ?_
      · rintro inventory t ⟨mid, hreads, hstored⟩
        exact judging_of_source hids hmem hreads hstored
      · have hread : ∀ source' i, inventory.map (source, ·) = some (source', i) →
            source' = source := by
          rintro source' i hsome
          obtain ⟨_, -, heq⟩ := Option.map_eq_some_iff.mp hsome
          exact (Prod.mk.inj heq).1.symm
        have hloop := forEach_triple (E := E) (x.Judging walks (inventory.map (source, ·))) others
          (f := fun e ↦ collectOther x.codec x.texts x.credentials walks e x.observedAt
            (maxBuildAgeSecs pollIntervalSecs) inventory) fun e he rest ↦ by
              refine Triple.of_forall fun d hd ↦ ?_
              refine (collectOther_turns inventory).weaken (fun _ h ↦ h) ?_ fun _ _ h ↦ h
              rintro _ t ⟨verdict, mid, hturn⟩
              obtain ⟨he, hne⟩ := List.mem_filter.mp he
              have hinventory : (inventory.map (source, ·)).map Prod.snd = inventory := by
                cases inventory <;> rfl
              refine hd.turn hids he (fun source' i hsome ↦ ?_) (hinventory.symm ▸ hturn)
              obtain rfl := hread source' i hsome
              exact ⟨hmem, fun heq ↦ (of_decide_eq_true hne) (congrArg EnvironmentConfig.id heq)⟩
        refine hloop.weaken (fun _ h ↦ h) (fun _ t ht ↦ ht.judged_all fun source' i hsome ↦ ?_)
          fun _ _ h ↦ h
        obtain rfl := hread source' i hsome
        exact ⟨hmem, hfind⟩

end Runs

end Round

end Daku.Signals
