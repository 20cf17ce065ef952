import Daku.Signals.LastCloneCollector
import Daku.Signals.Rounds

/-!
# Every Environment is covered

A collect of `DriftCollector` (`crates/daku-core/src/drift.rs:108–308`) or of `LastCloneCollector`
(`last_clone.rs:171–324`) leaves a snapshot of each of its Environments, whichever of its ends it
takes. It asks only Environments that availability did not lately find asleep or unreachable, and
keeps an inventory only if both its pages were read.
-/

namespace Daku.Signals

open Daku.Base Daku.Protocol Daku.Http Daku.Collector Daku.Store Daku.Health

variable {x : Round} {may : EnvironmentConfig → Prop} {pending pending' : List EnvironmentConfig}
  {environment source : EnvironmentConfig} {E : String → Daemon → Prop}

/-- A loop that writes a snapshot of each Environment. -/
theorem forEach_persist_triple {f : EnvironmentConfig → CollectM Unit}
    (h : ∀ e ∈ pending, ∀ rest,
      Triple (x.Underway may (e :: rest)) (f e) (fun _ ↦ x.Underway may rest) E) :
    Triple (x.Underway may pending) (forEach pending f) (fun _ ↦ x.Underway may []) E :=
  forEach_triple (x.Underway may) pending h

section Drift

theorem driftSignalId_ne : driftSignalId ≠ availabilitySignalId := by decide

/-- Both pages are read before an inventory is kept. -/
theorem fetchInventory_triple (hmay : may environment) :
    Triple (x.Underway may pending)
      (fetchInventory x.codec x.texts x.credentials environment x.observedAt)
      (fun _ ↦ x.Underway may pending) (fun _ ↦ x.Underway may pending) := by
  refine Triple.of_forall fun d hd ↦ ?_
  have hafter := hd.request hmay sysPluginsPath
  refine Triple.bind _ ((x.fetchPluginPage_triple environment sysPluginsPath
    hd.sent_le).weaken (fun _ h ↦ h) (fun _ _ h ↦ h) ?_) fun plugins ↦
      Triple.of_forall fun d₁ hd₁ ↦ ?_
  · rintro e _ rfl
    exact hafter
  obtain ⟨rfl, hplugins⟩ := hd₁
  have hafter' := hafter.request hmay sysStoreAppPath
  refine Triple.bind _ ((x.fetchPluginPage_triple environment sysStoreAppPath
    hafter.sent_le).weaken (fun _ h ↦ h) (fun _ _ h ↦ h) ?_) fun storeApps ↦
      Triple.of_forall fun d₂ hd₂ ↦ ?_
  · rintro e _ rfl
    exact hafter'
  obtain ⟨rfl, hstoreApps⟩ := hd₂
  refine Triple.modify_bind (Triple.pure ?_)
  rintro _ ⟨_, rfl, rfl⟩
  exact hafter'.keep hmay ⟨plugins, storeApps, hplugins.after, hstoreApps, rfl⟩

theorem fetchBuild_triple {maxAgeSecs : Int} (hmay : may environment) :
    Triple (x.Underway may pending)
      (fetchBuild x.codec x.credentials environment x.observedAt maxAgeSecs)
      (fun _ ↦ x.Underway may pending) (fun _ ↦ x.Underway may pending) := by
  refine Triple.bind _ (viaStore_query _) fun reused ↦ ?_
  cases reused with
  | some build => exact Triple.pure fun _ hd ↦ hd.2
  | none =>
    refine Triple.of_forall fun d hd ↦ ?_
    have hafter := hd.2.request hmay glideWarPath
    refine Triple.bind (fun _ ↦ x.Underway may pending)
      ((x.getPath_triple environment glideWarPath d).weaken (fun _ h ↦ h) ?_ ?_) fun response ↦
        Triple.pure fun _ ht ↦ ht
    · rintro response _ rfl
      exact hafter
    · rintro e _ rfl
      exact hafter

theorem envInventory_triple {maxAgeSecs : Int} (hmay : may environment) :
    Triple (x.Underway may pending)
      (envInventory x.codec x.texts x.credentials environment x.observedAt maxAgeSecs)
      (fun _ ↦ x.Underway may pending) (fun _ ↦ x.Underway may pending) := by
  refine Triple.get_bind fun d hd ↦ ?_
  have hbuild : ∀ read : List PluginRecord × Bool, Triple (x.Underway may pending)
      (do
        let build ← fetchBuild x.codec x.credentials environment x.observedAt maxAgeSecs
        pure { build, plugins := read.1, truncated := read.2 : EnvInventory })
      (fun _ ↦ x.Underway may pending) (fun _ ↦ x.Underway may pending) := fun read ↦
    Triple.bind _ (fetchBuild_triple hmay) fun build ↦ Triple.pure fun _ ht ↦ ht
  cases freshInventory environment.id x.observedAt d with
  | some entry =>
    refine Triple.bind (fun _ ↦ x.Underway may pending) (Triple.pure ?_) hbuild
    rintro _ rfl
    exact hd
  | none =>
    refine Triple.bind (fun _ ↦ x.Underway may pending) ((fetchInventory_triple hmay).weaken ?_
      (fun _ _ h ↦ h) fun _ _ h ↦ h) hbuild
    rintro _ rfl
    exact hd

section Turns

variable (hsignal : x.signalId = driftSignalId)

include hsignal

/-- The turn of another Environment, which is asked only if it is not gone. -/
theorem collectOther_triple {walks : Walks} {maxAgeSecs : Int} {inventory : Option EnvInventory}
    {rest : List EnvironmentConfig} (hmem : environment ∈ x.environments) :
    Triple (x.Underway x.Live (environment :: rest))
      (collectOther x.codec x.texts x.credentials walks environment x.observedAt maxAgeSecs
        inventory)
      (fun _ ↦ x.Underway x.Live rest) E := by
  have hpersist : ∀ {state : SignalState} {payload : Value},
      Triple (x.Underway x.Live (environment :: rest))
        (viaStore (persistSignalSnapshot x.texts.value environment.id driftSignalId x.observedAt
          state payload))
        (fun _ ↦ x.Underway x.Live rest) E :=
    x.persist_triple hsignal driftSignalId_ne mem_of_mem_cons_of_ne
  refine Triple.bind _ (viaStore_query _) fun gone ↦ Triple.of_forall fun d hd ↦ ?_
  obtain ⟨hgone, hd⟩ := hd
  have hfrom : ∀ {y : CollectM Unit}, Triple (x.Underway x.Live (environment :: rest)) y
      (fun _ ↦ x.Underway x.Live rest) E →
      Triple (fun t ↦ t = d) y (fun _ ↦ x.Underway x.Live rest) E := fun hy ↦
    hy.weaken (fun _ ht ↦ ht ▸ hd) (fun _ _ h ↦ h) fun _ _ h ↦ h
  cases gone with
  | some reachability => exact hfrom hpersist
  | none =>
    have hlive : x.Live environment := ⟨hmem, (hd.gone_eq environment.id).symm.trans hgone.symm⟩
    cases inventory with
    | none => exact hfrom hpersist
    | some inventory =>
      apply hfrom
      refine Triple.bind _ (caught_triple (envInventory_triple hlive)) fun read ↦ ?_
      cases read with
      | ok other => exact hpersist
      | error message => exact hpersist

/-- The source has its snapshot, with an inventory or without. -/
theorem collectSource_triple {maxAgeSecs : Int} (hmay : may source)
    (hpending : ∀ e ∈ pending, e.id ≠ source.id → e ∈ pending') :
    Triple (x.Underway may pending)
      (collectSource x.codec x.texts x.credentials source x.observedAt maxAgeSecs)
      (fun _ ↦ x.Underway may pending') E := by
  have hpersist : ∀ {state : SignalState} {payload : Value}, Triple (x.Underway may pending)
      (viaStore (persistSignalSnapshot x.texts.value source.id driftSignalId x.observedAt state
        payload))
      (fun _ ↦ x.Underway may pending') E :=
    x.persist_triple hsignal driftSignalId_ne hpending
  refine Triple.bind _ (caught_triple (envInventory_triple hmay)) fun read ↦ ?_
  cases read with
  | ok inventory => exact Triple.bind _ hpersist fun _ ↦ Triple.pure fun _ ht ↦ ht
  | error message => exact Triple.bind _ hpersist fun _ ↦ Triple.pure fun _ ht ↦ ht

theorem persistAllSkipped_triple {reason : EnvironmentConfig → String} :
    Triple (x.Underway may pending) (persistAllSkipped x.texts pending x.observedAt reason)
      (fun _ ↦ x.Underway may []) E :=
  forEach_persist_triple fun _ _ _ ↦
    x.persist_triple hsignal driftSignalId_ne mem_of_mem_cons_of_ne

/-- A collect in which nobody is asked. -/
theorem covers_of_persistAllSkipped {reason : EnvironmentConfig → String} :
    Triple (fun d ↦ d = x.start) (persistAllSkipped x.texts x.environments x.observedAt reason)
      (fun _ ↦ x.Covers) E := by
  refine (persistAllSkipped_triple hsignal).weaken ?_ (fun _ _ h ↦ h.covers_of_nobody)
    fun _ _ h ↦ h
  rintro _ rfl
  exact x.underway_start _

/-- Each way a collect of drift can take leads past every Environment. -/
theorem driftCollect_triple {walks : Walks} {pollIntervalSecs : Nat} :
    Triple (fun d ↦ d = x.start)
      (driftCollect x.codec x.texts x.credentials walks x.environments pollIntervalSecs
        x.observedAt)
      (fun _ ↦ x.Covers) E := by
  unfold driftCollect
  cases hsource : x.environments.find? EnvironmentConfig.cloneSource with
  | none => exact covers_of_persistAllSkipped hsignal
  | some source =>
    dsimp only
    split
    · exact covers_of_persistAllSkipped hsignal
    refine Triple.bind _ (viaStore_query _) fun gone ↦ Triple.of_forall fun d hd ↦ ?_
    obtain ⟨hgone, rfl⟩ := hd
    cases gone with
    | some reachability => exact covers_of_persistAllSkipped hsignal
    | none =>
      have hlive : x.Live source := ⟨List.mem_of_find?_eq_some hsource, hgone.symm⟩
      have hfilter : ∀ e ∈ x.environments, e.id ≠ source.id →
          e ∈ x.environments.filter fun e ↦ e.id ≠ source.id := by
        intro e he hne
        simp [he, hne]
      refine Triple.bind (fun _ ↦ x.Underway x.Live
        (x.environments.filter fun e ↦ e.id ≠ source.id)) ?_ fun inventory ↦ ?_
      · refine (collectSource_triple hsignal hlive hfilter).weaken ?_ (fun _ _ h ↦ h)
          fun _ _ h ↦ h
        rintro _ rfl
        exact x.underway_start _
      refine (forEach_persist_triple fun e he rest ↦ collectOther_triple hsignal
        (List.mem_of_mem_filter he)).weaken (fun _ h ↦ h) ?_ fun _ _ h ↦ h
      intro _ t ht
      refine ht.covers (fun _ h ↦ h) fun source' hsource' hnot ↦ ?_
      rw [hsource] at hsource'
      exact absurd (Option.some.inj hsource' ▸ hlive) hnot

end Turns

end Drift

section LastClone

theorem lastCloneSignalId_ne : lastCloneSignalId ≠ availabilitySignalId := by decide

variable (hsignal : x.signalId = lastCloneSignalId)

include hsignal

/-- The turn of one Environment. -/
theorem persistClone_triple {state : SignalState} {payload : Value}
    (hpending : ∀ e ∈ pending, e.id ≠ environment.id → e ∈ pending') :
    Triple (x.Underway may pending)
      (viaStore (persistSignalSnapshot x.texts.value environment.id lastCloneSignalId
        x.observedAt state payload))
      (fun _ ↦ x.Underway may pending') E :=
  x.persist_triple hsignal lastCloneSignalId_ne hpending

/-- The targets are all Environments but the source, if there is one. -/
theorem skipTargets_triple {sourceId : Option String} {reason : String} :
    Triple (x.Underway may (x.environments.filter fun e ↦ some e.id ≠ sourceId))
      (skipTargets x.texts x.environments sourceId x.observedAt reason)
      (fun _ ↦ x.Underway may []) E :=
  forEach_persist_triple fun _ _ _ ↦ persistClone_triple hsignal mem_of_mem_cons_of_ne

/-- The source is done with, and then the others. -/
theorem persistSource_triple {state : SignalState} {payload : Value} {y : Unit → CollectM Unit}
    (hy : Triple (x.Underway may (x.environments.filter fun e ↦ some e.id ≠ some source.id))
      (y ⟨⟩) (fun _ ↦ x.Underway may []) E) :
    Triple (x.Underway may x.environments)
      (viaStore (persistSignalSnapshot x.texts.value source.id lastCloneSignalId x.observedAt
        state payload) >>= y)
      (fun _ ↦ x.Underway may []) E := by
  refine Triple.bind _ (persistClone_triple hsignal fun e he hne ↦ ?_) fun _ ↦ hy
  simp [he, hne]

theorem persistUnanswered_triple {message : String} :
    Triple (x.Underway may x.environments)
      (persistUnanswered x.texts x.environments source x.observedAt message)
      (fun _ ↦ x.Underway may []) E :=
  persistSource_triple hsignal (skipTargets_triple hsignal)

theorem persistClones_triple {response : HttpResponse} :
    Triple (x.Underway may x.environments)
      (persistClones x.codec x.texts x.environments source x.observedAt response)
      (fun _ ↦ x.Underway may []) E := by
  apply persistSource_triple hsignal
  cases parseLastClones x.codec response.status response.body with
  | none => exact skipTargets_triple hsignal
  | some parsed =>
    have hsame : (x.environments.filter fun e ↦ some e.id ≠ some source.id) =
        x.environments.filter fun e ↦ e.id ≠ source.id := by
      simp
    rw [hsame]
    exact forEach_persist_triple fun _ _ _ ↦ persistClone_triple hsignal mem_of_mem_cons_of_ne

/-- Each way a collect of the last clones can take leads past every Environment. -/
theorem lastCloneCollect_triple :
    Triple (fun d ↦ d = x.start)
      (lastCloneCollect x.codec x.texts x.credentials x.environments x.observedAt)
      (fun _ ↦ x.Covers) E := by
  unfold lastCloneCollect
  cases hsource : x.environments.find? EnvironmentConfig.cloneSource with
  | none =>
    have hall : (x.environments.filter fun e ↦ some e.id ≠ none) = x.environments := by simp
    refine (skipTargets_triple hsignal).weaken ?_ (fun _ _ h ↦ h.covers_of_nobody) fun _ _ h ↦ h
    rintro _ rfl
    rw [hall]
    exact x.underway_start _
  | some source =>
    refine Triple.bind _ (viaStore_query _) fun gone ↦ Triple.of_forall fun d hd ↦ ?_
    obtain ⟨hgone, rfl⟩ := hd
    cases gone with
    | some reachability =>
      refine (persistSource_triple hsignal (skipTargets_triple hsignal)).weaken ?_
        (fun _ _ h ↦ h.covers_of_nobody) fun _ _ h ↦ h
      rintro _ rfl
      exact x.underway_start _
    | none =>
      have hlive : x.Live source := ⟨List.mem_of_find?_eq_some hsource, hgone.symm⟩
      have hrequest := (x.underway_start x.Live).request hlive cloneInstancePath
      have hcovers : ∀ {y : CollectM Unit}, Triple (x.Underway x.Live x.environments) y
          (fun _ ↦ x.Underway x.Live []) E →
          Triple (x.Underway x.Live x.environments) y (fun _ ↦ x.Covers) E := by
        intro y hy
        refine hy.weaken (fun _ h ↦ h) (fun _ t ht ↦ ht.covers (fun _ h ↦ h) ?_) fun _ _ h ↦ h
        intro source' hsource' hnot
        rw [hsource] at hsource'
        exact absurd (Option.some.inj hsource' ▸ hlive) hnot
      have hget : Triple (fun d ↦ d = x.start)
          (viaClient (getPath x.codec source x.credentials cloneInstancePath))
          (fun _ ↦ x.Underway x.Live x.environments)
          (fun _ ↦ x.Underway x.Live x.environments) :=
        (x.getPath_triple source cloneInstancePath x.start).weaken (fun _ h ↦ h)
          (fun _ _ ht ↦ ht ▸ hrequest) fun _ _ ht ↦ ht ▸ hrequest
      refine Triple.bind _ (caught_triple hget) fun answer ↦ ?_
      cases answer with
      | error message => exact hcovers (persistUnanswered_triple hsignal)
      | ok response =>
        dsimp only
        split
        · exact hcovers (persistClones_triple hsignal)
        · exact hcovers (persistUnanswered_triple hsignal)

end LastClone

/-- Whatever availability has stored and whatever the transport answers, a collect of drift and
one of the last clones end well. Every Environment of theirs has a snapshot of this collect then,
only Environments that were not gone were asked, nobody was if the clone source was gone, and an
inventory is kept only if both its pages were read. -/
theorem collects_cover_environments (codec : Codec) (texts : Texts)
    (credentials : CredentialStore) (walks : Walks) (environments : List EnvironmentConfig)
    (pollIntervalSecs : Nat) (observedAt : Int) (d : Daemon) :
    (∃ d', driftCollect codec texts credentials walks environments pollIntervalSecs observedAt d =
        .ok ⟨⟩ d' ∧
      Round.Covers
        ⟨codec, texts, credentials, environments, observedAt, driftSignalId, d⟩ d') ∧
    ∃ d', lastCloneCollect codec texts credentials environments observedAt d = .ok ⟨⟩ d' ∧
      Round.Covers
        ⟨codec, texts, credentials, environments, observedAt, lastCloneSignalId, d⟩ d' := by
  constructor
  · obtain ⟨_, d', hrun, hcovers⟩ := (@driftCollect_triple
      ⟨codec, texts, credentials, environments, observedAt, driftSignalId, d⟩ _ rfl walks
      pollIntervalSecs).ends rfl
    exact ⟨d', hrun, hcovers⟩
  · obtain ⟨_, d', hrun, hcovers⟩ := (@lastCloneCollect_triple
      ⟨codec, texts, credentials, environments, observedAt, lastCloneSignalId, d⟩ _ rfl).ends rfl
    exact ⟨d', hrun, hcovers⟩

end Daku.Signals
