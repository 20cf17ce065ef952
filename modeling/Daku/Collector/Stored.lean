import Daku.Collector.Collect

/-!
# What a collector stores

After `collect` of `crates/daku-core/src/collector.rs:161–239` every Environment of the collector
has the snapshot of its own turn: the outcome of its probe, or a skip if availability gates it.
-/

namespace Daku.Collector

open Daku.Base Daku.Protocol Daku.Store Daku.Health Prog

/-- What is stored of the outcome of a probe (`collector.rs:176–220`). -/
def outcomeStored : Except String Observation → SignalState × Value
  | .ok observation => (observation.state, observation.payload)
  | .error message => (.down, .object [("reachability", .string Reachability.unreachable.asStr),
      ("detail", .string message)])

/-- What is stored of a turn: a gated Environment is skipped (`collector.rs:167–175`). -/
def turnStored (gated : Option Reachability) (outcome : Except String Observation) :
    SignalState × Value :=
  match gated with
  | some reachability => (.skipped, .object [("skipped", .string reachability.asStr)])
  | none => outcomeStored outcome

section Stored

variable {fromStr : FromStr} {toText : ToText} {signal : Signal} {observedAt : Int}
  {probe : EnvironmentConfig → Except String Observation} {environmentId signalId : String}

/-- Looking a snapshot up after one was written. -/
theorem loadSignalSnapshot_upsert (row : SignalSnapshot) (db : Db) :
    loadSignalSnapshot environmentId signalId (commit (Statement.upsertSignalSnapshot row) db) =
      if row.key = (environmentId, signalId) then some row
      else loadSignalSnapshot environmentId signalId db :=
  find?_upsert _

/-- A turn leaves the snapshots of other Environments and Signals alone. -/
theorem loadSignalSnapshot_collectEnvironment_of_ne {e : EnvironmentConfig}
    (h : (e.id, signal.id) ≠ (environmentId, signalId)) (db : Db) :
    loadSignalSnapshot environmentId signalId
        ((collectEnvironment fromStr toText signal observedAt probe e).run db) =
      loadSignalSnapshot environmentId signalId db := by
  let Leaves : Statement → Prop := fun c ↦ ∀ t : Db,
    loadSignalSnapshot environmentId signalId (commit c t) =
      loadSignalSnapshot environmentId signalId t
  have hrow : ∀ (state : SignalState) (payload : Value),
      Only Leaves (persistSignalSnapshot toText e.id signal.id observedAt state payload) := by
    intro state payload
    apply only_issue
    intro t
    rw [loadSignalSnapshot_upsert]
    exact if_neg h
  have honly : Only Leaves (collectEnvironment fromStr toText signal observedAt probe e) := by
    refine only_bind (only_query _ _) fun gated ↦ ?_
    cases gated with
    | some reachability => exact hrow _ _
    | none =>
      dsimp only
      cases probe e with
      | error message => exact hrow _ _
      | ok observation =>
        refine only_bind (hrow _ _) fun _ ↦ ?_
        split
        · exact only_issue fun _ ↦ rfl
        · exact only_done _ _
  exact honly.frame _ (fun c hc t ↦ hc t) db

theorem loadSignalSnapshot_each_of_notMem {environments : List EnvironmentConfig}
    (h : environmentId ∉ environments.map EnvironmentConfig.id) (db : Db) :
    loadSignalSnapshot environmentId signal.id
        ((each environments (collectEnvironment fromStr toText signal observedAt probe)).run db) =
      loadSignalSnapshot environmentId signal.id db := by
  induction environments generalizing db with
  | nil => rfl
  | cons next rest ih =>
    obtain ⟨hnext, hrest⟩ := not_or.mp (mt List.mem_cons.mpr h)
    rw [run_each_cons, ih hrest, loadSignalSnapshot_collectEnvironment_of_ne]
    exact fun heq ↦ hnext (Prod.mk.inj heq).1.symm

/-- A turn stores its snapshot. -/
theorem loadSignalSnapshot_collectEnvironment (e : EnvironmentConfig) (db : Db) :
    loadSignalSnapshot e.id signal.id
        ((collectEnvironment fromStr toText signal observedAt probe e).run db) =
      let stored := turnStored (gate fromStr signal e.id observedAt db) (probe e)
      some ⟨e.id, signal.id, observedAt, stored.1.asStr, toText stored.2⟩ := by
  have hself : ∀ (row : SignalSnapshot) (t : Db), row.key = (e.id, signal.id) →
      loadSignalSnapshot e.id signal.id (commit (Statement.upsertSignalSnapshot row) t) =
        some row :=
    fun row t hkey ↦ by rw [loadSignalSnapshot_upsert, if_pos hkey]
  rw [collectEnvironment, run_bind, result_query]
  cases gate fromStr signal e.id observedAt db with
  | some reachability => exact hself _ _ rfl
  | none =>
    dsimp only
    cases probe e with
    | error message => exact hself _ _ rfl
    | ok observation =>
      dsimp only
      rw [run_bind]
      split
      · exact hself _ _ rfl
      · exact hself _ _ rfl

/-- The gate reads the availability snapshot only. -/
theorem gate_congr {db db' : Db} (h : loadSignalSnapshot environmentId availabilitySignalId db =
    loadSignalSnapshot environmentId availabilitySignalId db') :
    gate fromStr signal environmentId observedAt db =
      gate fromStr signal environmentId observedAt db' := by
  simp only [gate, recentReachability, h]

/-- A collector of another Signal than availability stores the snapshot of every turn, gated as
the Environment was before it ran. -/
theorem loadSignalSnapshot_collect (hsignal : signal.id ≠ availabilitySignalId)
    {environments : List EnvironmentConfig}
    (hnodup : (environments.map EnvironmentConfig.id).Nodup) {e : EnvironmentConfig}
    (he : e ∈ environments) (db : Db) :
    loadSignalSnapshot e.id signal.id ((collect fromStr toText
        (.perEnvironment signal environments observedAt probe)).run db) =
      let stored := turnStored (gate fromStr signal e.id observedAt db) (probe e)
      some ⟨e.id, signal.id, observedAt, stored.1.asStr, toText stored.2⟩ := by
  have hprune : ∀ t : Db, loadSignalSnapshot e.id signal.id ((if signal.keepsSamples then
      issue (.deleteSignalSamplesBefore (satSub observedAt sampleRetentionSecs)) else
      pure () : DbProg Unit).run t) = loadSignalSnapshot e.id signal.id t := by
    intro t
    split <;> rfl
  rw [collect, run_bind]
  refine (hprune _).trans ?_
  induction environments generalizing db with
  | nil => cases he
  | cons first rest ih =>
    obtain ⟨hfirst, hnodup⟩ := List.nodup_cons.mp hnodup
    rw [run_each_cons]
    cases List.mem_cons.mp he with
    | inl heq =>
      -- Later turns are of other Environments.
      subst heq
      rw [loadSignalSnapshot_each_of_notMem hfirst, loadSignalSnapshot_collectEnvironment]
    | inr hmem =>
      have hgate : gate fromStr signal e.id observedAt
          ((collectEnvironment fromStr toText signal observedAt probe first).run db) =
          gate fromStr signal e.id observedAt db :=
        gate_congr (loadSignalSnapshot_collectEnvironment_of_ne
          (fun heq ↦ hsignal (Prod.mk.inj heq).2) db)
      rw [ih hnodup hmem, hgate]

end Stored

end Daku.Collector
