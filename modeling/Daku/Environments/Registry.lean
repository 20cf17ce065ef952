import Daku.Collector.Collect

/-!
# Platform registry

Which Signals are registered for an Environment, from
`crates/daku-core/src/platform_registry.rs:37–76` and `build_default_loop`
(`collector.rs:521–661`).
-/

namespace Daku.Environments

open Daku.Protocol Daku.Collector

/-- Signal ids registered per Platform (`platform_registry.rs:38–56`). -/
def signalsFor : Platform → List String
  | .servicenow => ["availability", "jobs", "syslog", "mid_ecc", "outbound", "flow", "email",
      "upgrade", "sessions", "table_growth", "slow_txn", "update_sets"]
  | .http => ["http_probe"]
  | .github => ["actions"]

/-- Signals of the slow collectors (`collector.rs:646–660`). -/
def slowSignals : List String := ["drift", "last_clone", "scan"]

/-- Whether there is anything for the slow collectors (`platform_registry.rs:61–65`). -/
def needsSlowCollectors (environments : List EnvironmentConfig) : Bool :=
  environments.any fun e ↦ e.platform = .servicenow

/-- The Environments of the slow collectors (`platform_registry.rs:68–74`). -/
def servicenowSubset (environments : List EnvironmentConfig) : List EnvironmentConfig :=
  environments.filter fun e ↦ e.platform = .servicenow

/-- The fixed part of a compiled-in Signal: the platforms' own probes are not gated, and the
trend Signals keep samples. -/
def signal (id : String) : Signal where
  id := id
  gatedByAvailability := id ∉ ["availability", "http_probe", "actions"]
  keepsSamples := id ∈ ["availability", "jobs", "syslog"]

/-- A registered collector; inventory collectors probe on their own terms. -/
structure Collector where
  signal : Signal
  environments : List EnvironmentConfig
  inventory : Bool
  deriving DecidableEq, Repr

/-- The collectors of a loop (`collector.rs:521–661`). -/
def buildDefaultLoop (environments : List EnvironmentConfig) : List Collector :=
  (environments.flatMap fun e ↦ (signalsFor e.platform).map fun id ↦ ⟨signal id, [e], false⟩) ++
  if needsSlowCollectors environments then
    [⟨signal "drift", servicenowSubset environments, true⟩,
      ⟨signal "last_clone", servicenowSubset environments, true⟩,
      ⟨signal "scan", servicenowSubset environments, false⟩]
  else []

/-- A run is one of a registered collector. -/
def Collector.Runs (collector : Collector) : CollectorRun → Prop
  | .perEnvironment signal environments _ _ =>
    collector.inventory = false ∧ signal = collector.signal ∧
      environments = collector.environments
  | .inventory signalId environments _ _ =>
    collector.inventory = true ∧ signalId = collector.signal.id ∧
      environments = collector.environments

instance (collector : Collector) (run : CollectorRun) : Decidable (collector.Runs run) := by
  cases run <;> (unfold Collector.Runs; infer_instance)

/-- The loop registers a collector that runs so. -/
def Registered (environments : List EnvironmentConfig) (run : CollectorRun) : Prop :=
  ∃ collector ∈ buildDefaultLoop environments, collector.Runs run

instance (environments : List EnvironmentConfig) (run : CollectorRun) :
    Decidable (Registered environments run) := by
  unfold Registered
  infer_instance

/-- Signals the loop registers for an Environment: those of its Platform, and the slow ones for
ServiceNow. -/
def registeredSignals (platform : Platform) : List String :=
  signalsFor platform ++ if platform = .servicenow then slowSignals else []

/-- A registered run writes a registered Signal of configured Environments. -/
theorem Registered.covers {environments : List EnvironmentConfig} {run : CollectorRun}
    (h : Registered environments run) :
    ∀ e ∈ run.environments, e ∈ environments ∧ run.signalId ∈ registeredSignals e.platform := by
  obtain ⟨collector, hmem, hruns⟩ := h
  have hrun : run.signalId = collector.signal.id ∧ run.environments = collector.environments := by
    cases run with
    | perEnvironment => exact ⟨congrArg Signal.id hruns.2.1, hruns.2.2⟩
    | inventory => exact ⟨hruns.2.1, hruns.2.2⟩
  rw [hrun.1, hrun.2]
  intro e he
  rw [buildDefaultLoop, List.mem_append] at hmem
  rcases hmem with hmem | hmem
  · obtain ⟨e', he', hid⟩ := List.mem_flatMap.mp hmem
    obtain ⟨id, hsignal, rfl⟩ := List.mem_map.mp hid
    rw [List.mem_singleton.mp he]
    exact ⟨he', List.mem_append_left _ hsignal⟩
  · split at hmem
    · have hslow : collector.environments = servicenowSubset environments ∧
          collector.signal.id ∈ slowSignals := by
        simp only [List.mem_cons, List.not_mem_nil, or_false] at hmem
        rcases hmem with rfl | rfl | rfl <;> exact ⟨rfl, by simp [signal, slowSignals]⟩
      rw [hslow.1, servicenowSubset, List.mem_filter, decide_eq_true_eq] at he
      refine ⟨he.1, List.mem_append_right _ ?_⟩
      rw [if_pos he.2]
      exact hslow.2
    · cases hmem

end Daku.Environments
