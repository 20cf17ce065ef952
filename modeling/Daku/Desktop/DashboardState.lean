import Daku.Wire.Message
import Mathlib.Logic.Function.Basic

/-!
# Dashboard state of a window

`DashboardState::apply`, `apply_all` and `select`, `src/dashboard_state.rs:527–643`, over the
fields they read and write. Mutes, the trend window and the selected card are the window's own
and no message touches them.
-/

namespace Daku.Desktop

open Daku.Protocol Daku.Wire
open Daku.Health (EnvironmentSummary HealthEventDto SignalEventDto)

/-- A snapshot with its parsed payload (`dashboard_state.rs:563–571`). -/
structure Snapshot where
  dto : SignalSnapshotDto
  payload : Value

/-- The fields of `DashboardState` that messages reach (`dashboard_state.rs:209–233`). -/
structure DashboardState where
  environments : List EnvironmentSummary
  selectedId : Option String
  snapshots : String → Option (String → Option Snapshot)
  samples : String × String → Option (List SamplePoint)
  healthEvents : String → Option (List HealthEventDto)
  signalEvents : String → Option (List SignalEventDto)
  rollups : String × String → Option (List RollupPoint)
  syncDrops : Nat

/-- `HashMap::retain` by a test on keys. -/
def retain {κ ν : Type} (keep : κ → Bool) (table : κ → Option ν) : κ → Option ν :=
  fun key ↦ if keep key then table key else none

/-- The snapshots of one message by Signal id, the last one of an id counting. -/
def collectSnapshots (fromStr : FromStr) (snapshots : List SignalSnapshotDto) :
    String → Option Snapshot :=
  snapshots.foldl (fun table snapshot ↦
    Function.update table snapshot.signalId
      (some ⟨snapshot, (fromStr snapshot.payloadJson).getD .null⟩)) fun _ ↦ none

namespace DashboardState

/-- `DashboardState::new` (`dashboard_state.rs:405–407`). -/
def new : DashboardState where
  environments := []
  selectedId := none
  snapshots := fun _ ↦ none
  samples := fun _ ↦ none
  healthEvents := fun _ ↦ none
  signalEvents := fun _ ↦ none
  rollups := fun _ ↦ none
  syncDrops := 0

/-- The list has an Environment of that id. -/
def lists (environments : List EnvironmentSummary) (id : String) : Bool :=
  environments.any fun e ↦ e.id = id

/-- One message (`dashboard_state.rs:537–625`). -/
def apply (fromStr : FromStr) (s : DashboardState) : ServerMessage → DashboardState
  | .environmentsUpdated environments =>
    { s with
      environments
      selectedId :=
        if s.selectedId.all fun id ↦ !lists environments id then
          environments.head?.map EnvironmentSummary.id
        else s.selectedId
      snapshots := retain (lists environments) s.snapshots
      samples := retain (fun key : String × String ↦ lists environments key.1) s.samples
      healthEvents := retain (lists environments) s.healthEvents
      signalEvents := retain (lists environments) s.signalEvents
      rollups := retain (fun key : String × String ↦ lists environments key.1) s.rollups }
  | .signalSnapshotsUpdated environmentId snapshots =>
    { s with
      snapshots :=
        Function.update s.snapshots environmentId (some (collectSnapshots fromStr snapshots)) }
  | .signalSamplesUpdated environmentId signalId points =>
    { s with samples := Function.update s.samples (environmentId, signalId) (some points) }
  | .healthEventsUpdated environmentId events =>
    { s with healthEvents := Function.update s.healthEvents environmentId (some events) }
  | .signalEventsUpdated environmentId events =>
    { s with signalEvents := Function.update s.signalEvents environmentId (some events) }
  | .signalRollupsUpdated environmentId signalId points =>
    { s with rollups := Function.update s.rollups (environmentId, signalId) (some points) }
  | .dashboardSyncNeeded dropped => { s with syncDrops := dropped }
  | _ => s

/-- Several messages in turn (`dashboard_state.rs:531–535`). -/
def applyAll (fromStr : FromStr) (s : DashboardState) (messages : List ServerMessage) :
    DashboardState :=
  messages.foldl (apply fromStr) s

/-- Select a listed Environment (`dashboard_state.rs:633–641`). -/
def select (s : DashboardState) (id : String) : DashboardState :=
  if lists s.environments id then { s with selectedId := some id } else s

theorem lists_iff {environments : List EnvironmentSummary} {id : String} :
    lists environments id = true ↔ id ∈ environments.map EnvironmentSummary.id := by
  simp [lists]

/-- The state has no data of Environments it does not list. -/
structure OnlyListed (s : DashboardState) : Prop where
  snapshots : ∀ id, s.snapshots id ≠ none → lists s.environments id
  samples : ∀ key, s.samples key ≠ none → lists s.environments key.1
  healthEvents : ∀ id, s.healthEvents id ≠ none → lists s.environments id
  signalEvents : ∀ id, s.signalEvents id ≠ none → lists s.environments id
  rollups : ∀ key, s.rollups key ≠ none → lists s.environments key.1

/-- The selection is empty or a listed Environment. -/
def SelectedListed (s : DashboardState) : Prop :=
  ∀ id, s.selectedId = some id → lists s.environments id

/-- The state shows the message: its slot holds what the message says. -/
def Shows (fromStr : FromStr) (s : DashboardState) : ServerMessage → Prop
  | .environmentsUpdated environments => s.environments = environments
  | .signalSnapshotsUpdated environmentId snapshots =>
    s.snapshots environmentId = some (collectSnapshots fromStr snapshots)
  | .signalSamplesUpdated environmentId signalId points =>
    s.samples (environmentId, signalId) = some points
  | .healthEventsUpdated environmentId events => s.healthEvents environmentId = some events
  | .signalEventsUpdated environmentId events => s.signalEvents environmentId = some events
  | .signalRollupsUpdated environmentId signalId points =>
    s.rollups (environmentId, signalId) = some points
  | _ => True

/-- Two states hold the same in a slot. -/
def AgreeOn (s t : DashboardState) : Slot → Prop
  | .environments => s.environments = t.environments
  | .snapshots environmentId => s.snapshots environmentId = t.snapshots environmentId
  | .samples environmentId signalId =>
    s.samples (environmentId, signalId) = t.samples (environmentId, signalId)
  | .healthEvents environmentId => s.healthEvents environmentId = t.healthEvents environmentId
  | .signalEvents environmentId => s.signalEvents environmentId = t.signalEvents environmentId
  | .rollups environmentId signalId =>
    s.rollups (environmentId, signalId) = t.rollups (environmentId, signalId)

section Lemmas

variable {fromStr : FromStr} {s t : DashboardState} {m : ServerMessage}

private theorem retain_ne_none {κ ν : Type} (keep : κ → Bool) (table : κ → Option ν)
    (key : κ) (h : retain keep table key ≠ none) : keep key = true := by
  by_contra hkeep
  exact h (if_neg hkeep)

/-- Every list of Environments removes what it does not list. -/
theorem onlyListed_apply (environments : List EnvironmentSummary) :
    OnlyListed (apply fromStr s (.environmentsUpdated environments)) :=
  ⟨retain_ne_none _ _, retain_ne_none (fun key : String × String ↦ lists environments key.1) _,
    retain_ne_none _ _, retain_ne_none _ _,
    retain_ne_none (fun key : String × String ↦ lists environments key.1) _⟩

/-- No message makes the selection stale. -/
theorem SelectedListed.apply (h : SelectedListed s) (m : ServerMessage) :
    SelectedListed (apply fromStr s m) := by
  cases m with
  | environmentsUpdated environments =>
    intro id hid
    simp only [DashboardState.apply] at hid ⊢
    split at hid
    · obtain ⟨e, he, rfl⟩ := Option.map_eq_some_iff.mp hid
      exact lists_iff.mpr (List.mem_map_of_mem (List.mem_of_mem_head? he))
    · next hstale =>
      rw [hid] at hstale
      simpa using hstale
  | _ => exact h

/-- Only listed Environments can be selected. -/
theorem SelectedListed.select (h : SelectedListed s) (id : String) :
    SelectedListed (s.select id) := by
  rw [DashboardState.select]
  split
  · next hlisted =>
    rintro _ ⟨⟩
    exact hlisted
  · exact h

/-- A message is shown once it is applied. -/
theorem shows_apply (m : ServerMessage) : Shows fromStr (apply fromStr s m) m := by
  cases m <;> simp [Shows, DashboardState.apply]

/-- Messages of other slots leave a message shown, and so does a list that has its
Environment. -/
theorem Shows.apply {m' : ServerMessage} (h : Shows fromStr s m)
    (hslot : m'.slot ≠ m.slot)
    (hkeep : ∀ environments, m' = .environmentsUpdated environments →
      ∀ k id, m.slot = some k → k.environmentId = some id → lists environments id) :
    Shows fromStr (apply fromStr s m') m := by
  cases m' with
  | environmentsUpdated environments =>
    have hlisted := hkeep environments rfl
    cases m with
    | environmentsUpdated => exact absurd rfl hslot
    | signalSnapshotsUpdated id _ => exact (if_pos (hlisted _ id rfl rfl)).trans h
    | signalSamplesUpdated id _ _ => exact (if_pos (hlisted _ id rfl rfl)).trans h
    | healthEventsUpdated id _ => exact (if_pos (hlisted _ id rfl rfl)).trans h
    | signalEventsUpdated id _ => exact (if_pos (hlisted _ id rfl rfl)).trans h
    | signalRollupsUpdated id _ _ => exact (if_pos (hlisted _ id rfl rfl)).trans h
    | _ => trivial
  | signalSnapshotsUpdated id _ =>
    cases m with
    | signalSnapshotsUpdated id' _ =>
      have hne : id' ≠ id := fun hid ↦ hslot (hid ▸ rfl)
      exact (Function.update_of_ne hne _ _).trans h
    | _ => exact h
  | signalSamplesUpdated id signalId _ =>
    cases m with
    | signalSamplesUpdated id' signalId' _ =>
      have hne : (id', signalId') ≠ (id, signalId) := fun hid ↦ hslot (by cases hid; rfl)
      exact (Function.update_of_ne hne _ _).trans h
    | _ => exact h
  | healthEventsUpdated id _ =>
    cases m with
    | healthEventsUpdated id' _ =>
      have hne : id' ≠ id := fun hid ↦ hslot (hid ▸ rfl)
      exact (Function.update_of_ne hne _ _).trans h
    | _ => exact h
  | signalEventsUpdated id _ =>
    cases m with
    | signalEventsUpdated id' _ =>
      have hne : id' ≠ id := fun hid ↦ hslot (hid ▸ rfl)
      exact (Function.update_of_ne hne _ _).trans h
    | _ => exact h
  | signalRollupsUpdated id signalId _ =>
    cases m with
    | signalRollupsUpdated id' signalId' _ =>
      have hne : (id', signalId') ≠ (id, signalId) := fun hid ↦ hslot (by cases hid; rfl)
      exact (Function.update_of_ne hne _ _).trans h
    | _ => exact h
  | _ => cases m <;> exact h

/-- Selecting shows the same messages. -/
theorem shows_select_iff (id : String) : Shows fromStr (s.select id) m ↔ Shows fromStr s m := by
  rw [select]
  split
  · cases m <;> rfl
  · rfl

/-- States that show one message agree on its slot. -/
theorem agreeOn_of_shows {k : Slot} (hk : m.slot = some k) (hs : Shows fromStr s m)
    (ht : Shows fromStr t m) : AgreeOn s t k := by
  cases m <;> cases hk <;> exact Eq.trans hs (Eq.symm ht)

end Lemmas

end DashboardState

/-- The summary of an Environment that was never polled. -/
def waitingSummary (id : String) : EnvironmentSummary :=
  ⟨id, id, "https://" ++ id ++ ".example.com", "servicenow", .waiting, .reachable, none, .basic,
    false, .default, [], 0, none⟩

end Daku.Desktop
