import Daku.Health.Events

/-!
# Messages on the wire

`ServerMessage` and its cache key, `crates/daku-protocol/src/protocol.rs:280–477`. A cache key is
a text; what it stands for is a slot, a kind of dashboard state of one Environment or of one of
its Signals. On supported Environment ids the two are the same.
-/

namespace Daku.Wire

open Daku.Base Daku.Protocol Daku.Health

/-- Request ids are random 128-bit numbers. -/
abbrev Uuid := BitVec 128

/-- A Signal snapshot as it is published (`protocol.rs:284–289`). -/
structure SignalSnapshotDto where
  signalId : String
  state : String
  observedAt : Int
  payloadJson : String
  deriving DecidableEq, Repr

/-- One sample of a trend Signal (`protocol.rs:293–296`). -/
structure SamplePoint where
  observedAt : Int
  valueReal : Option Rat
  deriving DecidableEq, Repr

/-- One hourly aggregate (`protocol.rs:302–307`). -/
structure RollupPoint where
  hourStart : Int
  avgReal : Option Rat
  maxReal : Option Rat
  sampleCount : Int
  deriving DecidableEq, Repr

/-- Daemon-owned settings (`settings.rs:12–24`). -/
structure DaemonSettings where
  pollIntervalSecs : Nat
  slowPollIntervalSecs : Nat
  webhookUrl : Option String
  deriving DecidableEq, Repr

/-- What a request is answered with (`protocol.rs:491–506`). -/
inductive ResponsePayload where
  | ack
  | settings (settings : DaemonSettings)
  | environmentTest (reachability : Reachability) (state : SignalState) (build : Option String)
      (error : Option String) (rttMs : Nat)
  | digest (markdown : String)
  deriving DecidableEq, Repr

/-- Outcome of a request; an error carries its text (`protocol.rs:479–489, 508–511`). -/
abbrev ResponseOutcome := Except String ResponsePayload

/-- What a daemon sends (`protocol.rs:364–437`). -/
inductive ServerMessage where
  | hello (protocolVersion : Nat) (daemonVersion : String)
  | rejected (message : String)
  | response (requestId : Uuid) (outcome : ResponseOutcome)
  | environmentsUpdated (environments : List EnvironmentSummary)
  | signalSnapshotsUpdated (environmentId : String) (snapshots : List SignalSnapshotDto)
  | signalSamplesUpdated (environmentId signalId : String) (points : List SamplePoint)
  | healthEventsUpdated (environmentId : String) (events : List HealthEventDto)
  | signalEventsUpdated (environmentId : String) (events : List SignalEventDto)
  | signalRollupsUpdated (environmentId signalId : String) (points : List RollupPoint)
  | signalSamplesChunk (environmentId signalId : String) (transferId chunkIndex chunkCount : Nat)
      (points : List SamplePoint)
  | signalRollupsChunk (environmentId signalId : String) (transferId chunkIndex chunkCount : Nat)
      (points : List RollupPoint)
  | signalSnapshotsChunk (environmentId : String) (transferId chunkIndex chunkCount : Nat)
      (snapshots : List SignalSnapshotDto)
  | dashboardSyncNeeded (dropped : Nat)
  | shuttingDown

/-- What a client asks for (`protocol.rs:54–109`). -/
inductive Command where
  | ping
  | getSettings
  | updateSettings (settings : DaemonSettings)
  | saveEnvironment (environment : EnvironmentConfig) (credentialJson : Option String)
  | deleteEnvironment (id : String)
  | testEnvironment (environment : EnvironmentConfig) (credentialJson : Option String)
  | requestDashboardSync
  | getDigest (environmentId : String) (days : Int)
  | addHealthEventNote (environmentId : String) (observedAt : Int) (kind : HealthEventKind)
      (note : String)
  deriving DecidableEq

/-- A command with the id its response will carry (`protocol.rs:43–46`). -/
structure Request where
  requestId : Uuid
  command : Command
  deriving DecidableEq

/-- What a client sends (`protocol.rs:31–39`). -/
inductive ClientMessage where
  | hello (protocolVersion : Nat) (token : String) (clientId : Uuid)
  | request (request : Request)
  | shutdown
  deriving DecidableEq

/-- What a dashboard message is the latest state of. -/
inductive Slot where
  | environments
  | snapshots (environmentId : String)
  | samples (environmentId signalId : String)
  | healthEvents (environmentId : String)
  | signalEvents (environmentId : String)
  | rollups (environmentId signalId : String)
  deriving DecidableEq, Repr

namespace ServerMessage

/-- Cache key of a dashboard message (`protocol.rs:442–477`). -/
def dashboardCacheKey : ServerMessage → Option String
  | environmentsUpdated _ => some "0:environments"
  | signalSnapshotsUpdated environmentId _ => some ("1:snapshots:" ++ environmentId)
  | signalSamplesUpdated environmentId signalId _ =>
    some ("2:samples:" ++ environmentId ++ ":" ++ signalId)
  | healthEventsUpdated environmentId _ => some ("3:health-events:" ++ environmentId)
  | signalEventsUpdated environmentId _ => some ("3:signal-events:" ++ environmentId)
  | signalRollupsUpdated environmentId signalId _ =>
    some ("4:rollups:" ++ environmentId ++ ":" ++ signalId)
  | _ => none

/-- The slot a message fills; transport messages fill none. -/
def slot : ServerMessage → Option Slot
  | environmentsUpdated _ => some .environments
  | signalSnapshotsUpdated environmentId _ => some (.snapshots environmentId)
  | signalSamplesUpdated environmentId signalId _ => some (.samples environmentId signalId)
  | healthEventsUpdated environmentId _ => some (.healthEvents environmentId)
  | signalEventsUpdated environmentId _ => some (.signalEvents environmentId)
  | signalRollupsUpdated environmentId signalId _ => some (.rollups environmentId signalId)
  | _ => none

end ServerMessage

namespace Slot

/-- The cache key of a slot. -/
def text : Slot → String
  | environments => "0:environments"
  | snapshots environmentId => "1:snapshots:" ++ environmentId
  | samples environmentId signalId => "2:samples:" ++ environmentId ++ ":" ++ signalId
  | healthEvents environmentId => "3:health-events:" ++ environmentId
  | signalEvents environmentId => "3:signal-events:" ++ environmentId
  | rollups environmentId signalId => "4:rollups:" ++ environmentId ++ ":" ++ signalId

/-- The Environment a slot belongs to. -/
def environmentId : Slot → Option String
  | environments => none
  | snapshots id | healthEvents id | signalEvents id => some id
  | samples id _ | rollups id _ => some id

/-- The slot's Environment id is one the daemon accepts. -/
def Supported (s : Slot) : Prop := ∀ id, s.environmentId = some id → environmentIdError id = none

end Slot

/-- The key of a message is the text of its slot. -/
theorem dashboardCacheKey_eq (m : ServerMessage) :
    m.dashboardCacheKey = m.slot.map Slot.text := by
  cases m <;> rfl

/-- An id without a colon ends at the first one. -/
private theorem append_colon_inj {a b s t : List Char} (ha : ':' ∉ a) (hb : ':' ∉ b)
    (h : a ++ ':' :: s = b ++ ':' :: t) : a = b ∧ s = t := by
  induction a generalizing b with
  | nil =>
    cases b with
    | nil => exact ⟨rfl, (List.cons.inj h).2⟩
    | cons c b => exact absurd ((List.cons.inj h).1 ▸ List.mem_cons_self) hb
  | cons c a ih =>
    cases b with
    | nil => exact absurd ((List.cons.inj h).1 ▸ List.mem_cons_self) ha
    | cons d b =>
      obtain ⟨hcd, htail⟩ := List.cons.inj h
      obtain ⟨rfl, rfl⟩ := ih (fun hc ↦ ha (List.mem_cons_of_mem _ hc))
        (fun hd ↦ hb (List.mem_cons_of_mem _ hd)) htail
      exact ⟨by rw [hcd], rfl⟩

/-- Supported ids have no colon. -/
theorem colon_notMem_of_supported {id : String} (h : environmentIdError id = none) :
    ':' ∉ id.toList := by
  intro hmem
  rw [environmentIdError] at h
  split at h
  · cases h
  split at h
  · cases h
  split at h
  · cases h
  next hall =>
    rw [not_not] at hall
    have hcolon := List.all_eq_true.mp hall ':' hmem
    revert hcolon
    decide

/-- Keys tell the slots of supported Environments apart. -/
theorem text_inj {s t : Slot} (hs : s.Supported) (ht : t.Supported) (h : s.text = t.text) :
    s = t := by
  have hchars := congrArg String.toList h
  have hpair : ∀ {a b x y : String}, environmentIdError a = none → environmentIdError b = none →
      a.toList ++ ':' :: x.toList = b.toList ++ ':' :: y.toList → a = b ∧ x = y := by
    intro a b x y ha hb heq
    obtain ⟨hab, hxy⟩ :=
      append_colon_inj (colon_notMem_of_supported ha) (colon_notMem_of_supported hb) heq
    exact ⟨String.toList_injective hab, String.toList_injective hxy⟩
  unfold Slot.text at hchars
  cases s <;> cases t <;> simp at hchars ⊢ <;>
    first
    | exact String.toList_injective hchars
    | exact hpair (hs _ rfl) (ht _ rfl) hchars

end Daku.Wire
