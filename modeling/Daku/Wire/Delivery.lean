import Daku.Wire.Blocks
import Daku.Wire.Traffic

/-!
# Delivery in order

Whatever the hub publishes and replays, and however connections drain and lose messages in
between, what a client's reader hands on are published messages, and none of a key after a newer
one. The invariant ties the hub's cache, what each queue was given, and the message being sent.
-/

namespace Daku.Wire

open Daku.Base

namespace Connection

/-- Pieces a connection has passed on or still holds. -/
def stream (c : Connection) : List ServerMessage := (c.read ++ c.wire ++ c.queue).filter IsPiece

/-- Pieces a connection was given. -/
def given (c : Connection) : List ServerMessage := c.queued.filter IsPiece

/-- The pieces of a connection are the same before and after. -/
def SamePieces (c c' : Connection) : Prop := c'.given = c.given ∧ c'.stream = c.stream

theorem SamePieces.refl (c : Connection) : c.SamePieces c := ⟨rfl, rfl⟩

theorem stream_push (c : Connection) (m : ServerMessage) :
    (c.push m).stream = c.stream ++ [m].filter IsPiece := by
  simp [push, stream]

theorem given_push (c : Connection) (m : ServerMessage) :
    (c.push m).given = c.given ++ [m].filter IsPiece :=
  List.filter_append ..

/-- A connection by itself neither gains nor loses pieces. -/
theorem step_pieces {c c' : Connection} {a : ConnectionAction} (h : c.step a = some c') :
    c.SamePieces c' := by
  have hpush : ∀ m : ServerMessage, IsPiece m = false → c.SamePieces (c.push m) := by
    intro m hm
    rw [SamePieces, given_push, stream_push,
      List.filter_cons_of_neg (by rw [hm]; exact Bool.false_ne_true), List.filter_nil,
      List.append_nil, List.append_nil]
    exact ⟨rfl, rfl⟩
  have hwrite : ∀ m : ServerMessage, IsPiece m = false →
      (c.read ++ (c.wire ++ [m]) ++ c.queue).filter IsPiece = c.stream := by
    intro m hm
    simp [stream, hm]
  cases step_spec h with
  | drain hphase hqueue => simp [SamePieces, given, stream, hqueue]
  | deliver hwire => simp [SamePieces, given, stream, hwire]
  | notify => exact hpush _ rfl
  | acknowledge => exact hpush _ rfl
  | respond => exact hpush _ rfl
  | refuse => exact ⟨rfl, hwrite _ rfl⟩
  | shutDown => exact ⟨rfl, hwrite _ rfl⟩
  | connect => exact .refl c
  | requestSync => exact .refl c
  | leave => exact .refl c
  | fail => exact .refl c

end Connection

/-- How many messages a run begins to send; each uses up a transfer id. -/
def begun (actions : List DaemonAction) : Nat :=
  actions.countP fun
    | .beginMessage => true
    | _ => false

theorem begun_concat (actions : List DaemonAction) (a : DaemonAction) :
    begun (actions ++ [a]) = begun actions + begun [a] :=
  List.countP_append

namespace Daemon

/-- Messages the job has still to begin with. -/
def todo (s : Daemon) : List (Nat × ServerMessage) := (s.job.map Job.todo).getD []

/-- Pieces of the message being sent. -/
def sending (s : Daemon) : Option (Nat × List ServerMessage) := s.job.bind Job.sending

/-- Transfer ids have not run out, and no published message has more than `2 ^ 32` items. -/
structure Bounded (begun : Nat) (s : Daemon) : Prop where
  begun_le : begun ≤ 2 ^ 64
  counted : ∀ m ∈ s.published, itemCount m ≤ 2 ^ 32

/-- The blocks a connection was given, the last one of which may be in the making. -/
structure Blocks (wireSize : ServerMessage → Nat) (begun : Nat) (s : Daemon) (connection : Nat)
    (blocks : List Block) : Prop where
  given : (s.connections connection).given = blocks.flatMap (Block.pieces wireSize)
  ordered : Block.Ordered s.published blocks
  transferId_lt : ∀ b ∈ blocks, b.transferId < begun
  sending : ∀ pieces, s.sending = some (connection, pieces) →
    ∃ before b, blocks = before ++ [b] ∧ pieces = (b.split wireSize).drop b.sent

/-- What ties the cache, the job and the connections together. -/
structure Tracked (wireSize : ServerMessage → Nat) (begun : Nat) (s : Daemon) : Prop where
  nextTransferId : s.nextTransferId = min begun u64Max
  keyed : s.dashboard.Keyed
  current : s.dashboard.Current s.published
  todo : ∀ e ∈ s.todo, e.2.dashboardCacheKey.isSome ∧
    ∃ i, Latest ServerMessage.dashboardCacheKey s.published i e.2
  stream : ∀ connection, (s.connections connection).stream = (s.connections connection).given
  blocks : ∀ connection, ∃ blocks, Blocks wireSize begun s connection blocks

/-- A step that publishes nothing, begins no message and queues no piece. -/
structure Frame (s t : Daemon) : Prop where
  dashboard : t.dashboard = s.dashboard
  published : t.published = s.published
  nextTransferId : t.nextTransferId = s.nextTransferId
  todo : ∀ e ∈ t.todo, e ∈ s.todo ∨ e.2 ∈ s.dashboard.messages
  sending : t.sending = s.sending ∨ t.sending = none
  pieces : ∀ connection, (s.connections connection).SamePieces (t.connections connection)

variable {wireSize : ServerMessage → Nat} {begun : Nat} {s t : Daemon} {a : DaemonAction}

theorem Frame.blocks (hframe : Frame s t) {connection : Nat} {blocks : List Block}
    (h : Blocks wireSize begun s connection blocks) :
    Blocks wireSize begun t connection blocks where
  given := (hframe.pieces connection).1.trans h.given
  ordered := hframe.published ▸ h.ordered
  transferId_lt := h.transferId_lt
  sending pieces hsending := by
    rcases hframe.sending with heq | hnone
    · exact h.sending pieces (heq ▸ hsending)
    · rw [hnone] at hsending
      cases hsending

theorem Tracked.frame (h : Tracked wireSize begun s) (hframe : Frame s t) :
    Tracked wireSize begun t where
  nextTransferId := hframe.nextTransferId.trans h.nextTransferId
  keyed := hframe.dashboard ▸ h.keyed
  current := by
    rw [hframe.dashboard, hframe.published]
    exact h.current
  todo e he := by
    rw [hframe.published]
    rcases hframe.todo e he with hold | hcached
    · exact h.todo e hold
    · obtain ⟨key, hkey⟩ := DashboardCache.mem_messages.mp hcached
      exact ⟨h.keyed key e.2 hkey ▸ rfl, h.current.messages e.2 hcached⟩
  stream connection := by
    rw [(hframe.pieces connection).1, (hframe.pieces connection).2]
    exact h.stream connection
  blocks connection := by
    obtain ⟨blocks, hblocks⟩ := h.blocks connection
    exact ⟨blocks, hframe.blocks hblocks⟩

/-- Publishing makes the message the latest of its key and the only one to be sent. -/
theorem Tracked.publish (h : Tracked wireSize begun s) {m : ServerMessage}
    (hkey : m.dashboardCacheKey.isSome) (order : List (Nat × Nat)) :
    Tracked wireSize begun { s with
      dashboard := s.dashboard.remember m
      published := s.published ++ [m]
      job := some ⟨.publish, order.map fun subscriber ↦ (subscriber.2, m), none, 0, []⟩ } where
  nextTransferId := h.nextTransferId
  keyed := h.keyed.remember m
  current := h.current.remember h.keyed m
  todo e he := by
    obtain ⟨subscriber, -, rfl⟩ := List.mem_map.mp he
    exact ⟨hkey, _, latest_concat _ _ _⟩
  stream := h.stream
  blocks connection := by
    obtain ⟨blocks, hblocks⟩ := h.blocks connection
    have hfollows := hblocks.ordered.follows.publish [m]
    exact ⟨blocks, hblocks.given,
      ⟨hblocks.ordered.sound, hblocks.ordered.increasing, hfollows⟩,
      hblocks.transferId_lt, fun _ hsending ↦ nomatch hsending⟩

/-- Beginning with a message begins a block of its own, with an id above all others. -/
theorem Tracked.beginMessage (h : Tracked wireSize begun s) (hbounded : Bounded (begun + 1) s)
    {kind : JobKind} {connection : Nat} {m : ServerMessage} {rest : List (Nat × ServerMessage)}
    {drops : Nat} {disconnected : List Nat}
    (hjob : s.job = some ⟨kind, (connection, m) :: rest, none, drops, disconnected⟩) :
    Tracked wireSize (begun + 1) { s with
      nextTransferId := satAddU64 s.nextTransferId 1
      job := some ⟨kind, rest, some (connection, splitForWire wireSize m s.nextTransferId),
        drops, disconnected⟩ } := by
  have htodo : s.todo = (connection, m) :: rest := by rw [Daemon.todo, hjob]; rfl
  have hid : s.nextTransferId = begun := by
    have hle := hbounded.begun_le
    have heq := h.nextTransferId
    rw [u64Max] at heq
    omega
  have hnext : satAddU64 s.nextTransferId 1 = min (begun + 1) u64Max := by rw [hid, satAddU64]
  obtain ⟨hkey, i, hlatest⟩ := h.todo (connection, m) (htodo ▸ List.mem_cons_self)
  refine ⟨hnext, h.keyed, h.current, fun e he ↦ h.todo e (htodo ▸ List.mem_cons_of_mem _ he),
    h.stream, fun other ↦ ?_⟩
  obtain ⟨blocks, hblocks⟩ := h.blocks other
  have hlt : ∀ b ∈ blocks, b.transferId < begun + 1 := fun b hb ↦
    Nat.lt_succ_of_lt (hblocks.transferId_lt b hb)
  by_cases hother : other = connection
  · have hm : m ∈ s.published := List.mem_of_getElem? hlatest.at_position
    refine ⟨blocks ++ [⟨i, m, s.nextTransferId, 0⟩], ?_, ⟨?_, ?_, ?_⟩, ?_, ?_⟩
    · rw [List.flatMap_append, ← hblocks.given]
      exact (List.append_nil _).symm
    · intro b hb
      rcases List.mem_append.mp hb with hb | hb
      · exact hblocks.ordered.sound b hb
      · rw [List.mem_singleton.mp hb]
        exact ⟨hkey, hbounded.counted m hm⟩
    · rw [List.pairwise_append]
      refine ⟨hblocks.ordered.increasing, List.pairwise_singleton _ _, fun a ha b hb ↦ ?_⟩
      rw [List.mem_singleton.mp hb, hid]
      exact hblocks.transferId_lt a ha
    · rw [List.map_append]
      exact hblocks.ordered.follows.deliver hlatest
    · intro b hb
      rcases List.mem_append.mp hb with hb | hb
      · exact hlt b hb
      · rw [List.mem_singleton.mp hb, hid]
        exact Nat.lt_succ_self _
    · intro pieces hsending
      cases hsending
      exact ⟨blocks, _, rfl, rfl⟩
  · refine ⟨blocks, hblocks.given, hblocks.ordered, hlt, fun pieces hsending ↦ ?_⟩
    cases hsending
    exact absurd rfl hother

/-- Queueing a piece lengthens the block in the making. -/
theorem Tracked.send (h : Tracked wireSize begun s) {kind : JobKind} {connection : Nat}
    {piece : ServerMessage} {pieces : List ServerMessage} {rest : List (Nat × ServerMessage)}
    {drops : Nat} {disconnected : List Nat}
    (hjob : s.job = some ⟨kind, rest, some (connection, piece :: pieces), drops, disconnected⟩) :
    Tracked wireSize begun { s.setConnection connection ((s.connections connection).push piece) with
      job := some ⟨kind, rest, some (connection, pieces), drops, disconnected⟩ } := by
  have hsending : s.sending = some (connection, piece :: pieces) := by
    rw [Daemon.sending, hjob]
    rfl
  have htodo : s.todo = rest := by
    rw [Daemon.todo, hjob]
    rfl
  obtain ⟨blocks, hblocks⟩ := h.blocks connection
  obtain ⟨before, b, rfl, hdrop⟩ := hblocks.sending _ hsending
  have hpiece : IsPiece piece := by
    have hmem : piece ∈ b.split wireSize := List.mem_of_mem_drop (hdrop ▸ List.mem_cons_self)
    exact isPiece_of_mem_splitForWire
      (hblocks.ordered.sound b (List.mem_append_right _ List.mem_cons_self)).keyed hmem
  obtain ⟨hpieces, hrest⟩ := Block.pieces_succ hdrop.symm
  refine ⟨h.nextTransferId, h.keyed, h.current, fun e he ↦ h.todo e (htodo ▸ he),
    fun other ↦ ?_, fun other ↦ ?_⟩
  · apply forall_setConnection (P := fun c c' ↦ c.stream = c.given → c'.stream = c'.given)
      (fun _ h ↦ h) _ other (h.stream other)
    intro hstream
    rw [Connection.stream_push, Connection.given_push, hstream]
  · by_cases hother : other = connection
    · subst hother
      have hheaders : (before ++ [{ b with sent := b.sent + 1 }]).map Block.header =
          (before ++ [b]).map Block.header := by
        rw [List.map_append, List.map_append]
        rfl
      refine ⟨before ++ [{ b with sent := b.sent + 1 }], ?_,
        hblocks.ordered.of_headers (hheaders ▸ List.prefix_refl _), ?_, ?_⟩
      · change ((s.setConnection other _).connections other).given = _
        rw [connections_setConnection_self, Connection.given_push, hblocks.given,
          List.filter_cons_of_pos hpiece, List.filter_nil, List.flatMap_append, List.flatMap_append,
          List.append_assoc, List.flatMap_singleton, List.flatMap_singleton, hpieces]
      · intro a ha
        rcases List.mem_append.mp ha with ha | ha
        · exact hblocks.transferId_lt a (List.mem_append_left _ ha)
        · rw [List.mem_singleton.mp ha]
          exact hblocks.transferId_lt b (List.mem_append_right _ List.mem_cons_self)
      · intro pieces' hsending'
        cases hsending'
        exact ⟨before, _, rfl, hrest.symm⟩
    · obtain ⟨others, hothers⟩ := h.blocks other
      refine ⟨others, ?_, hothers.ordered, hothers.transferId_lt, fun pieces' hsending' ↦ ?_⟩
      · change ((s.setConnection connection _).connections other).given = _
        rw [connections_setConnection_of_ne s _ hother]
        exact hothers.given
      · cases hsending'
        exact absurd rfl hother

theorem Frame.step {done : List DaemonAction} (hframe : Frame s t) (hbegins : Wire.begun [a] = 0)
    (ih : Bounded (Wire.begun done) s → Tracked wireSize (Wire.begun done) s)
    (hbounded : Bounded (Wire.begun (done ++ [a])) t) :
    Tracked wireSize (Wire.begun (done ++ [a])) t := by
  rw [begun_concat, hbegins, Nat.add_zero] at hbounded ⊢
  exact (ih ⟨hbounded.begun_le, hframe.published ▸ hbounded.counted⟩).frame hframe

/-- Only publishing, beginning with a message and queueing a piece are no frames. -/
theorem Step.tracked {done : List DaemonAction} (hstep : Step wireSize s a t)
    (ih : Bounded (Wire.begun done) s → Tracked wireSize (Wire.begun done) s)
    (hbounded : Bounded (Wire.begun (done ++ [a])) t) :
    Tracked wireSize (Wire.begun (done ++ [a])) t := by
  have hsame : ∀ connection, (s.connections connection).SamePieces (s.connections connection) :=
    fun _ ↦ .refl _
  cases hstep with
  | connection hc =>
    apply Frame.step (s := s) _ rfl ih hbounded
    exact ⟨rfl, rfl, rfl, fun e he ↦ Or.inl he, Or.inl rfl,
      forall_setConnection .refl (Connection.step_pieces hc)⟩
  | subscribe hphase hjob =>
    apply Frame.step (s := s) _ rfl ih hbounded
    refine ⟨rfl, rfl, rfl, fun e he ↦ Or.inr ?_, Or.inr rfl, hsame⟩
    obtain ⟨m, hm, rfl⟩ := List.mem_map.mp he
    exact hm
  | @publish m order hkey hjob horder =>
    rw [begun_concat] at hbounded ⊢
    exact (ih ⟨hbounded.begun_le, fun b hb ↦
      hbounded.counted b (List.mem_append_left _ hb)⟩).publish hkey order
  | beginMessage hjob =>
    rw [begun_concat] at hbounded ⊢
    have hbefore := (ih ⟨(Nat.le_succ _).trans hbounded.begun_le, hbounded.counted⟩)
    exact hbefore.beginMessage ⟨hbounded.begun_le, hbounded.counted⟩ hjob
  | sent hjob =>
    apply Frame.step (s := s) _ rfl ih hbounded
    refine ⟨rfl, rfl, rfl, fun e he ↦ Or.inl ?_, Or.inr rfl, hsame⟩
    rw [todo, hjob]
    exact he
  | send hjob hroom =>
    rw [begun_concat] at hbounded ⊢
    exact (ih ⟨hbounded.begun_le, hbounded.counted⟩).send hjob
  | giveUp hjob hroom hdrops =>
    apply Frame.step (s := s) _ rfl ih hbounded
    refine ⟨rfl, rfl, rfl, fun e he ↦ Or.inl ?_, Or.inr rfl, hsame⟩
    rw [todo, hjob]
    exact he
  | finishPublish hjob =>
    apply Frame.step (s := s) _ rfl ih hbounded
    exact ⟨rfl, rfl, rfl, nofun, Or.inr rfl, hsame⟩
  | finishSubscribe hjob =>
    apply Frame.step (s := s) _ rfl ih hbounded
    exact ⟨rfl, rfl, rfl, nofun, Or.inr rfl,
      forall_setConnection .refl ⟨rfl, rfl⟩⟩
  | finishResync hjob =>
    apply Frame.step (s := s) _ rfl ih hbounded
    exact ⟨rfl, rfl, rfl, nofun, Or.inr rfl,
      forall_setConnection .refl ⟨rfl, rfl⟩⟩
  | resync hrequest hjob =>
    apply Frame.step (s := s) _ rfl ih hbounded
    refine ⟨rfl, rfl, rfl, fun e he ↦ Or.inr ?_, Or.inr rfl,
      forall_setConnection .refl ⟨rfl, rfl⟩⟩
    obtain ⟨m, hm, rfl⟩ := List.mem_map.mp he
    exact hm
  | unsubscribe hphase hjob =>
    apply Frame.step (s := s) _ rfl ih hbounded
    exact ⟨rfl, rfl, rfl, fun e he ↦ Or.inl he, Or.inl rfl,
      forall_setConnection .refl ⟨rfl, rfl⟩⟩

theorem tracked_start (wireSize : ServerMessage → Nat) : Tracked wireSize 0 start where
  nextTransferId := rfl
  keyed := DashboardCache.keyed_empty
  current := DashboardCache.current_empty _
  todo _ he := nomatch he
  stream _ := rfl
  blocks _ := ⟨[], rfl, ⟨nofun, List.Pairwise.nil, ⟨nofun, List.Pairwise.nil⟩⟩, nofun, nofun⟩

/-- Every run within the bounds keeps the invariant. -/
theorem tracked_of_run {actions : List DaemonAction}
    (hrun : (daemon wireSize).run start actions = some s)
    (hbounded : Bounded (Wire.begun actions) s) : Tracked wireSize (Wire.begun actions) s :=
  Machine.run_induction
    (I := fun done u ↦ Bounded (Wire.begun done) u → Tracked wireSize (Wire.begun done) u)
    (fun _ ↦ tracked_start wireSize) (fun ih (_ : True) hstep ↦ (step_spec hstep).tracked ih)
    (Machine.meets_of_forall (fun _ _ _ ↦ trivial) _) hrun hbounded

end Daemon

/-- The dashboard messages a client's reader has handed on. -/
def Connection.handedOn (c : Connection) : List ServerMessage :=
  (Reader.start.forwarded c.read).filter fun m ↦ m.dashboardCacheKey.isSome

/-- Sizes when each item takes 300,000 bytes. -/
def bulkyWireSize : ServerMessage → Nat
  | .signalSnapshotsUpdated _ snapshots | .signalSnapshotsChunk _ _ _ _ snapshots =>
    300000 * snapshots.length
  | .signalSamplesUpdated _ _ points | .signalSamplesChunk _ _ _ _ _ points =>
    300000 * points.length
  | .signalRollupsUpdated _ _ points | .signalRollupsChunk _ _ _ _ _ points =>
    300000 * points.length
  | _ => 100

/-- A snapshot. -/
def snapshot (signalId : String) : SignalSnapshotDto := ⟨signalId, "ok", 0, "\x7b\x7d"⟩

/-- Two snapshots of one Signal. -/
def twoSnapshots (environmentId signalId : String) : ServerMessage :=
  .signalSnapshotsUpdated environmentId [snapshot signalId, snapshot signalId]

/-- One of their two chunks. -/
def halfChunk (environmentId signalId : String) (transferId index : Nat) : ServerMessage :=
  .signalSnapshotsChunk environmentId transferId index 2 [snapshot signalId]

/-- A client connects, and two messages of one key are sent to it, the later one in two chunks. -/
def publishTwice : List DaemonAction :=
  [.connection 0 .connect, .subscribe 0, .finish,
    .publish (.signalSnapshotsUpdated "prod" []) [(0, 0)], .beginMessage, .trySend, .trySend,
    .finish, .connection 0 .drain, .publish (twoSnapshots "prod" "jobs") [(0, 0)], .beginMessage,
    .trySend, .connection 0 .drain, .connection 0 .deliver, .trySend, .connection 0 .deliver,
    .trySend, .finish, .connection 0 .drain, .connection 0 .deliver]

/-- An empty list of Environments. -/
def noEnvironments : ServerMessage := .environmentsUpdated []

/-- Items of that size cross one by one. -/
theorem splitForWire_bulky (environmentId : String) (item : SignalSnapshotDto)
    (items : List SignalSnapshotDto) (transferId : Nat) :
    splitForWire bulkyWireSize (.signalSnapshotsUpdated environmentId (item :: items)) transferId =
      buildChunks (fun group index count ↦
        .signalSnapshotsChunk environmentId transferId index count group)
        ([item] :: groupsOf 1 items.length items) := by
  have hbig : ¬bulkyWireSize (.signalSnapshotsUpdated environmentId (item :: items)) ≤
      dashboardChunkBudgetBytes := by
    rw [bulkyWireSize, List.length_cons, dashboardChunkBudgetBytes]
    omega
  have hnever : ∀ len, ((buildChunks (fun group index count ↦
        ServerMessage.signalSnapshotsChunk environmentId transferId index count group)
      (chunkVec (item :: items) len)).all fun chunk ↦
        bulkyWireSize chunk ≤ dashboardChunkBudgetBytes) = false := by
    intro len
    obtain ⟨n, hn⟩ : ∃ n, max len 1 = n + 1 := ⟨max len 1 - 1, by omega⟩
    rw [chunkVec, List.length_cons, groupsOf, hn, buildChunks]
    simp [bulkyWireSize, dashboardChunkBudgetBytes]
    omega
  have hne : ¬(item :: items).isEmpty = true := Bool.false_ne_true
  unfold splitForWire
  rw [if_neg hbig]
  dsimp only
  rw [splitItems, splitGroups, if_neg hne, fittingGroups_of_never hnever]
  rfl

theorem splitForWire_twoSnapshots (environmentId signalId : String) (transferId : Nat) :
    splitForWire bulkyWireSize (twoSnapshots environmentId signalId) transferId =
      [halfChunk environmentId signalId transferId 0,
        halfChunk environmentId signalId transferId 1] := by
  rw [twoSnapshots, splitForWire_bulky]
  rfl

/-- A client that is served. -/
def servedConnection (queue read queued : List ServerMessage) : Connection where
  phase := .serving
  subscriberId := 0
  queue
  pendingSyncDrops := 0
  resyncs := []
  acks := []
  wire := []
  read
  queued
  replays := [⟨none, [], 0, 0, 0⟩]
  answered := []

/-- A hub with one client. -/
def oneClient (dashboard : DashboardCache) (others : Nat → Connection) (dropped n : Nat)
    (job : Option Job) (c : Connection) (published : List ServerMessage) : Daemon where
  nextSubscriberId := 1
  subscribers := [(0, 0)]
  dashboard
  dropped
  nextTransferId := n
  job
  connections := Function.update others 0 c
  published

section OneClient

variable (dashboard : DashboardCache) (others : Nat → Connection) (dropped n : Nat)
  (read queued published : List ServerMessage)

theorem run_oneClient (job : Option Job) {c c' : Connection} {actions : List ConnectionAction}
    (h : connectionMachine.run c actions = some c') :
    (daemon bulkyWireSize).run (oneClient dashboard others dropped n job c published)
        (actions.map (.connection 0)) =
      some (oneClient dashboard others dropped n job c' published) := by
  have hc : (oneClient dashboard others dropped n job c published).connections 0 = c := by
    rw [oneClient]
    exact Function.update_self 0 c others
  rw [run_connection (hc ▸ h), oneClient, Daemon.setConnection, Function.update_idem, oneClient]

theorem run_connect : ∃ others, (daemon bulkyWireSize).run Daemon.start
      [.connection 0 .connect, .subscribe 0, .finish] =
    some (oneClient ∅ others 0 0 none (servedConnection [] [] []) []) :=
  ⟨_, rfl⟩

/-- Publishing often enough uses up the transfer ids. -/
theorem run_climb (k : Nat) : ∃ actions dashboard others dropped,
    (daemon bulkyWireSize).run Daemon.start actions =
      some (oneClient dashboard others dropped (min k u64Max) none
        (servedConnection [] (List.replicate k noEnvironments) (List.replicate k noEnvironments))
        (List.replicate k noEnvironments)) := by
  induction k with
  | zero =>
    obtain ⟨others, hconnect⟩ := run_connect
    exact ⟨_, _, _, _, hconnect⟩
  | succ k ih =>
    obtain ⟨actions, dashboard, others, dropped, hclimb⟩ := ih
    have hcycle : ∃ dashboard' others', (daemon bulkyWireSize).run
        (oneClient dashboard others dropped (min k u64Max) none
          (servedConnection [] (List.replicate k noEnvironments)
            (List.replicate k noEnvironments)) (List.replicate k noEnvironments))
        [.publish noEnvironments [(0, 0)], .beginMessage, .trySend, .trySend, .finish,
          .connection 0 .drain, .connection 0 .deliver] =
      some (oneClient dashboard' others' (satAddU64 dropped 0) (satAddU64 (min k u64Max) 1) none
        (servedConnection [] (List.replicate k noEnvironments ++ [noEnvironments])
          (List.replicate k noEnvironments ++ [noEnvironments]))
        (List.replicate k noEnvironments ++ [noEnvironments])) := ⟨_, _, rfl⟩
    obtain ⟨dashboard', others', hcycle⟩ := hcycle
    have hnext : satAddU64 (min k u64Max) 1 = min (k + 1) u64Max := by
      rw [satAddU64]
      omega
    rw [hnext, ← List.replicate_succ'] at hcycle
    exact ⟨_, _, _, _, Machine.run_append.mpr ⟨_, hclimb, hcycle⟩⟩

/-- The first half of two snapshots is queued. -/
theorem run_firstHalf (environmentId signalId : String) :
    ∃ dashboard' others', (daemon bulkyWireSize).run
        (oneClient dashboard others dropped n none (servedConnection [] read queued) published)
        ([.publish (twoSnapshots environmentId signalId) [(0, 0)], .beginMessage] ++ [.trySend]) =
      some (oneClient dashboard' others' dropped (satAddU64 n 1)
        (some ⟨.publish, [], some (0, [halfChunk environmentId signalId n 1]), 0, []⟩)
        (servedConnection [halfChunk environmentId signalId n 0] read
          (queued ++ [halfChunk environmentId signalId n 0]))
        (published ++ [twoSnapshots environmentId signalId])) := by
  have hbegin : (daemon bulkyWireSize).run
        (oneClient dashboard others dropped n none (servedConnection [] read queued) published)
        [.publish (twoSnapshots environmentId signalId) [(0, 0)], .beginMessage] =
      some (oneClient (dashboard.remember (twoSnapshots environmentId signalId)) others dropped
        (satAddU64 n 1) (some ⟨.publish, [], some (0, splitForWire bulkyWireSize
          (twoSnapshots environmentId signalId) n), 0, []⟩)
        (servedConnection [] read queued)
        (published ++ [twoSnapshots environmentId signalId])) := rfl
  rw [splitForWire_twoSnapshots] at hbegin
  exact ⟨_, _, Machine.run_append.mpr ⟨_, hbegin, rfl⟩⟩

/-- The second half finds no room, and the client reads the first one. -/
theorem run_secondHalfLost (first second : ServerMessage) :
    ∃ actions others' dropped', (daemon bulkyWireSize).run
        (oneClient dashboard others dropped n (some ⟨.publish, [], some (0, [second]), 0, []⟩)
          (servedConnection [first] read queued) published) actions =
      some (oneClient dashboard others' dropped' n none
        (servedConnection [] (read ++ first :: List.replicate 511 (.response 0 (.ok .ack)))
          (queued ++ List.replicate 511 (.response 0 (.ok .ack)))) published) := by
  have hlose := run_lose bulkyWireSize
    (s := oneClient dashboard others dropped n (some ⟨.publish, [], some (0, [second]), 0, []⟩)
      (servedConnection [first] read queued) published) (n := 511)
    rfl rfl rfl 0 (.ok .ack) rfl
  have hfinish : (daemon bulkyWireSize).run
      (oneClient dashboard others dropped n (some ⟨.publish, [], some (0, [second]), 0, []⟩)
        (servedConnection [first] read queued) published)
      ((List.replicate 511 (.respond 0 (.ok .ack))).map (.connection 0) ++ [.trySend] ++
        [.finish]) =
      some (oneClient dashboard
        (Function.update others 0 (servedConnection [first] read queued)) (satAddU64 dropped 1) n
        none (servedConnection (first :: List.replicate 511 (.response 0 (.ok .ack))) read
          (queued ++ List.replicate 511 (.response 0 (.ok .ack)))) published) :=
    Machine.run_append.mpr ⟨_, hlose, rfl⟩
  exact ⟨_, _, _, Machine.run_append.mpr ⟨_, hfinish,
    run_oneClient _ _ _ _ _ _ (run_readAll rfl rfl rfl)⟩⟩

/-- Both halves are read. -/
theorem run_bothHalves (environmentId signalId : String) :
    ∃ actions s, (daemon bulkyWireSize).run
        (oneClient dashboard others dropped n none (servedConnection [] read queued) published)
        actions = some s ∧
      s.published = published ++ [twoSnapshots environmentId signalId] ∧
      (s.connections 0).read = read ++ [halfChunk environmentId signalId n 0] ++
        [halfChunk environmentId signalId n 1] := by
  obtain ⟨dashboard', others', hfirst⟩ :=
    run_firstHalf dashboard others dropped n read queued published environmentId signalId
  exact ⟨_ ++ [.trySend, .connection 0 .drain, .connection 0 .deliver, .connection 0 .drain,
    .connection 0 .deliver], _, Machine.run_append.mpr ⟨_, hfirst, rfl⟩, rfl, rfl⟩

end OneClient

/-- Lists of Environments are handed on and leave the reader as it was. -/
theorem forwarded_replicate_noEnvironments (r : Reader) (k : Nat) (ms : List ServerMessage) :
    r.forwarded (List.replicate k noEnvironments ++ ms) =
      List.replicate k noEnvironments ++ r.forwarded ms := by
  induction k with
  | zero => rfl
  | succ k ih =>
    rw [List.replicate_succ, List.cons_append, List.cons_append, ← ih]
    rfl

/-- Responses are not handed on. -/
theorem forwarded_replicate_response (r : Reader) (requestId : Uuid) (outcome : ResponseOutcome)
    (k : Nat) (ms : List ServerMessage) :
    r.forwarded (List.replicate k (.response requestId outcome) ++ ms) = r.forwarded ms := by
  induction k with
  | zero => rfl
  | succ k ih =>
    rw [List.replicate_succ, List.cons_append, ← ih]
    rfl

/-- Of the halves of two messages with one id a third message is made. -/
theorem forwarded_halves : Reader.start.forwarded (halfChunk "a" "x" u64Max 0 ::
      (List.replicate 511 (.response 0 (.ok .ack)) ++
        [halfChunk "b" "y" u64Max 0, halfChunk "b" "y" u64Max 1])) = [twoSnapshots "a" "y"] := by
  have hcons := Reader.forwarded_cons (m := halfChunk "a" "x" u64Max 0) nofun Reader.start
    (List.replicate 511 (.response 0 (.ok .ack)) ++
      [halfChunk "b" "y" u64Max 0, halfChunk "b" "y" u64Max 1])
  rw [forwarded_replicate_response] at hcons
  exact hcons.trans rfl

/-- Once the transfer ids have run out, a message is handed on that nobody published. -/
theorem exists_halves_mixed : ∃ actions s,
    (daemon bulkyWireSize).run Daemon.start actions = some s ∧
    (∀ m ∈ s.published, itemCount m ≤ 2 ^ 32) ∧
    ¬InOrder ServerMessage.dashboardCacheKey s.published (s.connections 0).handedOn := by
  -- a variable in place of the number keeps the lists folded
  obtain ⟨k, hk⟩ : ∃ k, min k u64Max = u64Max := ⟨u64Max, Nat.min_self _⟩
  obtain ⟨climb, dashboard, others, dropped, hclimb⟩ := run_climb k
  rw [hk] at hclimb
  have hstuck : satAddU64 u64Max 1 = u64Max := rfl
  obtain ⟨dashboard₁, others₁, hfirst⟩ := run_firstHalf dashboard others dropped u64Max
    (List.replicate k noEnvironments) (List.replicate k noEnvironments)
    (List.replicate k noEnvironments) "a" "x"
  rw [hstuck] at hfirst
  obtain ⟨lose, others₂, dropped₂, hlose⟩ := run_secondHalfLost dashboard₁ others₁ dropped u64Max
    (List.replicate k noEnvironments)
    (List.replicate k noEnvironments ++ [halfChunk "a" "x" u64Max 0])
    (List.replicate k noEnvironments ++ [twoSnapshots "a" "x"])
    (halfChunk "a" "x" u64Max 0) (halfChunk "a" "x" u64Max 1)
  obtain ⟨both, s, hboth, hpublished, hread⟩ := run_bothHalves dashboard₁ others₂ dropped₂ u64Max
    (List.replicate k noEnvironments ++
      halfChunk "a" "x" u64Max 0 :: List.replicate 511 (.response 0 (.ok .ack)))
    (List.replicate k noEnvironments ++ [halfChunk "a" "x" u64Max 0] ++
      List.replicate 511 (.response 0 (.ok .ack)))
    (List.replicate k noEnvironments ++ [twoSnapshots "a" "x"]) "b" "y"
  have hforwarded : Reader.start.forwarded (s.connections 0).read =
      List.replicate k noEnvironments ++ [twoSnapshots "a" "y"] := by
    rw [hread, List.append_assoc, List.append_assoc, forwarded_replicate_noEnvironments,
      List.cons_append, List.singleton_append, forwarded_halves]
  have hmem : twoSnapshots "a" "y" ∈ (s.connections 0).handedOn := by
    rw [Connection.handedOn, hforwarded]
    exact List.mem_filter.mpr ⟨List.mem_append_right _ List.mem_cons_self, rfl⟩
  refine ⟨_, s, Machine.run_append.mpr ⟨_, hclimb, Machine.run_append.mpr ⟨_, hfirst,
    Machine.run_append.mpr ⟨_, hlose, hboth⟩⟩⟩, ?_, fun hinOrder ↦ ?_⟩
  · rw [hpublished]
    intro m hm
    simp only [List.mem_append, List.mem_replicate, List.mem_singleton] at hm
    rcases hm with (⟨-, rfl⟩ | rfl) | rfl <;> decide
  · have hold := InOrder.mem hinOrder hmem
    rw [hpublished] at hold
    simp [twoSnapshots, noEnvironments, snapshot] at hold

/-- Of more items than a `u32` can number, the first chunk is handed on as if it were all. -/
theorem exists_first_of_many : ∃ actions s,
    (daemon bulkyWireSize).run Daemon.start actions = some s ∧ begun actions ≤ 2 ^ 64 ∧
    ¬InOrder ServerMessage.dashboardCacheKey s.published (s.connections 0).handedOn := by
  obtain ⟨items, hitems⟩ : ∃ items : List SignalSnapshotDto, items.length = 2 ^ 32 :=
    ⟨List.replicate _ (snapshot "x"), List.length_replicate⟩
  obtain ⟨many, hmany⟩ : ∃ many : ServerMessage,
      many = .signalSnapshotsUpdated "a" (snapshot "x" :: items) := ⟨_, rfl⟩
  have hkey : many.dashboardCacheKey.isSome := by rw [hmany]; rfl
  obtain ⟨rest, hsplit⟩ : ∃ rest, splitForWire bulkyWireSize many 0 =
      .signalSnapshotsChunk "a" 0 0 1 [snapshot "x"] :: rest := by
    rw [hmany, splitForWire_bulky, buildChunks, List.length_cons,
      length_groupsOf_one (Nat.le_refl _), hitems]
    exact ⟨_, rfl⟩
  obtain ⟨others, hconnect⟩ := run_connect
  have hpublish : (daemon bulkyWireSize).step
      (oneClient ∅ others 0 0 none (servedConnection [] [] []) []) (.publish many [(0, 0)]) =
      some (oneClient (DashboardCache.remember ∅ many) others 0 0
        (some ⟨.publish, [(0, many)], none, 0, []⟩) (servedConnection [] [] []) [many]) :=
    if_pos ⟨hkey, rfl, List.Perm.refl _⟩
  have hbegin : (daemon bulkyWireSize).step (oneClient (DashboardCache.remember ∅ many) others 0 0
        (some ⟨.publish, [(0, many)], none, 0, []⟩) (servedConnection [] [] []) [many])
        .beginMessage =
      some (oneClient (DashboardCache.remember ∅ many) others 0 1 (some ⟨.publish, [],
        some (0, splitForWire bulkyWireSize many 0), 0, []⟩) (servedConnection [] [] []) [many]) :=
    rfl
  rw [hsplit] at hbegin
  refine ⟨_ ++ [.publish many [(0, 0)], .beginMessage, .trySend, .connection 0 .drain,
    .connection 0 .deliver], _, Machine.run_append.mpr ⟨_, hconnect,
    Machine.run_cons.mpr ⟨_, hpublish, Machine.run_cons.mpr ⟨_, hbegin, rfl⟩⟩⟩, ?_,
    fun hinOrder ↦ ?_⟩
  · exact Nat.one_le_two_pow
  · have hmem : ServerMessage.signalSnapshotsUpdated "a" [snapshot "x"] ∈ [many] :=
      InOrder.mem hinOrder List.mem_cons_self
    rw [List.mem_singleton, hmany] at hmem
    cases hmem
    cases hitems

end Daku.Wire
