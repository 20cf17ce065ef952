import Daku.Base.Machine
import Daku.Wire.Cache
import Daku.Wire.Split
import Mathlib.Logic.Function.Basic

/-!
# The hub and its connections

The daemon's hub and the connections it serves, `crates/daku-core/src/server.rs:48–189, 448–544`.
Publishing and replaying hold the hub's lock over many `try_send`s, and between two of them any
connection may drain its queue or be sent something else, so the work under the lock is a job that
proceeds piece by piece. A connection is a bounded queue, a socket and a client that reads from it.
-/

namespace Daku.Wire

open Daku.Base

/-- Bound on queued messages of a subscriber (`server.rs:59`). -/
def subscriberQueueBound : Nat := 512

/-- Largest `u64`. -/
def u64Max : Nat := 2 ^ 64 - 1

/-- `u64::saturating_add`. -/
def satAddU64 (a b : Nat) : Nat := min (a + b) u64Max

/-- A replay of the cache to one connection; `request` is the resync it answers, and the initial
replay has none. -/
structure Replay where
  request : Option Uuid
  /-- The cached messages when it began. -/
  cached : List ServerMessage
  /-- How many messages had been queued for the connection when it began. -/
  start : Nat
  /-- How many had been queued when it was done. -/
  done : Nat
  /-- How many cached messages did not fit. -/
  lost : Nat

/-- An `Ack` that was queued for a resync. -/
structure Answer where
  requestId : Uuid
  replay : Replay
  /-- How many messages had been queued before it. -/
  position : Nat

/-- Where a connection stands (`server.rs:380–511`). -/
inductive ConnectionPhase where
  | absent
  | joining
  | serving
  | leaving
  | gone
  deriving DecidableEq

/-- A connection, from its queue to what its client has read. -/
structure Connection where
  phase : ConnectionPhase
  subscriberId : Nat
  queue : List ServerMessage
  /-- Lost messages the client has not been told of (`server.rs:453`). -/
  pendingSyncDrops : Nat
  /-- Resync requests that wait for the hub. -/
  resyncs : List Uuid
  /-- Resyncs that are done and not acknowledged yet. -/
  acks : List (Uuid × Replay)
  /-- Written to the socket and not read yet. -/
  wire : List ServerMessage
  /-- Read by the client, in order. -/
  read : List ServerMessage
  /-- Everything queued so far, in order. -/
  queued : List ServerMessage
  /-- Replays that are done. -/
  replays : List Replay
  /-- Resyncs that are acknowledged. -/
  answered : List Answer

/-- What a connection and its client can do without the hub. -/
inductive ConnectionAction where
  /-- A client connects. -/
  | connect
  /-- Write a queued message to the socket. -/
  | drain
  /-- Try to queue the notice of a lossy replay. -/
  | notify
  | requestSync (requestId : Uuid)
  /-- Acknowledge one of the resyncs that are done. -/
  | acknowledge (index : Nat)
  /-- Queue the outcome of some other request. -/
  | respond (requestId : Uuid) (outcome : ResponseOutcome)
  /-- Write a refusal or the shutdown straight to the socket. -/
  | refuse (message : String)
  | shutDown
  /-- The connection's loop ends; or it ends with an error and stays subscribed. -/
  | leave
  | fail
  /-- The client reads a message. -/
  | deliver

namespace Connection

/-- A connection nobody has made. -/
def absent : Connection where
  phase := .absent
  subscriberId := 0
  queue := []
  pendingSyncDrops := 0
  resyncs := []
  acks := []
  wire := []
  read := []
  queued := []
  replays := []
  answered := []

variable (c : Connection)

/-- The receiver of the queue exists. -/
def Receiving : Prop := c.phase ≠ .absent ∧ c.phase ≠ .gone

instance : Decidable c.Receiving := inferInstanceAs (Decidable (_ ∧ _))

/-- The queue takes one more message. -/
def HasRoom : Prop := c.Receiving ∧ c.queue.length < subscriberQueueBound

instance : Decidable c.HasRoom := inferInstanceAs (Decidable (_ ∧ _))

/-- Queue a message. -/
def push (m : ServerMessage) : Connection :=
  { c with queue := c.queue ++ [m], queued := c.queued ++ [m] }

/-- One action of a connection or of its client (`server.rs:455–544`). -/
def step : ConnectionAction → Option Connection
  | .connect => if c.phase = .absent then some { c with phase := .joining } else none
  | .drain =>
    match c.phase, c.queue with
    | .serving, m :: queue => some { c with queue, wire := c.wire ++ [m] }
    | _, _ => none
  | .notify =>
    if c.phase = .serving ∧ 0 < c.pendingSyncDrops ∧ c.HasRoom then
      some { c.push (.dashboardSyncNeeded c.pendingSyncDrops) with pendingSyncDrops := 0 }
    else none
  | .requestSync requestId =>
    if c.phase = .serving then some { c with resyncs := c.resyncs ++ [requestId] } else none
  | .acknowledge index =>
    match c.acks[index]? with
    | some (requestId, replay) =>
      if c.HasRoom then
        some { c.push (.response requestId (.ok .ack)) with
          acks := c.acks.eraseIdx index
          answered := c.answered ++ [⟨requestId, replay, c.queued.length⟩] }
      else none
    | none => none
  | .respond requestId outcome =>
    if c.phase ≠ .joining ∧ c.HasRoom then some (c.push (.response requestId outcome)) else none
  | .refuse message =>
    if c.phase = .serving then some { c with wire := c.wire ++ [.rejected message] } else none
  | .shutDown =>
    if c.phase = .serving then
      some { c with phase := .leaving, wire := c.wire ++ [.shuttingDown] }
    else none
  | .leave => if c.phase = .serving then some { c with phase := .leaving } else none
  | .fail => if c.phase = .serving then some { c with phase := .gone } else none
  | .deliver =>
    match c.wire with
    | m :: wire => some { c with wire, read := c.read ++ [m] }
    | [] => none

/-- Everything a step can do, with what it requires. -/
inductive Step (c : Connection) : ConnectionAction → Connection → Prop where
  | connect (hphase : c.phase = .absent) : Step c .connect { c with phase := .joining }
  | drain {m : ServerMessage} {queue : List ServerMessage} (hphase : c.phase = .serving)
      (hqueue : c.queue = m :: queue) : Step c .drain { c with queue, wire := c.wire ++ [m] }
  | notify (hphase : c.phase = .serving) (hpending : 0 < c.pendingSyncDrops)
      (hroom : c.HasRoom) :
      Step c .notify
        { c.push (.dashboardSyncNeeded c.pendingSyncDrops) with pendingSyncDrops := 0 }
  | requestSync {requestId : Uuid} (hphase : c.phase = .serving) :
      Step c (.requestSync requestId) { c with resyncs := c.resyncs ++ [requestId] }
  | acknowledge {index : Nat} {requestId : Uuid} {replay : Replay}
      (hack : c.acks[index]? = some (requestId, replay)) (hroom : c.HasRoom) :
      Step c (.acknowledge index) { c.push (.response requestId (.ok .ack)) with
        acks := c.acks.eraseIdx index
        answered := c.answered ++ [⟨requestId, replay, c.queued.length⟩] }
  | respond {requestId : Uuid} {outcome : ResponseOutcome} (hphase : c.phase ≠ .joining)
      (hroom : c.HasRoom) :
      Step c (.respond requestId outcome) (c.push (.response requestId outcome))
  | refuse {message : String} (hphase : c.phase = .serving) :
      Step c (.refuse message) { c with wire := c.wire ++ [.rejected message] }
  | shutDown (hphase : c.phase = .serving) :
      Step c .shutDown { c with phase := .leaving, wire := c.wire ++ [.shuttingDown] }
  | leave (hphase : c.phase = .serving) : Step c .leave { c with phase := .leaving }
  | fail (hphase : c.phase = .serving) : Step c .fail { c with phase := .gone }
  | deliver {m : ServerMessage} {wire : List ServerMessage} (hwire : c.wire = m :: wire) :
      Step c .deliver { c with wire, read := c.read ++ [m] }

theorem step_spec {c c' : Connection} {a : ConnectionAction} (h : c.step a = some c') :
    Step c a c' := by
  cases a with
  | drain =>
    rw [step] at h
    split at h
    · next hphase hqueue =>
      cases h
      exact .drain hphase hqueue
    · cases h
  | notify =>
    rw [step, Option.ite_none_right_eq_some] at h
    obtain ⟨⟨hphase, hpending, hroom⟩, ⟨⟩⟩ := h
    exact .notify hphase hpending hroom
  | acknowledge index =>
    rw [step] at h
    split at h
    · next hack =>
      rw [Option.ite_none_right_eq_some] at h
      obtain ⟨hroom, ⟨⟩⟩ := h
      exact .acknowledge hack hroom
    · cases h
  | respond requestId outcome =>
    rw [step, Option.ite_none_right_eq_some] at h
    obtain ⟨⟨hphase, hroom⟩, ⟨⟩⟩ := h
    exact .respond hphase hroom
  | deliver =>
    rw [step] at h
    split at h
    · next hwire =>
      cases h
      exact .deliver hwire
    · cases h
  | connect =>
    rw [step, Option.ite_none_right_eq_some] at h
    obtain ⟨hphase, ⟨⟩⟩ := h
    exact .connect hphase
  | requestSync requestId =>
    rw [step, Option.ite_none_right_eq_some] at h
    obtain ⟨hphase, ⟨⟩⟩ := h
    exact .requestSync hphase
  | refuse message =>
    rw [step, Option.ite_none_right_eq_some] at h
    obtain ⟨hphase, ⟨⟩⟩ := h
    exact .refuse hphase
  | shutDown =>
    rw [step, Option.ite_none_right_eq_some] at h
    obtain ⟨hphase, ⟨⟩⟩ := h
    exact .shutDown hphase
  | leave =>
    rw [step, Option.ite_none_right_eq_some] at h
    obtain ⟨hphase, ⟨⟩⟩ := h
    exact .leave hphase
  | fail =>
    rw [step, Option.ite_none_right_eq_some] at h
    obtain ⟨hphase, ⟨⟩⟩ := h
    exact .fail hphase

end Connection

/-- What the hub's lock is held for. -/
inductive JobKind where
  | publish
  | subscribe (connection : Nat) (start : Nat)
  | resync (connection : Nat) (requestId : Uuid) (cached : List ServerMessage) (start : Nat)

/-- Work under the hub's lock: messages still to be sent, pieces of the one being sent, and how
many did not fit. -/
structure Job where
  kind : JobKind
  todo : List (Nat × ServerMessage)
  sending : Option (Nat × List ServerMessage)
  drops : Nat
  /-- Subscribers whose receivers turned out to be gone. -/
  disconnected : List Nat

/-- The hub (`server.rs:48–55`), the connections, and what has been published so far. -/
structure Daemon where
  nextSubscriberId : Nat
  /-- Connections by subscriber id. -/
  subscribers : List (Nat × Nat)
  dashboard : DashboardCache
  dropped : Nat
  nextTransferId : Nat
  job : Option Job
  connections : Nat → Connection
  published : List ServerMessage

namespace Daemon

/-- A hub that has published nothing. -/
def start : Daemon where
  nextSubscriberId := 0
  subscribers := []
  dashboard := ∅
  dropped := 0
  nextTransferId := 0
  job := none
  connections _ := .absent
  published := []

end Daemon

/-- What can happen next. -/
inductive DaemonAction where
  | connection (connection : Nat) (action : ConnectionAction)
  | subscribe (connection : Nat)
  /-- Publish a dashboard message to the subscribers in the order the hash map has them; the
  collector sends the hub nothing else. -/
  | publish (m : ServerMessage) (order : List (Nat × Nat))
  /-- Begin with the next message of the job. -/
  | beginMessage
  /-- Try to queue the next piece of the message. -/
  | trySend
  | finish
  | resync (connection : Nat) (requestId : Uuid)
  | unsubscribe (connection : Nat)

namespace Daemon

variable (wireSize : ServerMessage → Nat) (s : Daemon)

/-- Replace a connection. -/
def setConnection (connection : Nat) (c : Connection) : Daemon :=
  { s with connections := Function.update s.connections connection c }

/-- Begin with the next message; it gets a transfer id of its own (`server.rs:86–91, 174–178`). -/
def beginMessage : Option Daemon :=
  match s.job with
  | some ⟨kind, (connection, m) :: todo, none, drops, disconnected⟩ =>
    let pieces := splitForWire wireSize m s.nextTransferId
    some { s with
      nextTransferId := satAddU64 s.nextTransferId 1
      job := some ⟨kind, todo, some (connection, pieces), drops, disconnected⟩ }
  | _ => none

/-- Queue the next piece if there is room; otherwise the rest of the message is given up. A
publication to a receiver that is gone is not counted as a drop, a replay to it is
(`server.rs:91–112, 178–186`). -/
def trySend : Option Daemon :=
  match s.job with
  | some ⟨kind, todo, some (_, []), drops, disconnected⟩ =>
    some { s with job := some ⟨kind, todo, none, drops, disconnected⟩ }
  | some ⟨kind, todo, some (connection, piece :: pieces), drops, disconnected⟩ =>
    let c := s.connections connection
    if c.HasRoom then
      some { s.setConnection connection (c.push piece) with
        job := some ⟨kind, todo, some (connection, pieces), drops, disconnected⟩ }
    else
      match kind with
      | .publish =>
        if c.Receiving then
          some { s with job := some ⟨kind, todo, none, satAddU64 drops 1, disconnected⟩ }
        else some { s with job := some ⟨kind, todo, none, drops, disconnected ++ [connection]⟩ }
      | _ => some { s with job := some ⟨kind, todo, none, satAddU64 drops 1, disconnected⟩ }
  | _ => none

/-- Release the hub's lock (`server.rs:113–128, 139–150, 158–162`). -/
def finish : Option Daemon :=
  match s.job with
  | some ⟨.publish, [], none, drops, disconnected⟩ =>
    some { s with
      dropped := satAddU64 s.dropped drops
      subscribers := s.subscribers.filter fun subscriber ↦ subscriber.2 ∉ disconnected
      job := none }
  | some ⟨.subscribe connection start, [], none, drops, _⟩ =>
    let c := s.connections connection
    let id := s.nextSubscriberId
    let replay : Replay := ⟨none, s.dashboard.messages, start, c.queued.length, drops⟩
    some { s.setConnection connection { c with
        phase := .serving, subscriberId := id, pendingSyncDrops := drops
        replays := c.replays ++ [replay] } with
      dropped := satAddU64 s.dropped drops
      nextSubscriberId := satAddU64 id 1
      subscribers := s.subscribers.filter (fun subscriber ↦ subscriber.1 ≠ id) ++ [(id, connection)]
      job := none }
  | some ⟨.resync connection requestId cached start, [], none, drops, _⟩ =>
    let c := s.connections connection
    let replay : Replay := ⟨some requestId, cached, start, c.queued.length, drops⟩
    some { s.setConnection connection
        { c with acks := c.acks ++ [(requestId, replay)], replays := c.replays ++ [replay] } with
      dropped := satAddU64 s.dropped drops
      job := none }
  | _ => none

/-- One action of the hub or of a connection. -/
def step (a : DaemonAction) : Option Daemon :=
  match a with
  | .connection connection action =>
    ((s.connections connection).step action).map (s.setConnection connection)
  | .subscribe connection =>
    let c := s.connections connection
    if c.phase = .joining ∧ s.job.isNone then
      some { s with job := some ⟨.subscribe connection c.queued.length,
        s.dashboard.messages.map fun m ↦ (connection, m), none, 0, []⟩ }
    else none
  | .publish m order =>
    if m.dashboardCacheKey.isSome ∧ s.job.isNone ∧ order.Perm s.subscribers then
      some { s with
        dashboard := s.dashboard.remember m
        published := s.published ++ [m]
        job := some ⟨.publish, order.map fun subscriber ↦ (subscriber.2, m), none, 0, []⟩ }
    else none
  | .beginMessage => s.beginMessage wireSize
  | .trySend => s.trySend
  | .finish => s.finish
  | .resync connection requestId =>
    let c := s.connections connection
    if requestId ∈ c.resyncs ∧ s.job.isNone then
      some { s.setConnection connection { c with resyncs := c.resyncs.erase requestId } with
        job := some ⟨.resync connection requestId s.dashboard.messages c.queued.length,
          s.dashboard.messages.map fun m ↦ (connection, m), none, 0, []⟩ }
    else none
  | .unsubscribe connection =>
    let c := s.connections connection
    if c.phase = .leaving ∧ s.job.isNone then
      some { s.setConnection connection { c with phase := .gone } with
        subscribers := s.subscribers.filter fun subscriber ↦ subscriber.1 ≠ c.subscriberId }
    else none

end Daemon

namespace Daemon

variable {wireSize : ServerMessage → Nat} {s t : Daemon} {a : DaemonAction}

@[simp] theorem connections_setConnection_self (s : Daemon) (connection : Nat) (c : Connection) :
    (s.setConnection connection c).connections connection = c :=
  Function.update_self ..

theorem connections_setConnection_of_ne (s : Daemon) {connection other : Nat} (c : Connection)
    (h : other ≠ connection) :
    (s.setConnection connection c).connections other = s.connections other :=
  Function.update_of_ne h ..

/-- What replacing one connection does to every connection. -/
theorem forall_setConnection {P : Connection → Connection → Prop} (hrefl : ∀ c, P c c)
    {connection : Nat} {c : Connection} (h : P (s.connections connection) c) (other : Nat) :
    P (s.connections other) ((s.setConnection connection c).connections other) := by
  by_cases heq : other = connection
  · rw [heq, connections_setConnection_self]
    exact h
  · rw [connections_setConnection_of_ne s c heq]
    exact hrefl _

/-- Everything a step can do, with what it requires. -/
inductive Step (wireSize : ServerMessage → Nat) (s : Daemon) : DaemonAction → Daemon → Prop where
  | connection {connection : Nat} {action : ConnectionAction} {c : Connection}
      (h : (s.connections connection).step action = some c) :
      Step wireSize s (.connection connection action) (s.setConnection connection c)
  | subscribe {connection : Nat} (hphase : (s.connections connection).phase = .joining)
      (hjob : s.job = none) :
      Step wireSize s (.subscribe connection) { s with
        job := some ⟨.subscribe connection (s.connections connection).queued.length,
          s.dashboard.messages.map fun m ↦ (connection, m), none, 0, []⟩ }
  | publish {m : ServerMessage} {order : List (Nat × Nat)} (hkey : m.dashboardCacheKey.isSome)
      (hjob : s.job = none) (horder : order.Perm s.subscribers) :
      Step wireSize s (.publish m order) { s with
        dashboard := s.dashboard.remember m
        published := s.published ++ [m]
        job := some ⟨.publish, order.map fun subscriber ↦ (subscriber.2, m), none, 0, []⟩ }
  | beginMessage {kind : JobKind} {connection : Nat} {m : ServerMessage}
      {todo : List (Nat × ServerMessage)} {drops : Nat} {disconnected : List Nat}
      (hjob : s.job = some ⟨kind, (connection, m) :: todo, none, drops, disconnected⟩) :
      Step wireSize s .beginMessage { s with
        nextTransferId := satAddU64 s.nextTransferId 1
        job := some ⟨kind, todo, some (connection, splitForWire wireSize m s.nextTransferId),
          drops, disconnected⟩ }
  | sent {kind : JobKind} {connection : Nat} {todo : List (Nat × ServerMessage)} {drops : Nat}
      {disconnected : List Nat}
      (hjob : s.job = some ⟨kind, todo, some (connection, []), drops, disconnected⟩) :
      Step wireSize s .trySend { s with job := some ⟨kind, todo, none, drops, disconnected⟩ }
  | send {kind : JobKind} {connection : Nat} {piece : ServerMessage}
      {pieces : List ServerMessage} {todo : List (Nat × ServerMessage)} {drops : Nat}
      {disconnected : List Nat}
      (hjob : s.job = some ⟨kind, todo, some (connection, piece :: pieces), drops, disconnected⟩)
      (hroom : (s.connections connection).HasRoom) :
      Step wireSize s .trySend
        { s.setConnection connection ((s.connections connection).push piece) with
          job := some ⟨kind, todo, some (connection, pieces), drops, disconnected⟩ }
  | giveUp {kind : JobKind} {connection : Nat} {piece : ServerMessage}
      {pieces : List ServerMessage} {todo : List (Nat × ServerMessage)} {drops drops' : Nat}
      {disconnected disconnected' : List Nat}
      (hjob : s.job = some ⟨kind, todo, some (connection, piece :: pieces), drops, disconnected⟩)
      (hroom : ¬(s.connections connection).HasRoom)
      (hdrops : kind = .publish ∨ drops' = satAddU64 drops 1) :
      Step wireSize s .trySend { s with job := some ⟨kind, todo, none, drops', disconnected'⟩ }
  | finishPublish {drops : Nat} {disconnected : List Nat}
      (hjob : s.job = some ⟨.publish, [], none, drops, disconnected⟩) :
      Step wireSize s .finish { s with
        dropped := satAddU64 s.dropped drops
        subscribers := s.subscribers.filter fun subscriber ↦ subscriber.2 ∉ disconnected
        job := none }
  | finishSubscribe {connection start drops : Nat} {disconnected : List Nat}
      (hjob : s.job = some ⟨.subscribe connection start, [], none, drops, disconnected⟩) :
      Step wireSize s .finish { s.setConnection connection { s.connections connection with
          phase := .serving, subscriberId := s.nextSubscriberId, pendingSyncDrops := drops
          replays := (s.connections connection).replays ++ [⟨none, s.dashboard.messages, start,
            (s.connections connection).queued.length, drops⟩] } with
        dropped := satAddU64 s.dropped drops
        nextSubscriberId := satAddU64 s.nextSubscriberId 1
        subscribers := s.subscribers.filter (fun subscriber ↦
          subscriber.1 ≠ s.nextSubscriberId) ++ [(s.nextSubscriberId, connection)]
        job := none }
  | finishResync {connection start drops : Nat} {requestId : Uuid} {cached : List ServerMessage}
      {disconnected : List Nat}
      (hjob : s.job =
        some ⟨.resync connection requestId cached start, [], none, drops, disconnected⟩) :
      Step wireSize s .finish { s.setConnection connection { s.connections connection with
          acks := (s.connections connection).acks ++ [(requestId, ⟨some requestId, cached, start,
            (s.connections connection).queued.length, drops⟩)]
          replays := (s.connections connection).replays ++ [⟨some requestId, cached, start,
            (s.connections connection).queued.length, drops⟩] } with
        dropped := satAddU64 s.dropped drops
        job := none }
  | resync {connection : Nat} {requestId : Uuid}
      (hrequest : requestId ∈ (s.connections connection).resyncs) (hjob : s.job = none) :
      Step wireSize s (.resync connection requestId)
        { s.setConnection connection { s.connections connection with
            resyncs := (s.connections connection).resyncs.erase requestId } with
          job := some ⟨.resync connection requestId s.dashboard.messages
            (s.connections connection).queued.length,
            s.dashboard.messages.map fun m ↦ (connection, m), none, 0, []⟩ }
  | unsubscribe {connection : Nat} (hphase : (s.connections connection).phase = .leaving)
      (hjob : s.job = none) :
      Step wireSize s (.unsubscribe connection)
        { s.setConnection connection { s.connections connection with phase := .gone } with
          subscribers := s.subscribers.filter fun subscriber ↦
            subscriber.1 ≠ (s.connections connection).subscriberId }

theorem step_spec (h : s.step wireSize a = some t) : Step wireSize s a t := by
  cases a with
  | connection connection action =>
    obtain ⟨c, hc, rfl⟩ := Option.map_eq_some_iff.mp h
    exact .connection hc
  | subscribe connection =>
    rw [step] at h
    split at h
    · next hready =>
      cases h
      exact .subscribe hready.1 (Option.isNone_iff_eq_none.mp hready.2)
    · cases h
  | publish m order =>
    rw [step] at h
    split at h
    · next hready =>
      cases h
      exact .publish hready.1 (Option.isNone_iff_eq_none.mp hready.2.1) hready.2.2
    · cases h
  | beginMessage =>
    rw [step, beginMessage] at h
    split at h
    · next hjob =>
      cases h
      exact .beginMessage hjob
    · cases h
  | trySend =>
    rw [step, trySend] at h
    split at h
    · next hjob =>
      cases h
      exact .sent hjob
    · next kind _ connection _ _ _ _ hjob =>
      by_cases hroom : (s.connections connection).HasRoom
      · simp only [if_pos hroom, Option.some.injEq] at h
        exact h ▸ .send hjob hroom
      · simp only [if_neg hroom] at h
        cases kind with
        | publish =>
          dsimp only at h
          split at h
          · cases h
            exact .giveUp hjob hroom (Or.inl rfl)
          · cases h
            exact .giveUp hjob hroom (Or.inl rfl)
        | subscribe =>
          cases h
          exact .giveUp hjob hroom (Or.inr rfl)
        | resync =>
          cases h
          exact .giveUp hjob hroom (Or.inr rfl)
    · cases h
  | finish =>
    rw [step, finish] at h
    split at h
    · next hjob =>
      cases h
      exact .finishPublish hjob
    · next hjob =>
      cases h
      exact .finishSubscribe hjob
    · next hjob =>
      cases h
      exact .finishResync hjob
    · cases h
  | resync connection requestId =>
    rw [step] at h
    split at h
    · next hready =>
      cases h
      exact .resync hready.1 (Option.isNone_iff_eq_none.mp hready.2)
    · cases h
  | unsubscribe connection =>
    rw [step] at h
    split at h
    · next hready =>
      cases h
      exact .unsubscribe hready.1 (Option.isNone_iff_eq_none.mp hready.2)
    · cases h

end Daemon

/-- The daemon with its clients, one action at a time. -/
def daemon (wireSize : ServerMessage → Nat) : Machine Daemon DaemonAction where
  step s a := s.step wireSize a

end Daku.Wire
