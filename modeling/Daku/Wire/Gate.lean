import Daku.Wire.Hub

/-!
# The gate of the daemon

How a connection gets to the hub: `serve`, `handle_connection`, `validate_handshake` and
`read_client_message` of `crates/daku-core/src/server.rs:308–616`. Any number of peers connect and
send what they like, in any order; behind the gate is the hub with all its connections.
-/

namespace Daku.Wire

open Daku.Base

/-- Most connections at a time (`server.rs:26`). -/
def maxConnections : Nat := 64

/-- `PROTOCOL_VERSION` (`crates/daku-protocol/src/protocol.rs:7`). -/
def protocolVersion : Nat := 11

/-- `ServerOptions` (`server.rs:28–32`). -/
structure ServerOptions where
  allowedOrigins : List String
  allowShutdown : Bool
  deriving DecidableEq, Repr

/-- What the server looks at in a WebSocket handshake; an `Origin` may not be text. -/
structure HandshakeRequest where
  path : String
  origin : Option (Option String)
  deriving DecidableEq, Repr

/-- `validate_handshake` (`server.rs:548–571`). -/
def validateHandshake (options : ServerOptions) (request : HandshakeRequest) :
    Except (Nat × String) Unit :=
  if request.path ≠ "/v1" then .error (404, "unknown daemon endpoint")
  else
    match request.origin with
    | none => .ok ()
    | some origin =>
      if origin.any (options.allowedOrigins.contains ·) then .ok ()
      else .error (403, "WebSocket origin is not allowed")

/-- `token_matches` (`server.rs:581–583`). -/
def tokenMatches (expected candidate : String) : Bool := expected = candidate

/-- What a read of the socket gives; a text may not be a client message. -/
inductive Frame where
  | text (message : Option ClientMessage)
  | ping
  | close
  | other
  /-- An error that may be retried (`server.rs:585–605`). -/
  | retry
  | closed
  | failed
  deriving DecidableEq

/-- What a peer sends. -/
inductive Input where
  /-- The handshake, if it is one. -/
  | upgrade (request : Option HandshakeRequest)
  | frame (frame : Frame)
  deriving DecidableEq

/-- Where the thread of a peer stands. -/
inductive PeerPhase where
  | unknown
  /-- There are too many connections (`server.rs:341–348`). -/
  | refused
  | upgrading
  /-- It waits for the hello (`server.rs:402–432`). -/
  | greeting
  | serving
  | ended
  /-- The permit is dropped (`server.rs:34–40`). -/
  | released
  deriving DecidableEq, Repr

/-- There is a thread with a permit. -/
def PeerPhase.Live (phase : PeerPhase) : Prop :=
  phase = .upgrading ∨ phase = .greeting ∨ phase = .serving ∨ phase = .ended

instance (phase : PeerPhase) : Decidable phase.Live := by
  unfold PeerPhase.Live
  infer_instance

/-- The server with its peers and the hub. -/
structure Server where
  activeConnections : Nat
  shutdown : Bool
  phase : Nat → PeerPhase
  /-- What a peer is sent before it is served. -/
  greeted : Nat → List ServerMessage
  /-- Requests that got to the backend (`server.rs:528–544`). -/
  dispatched : List (Nat × Request)
  hub : Daemon

/-- A server that nobody has connected to. -/
def Server.start : Server where
  activeConnections := 0
  shutdown := false
  phase _ := .unknown
  greeted _ := []
  dispatched := []
  hub := Daemon.start

/-- What happens next. -/
inductive ServerAction where
  | accept (peer : Nat)
  | receive (peer : Nat) (input : Input) (writes : Bool)
  /-- The loop sees the shutdown flag or fails to write a queued message (`server.rs:455–460`). -/
  | quit (peer : Nat)
  | release (peer : Nat)
  /-- The parent is gone (`crates/daku-daemon/src/main.rs:68–78`). -/
  | stop
  | hub (action : DaemonAction)

/-- Hub actions that only the loop of a connection takes. -/
def ofLoop : DaemonAction → Bool
  | .connection _ .connect | .connection _ (.requestSync _) | .connection _ (.refuse _)
  | .connection _ .shutDown | .connection _ .leave | .connection _ .fail => true
  | _ => false

namespace Server

variable (wireSize : ServerMessage → Nat) (options : ServerOptions) (auth : String)

/-- A peer gets to a phase. -/
def setPhase (s : Server) (peer : Nat) (phase : PeerPhase) : Server :=
  { s with phase := Function.update s.phase peer phase }

/-- A peer is sent something outside the hub. -/
def greet (s : Server) (peer : Nat) (m : ServerMessage) : Server :=
  { s with greeted := Function.update s.greeted peer (s.greeted peer ++ [m]) }

/-- The hub moves. -/
def moveHub (s : Server) (action : DaemonAction) : Option Server :=
  (s.hub.step wireSize action).map fun hub ↦ { s with hub }

/-- The first message of a peer (`server.rs:402–439, 607–616`). -/
def readHello (s : Server) (peer : Nat) (writes : Bool) : Frame → Option Server
  | .text (some (.hello version token _)) =>
    if version = protocolVersion ∧ tokenMatches auth token = true then
      if writes = true then
        ((s.greet peer (.hello protocolVersion "0.1.0")).setPhase peer .serving).moveHub wireSize
          (.connection peer .connect)
      else some (s.setPhase peer .ended)
    else if version ≠ protocolVersion then
      some ((s.greet peer (.rejected
        s!"protocol {version} is unsupported; expected {protocolVersion}")).setPhase peer .ended)
    else some ((s.greet peer (.rejected "authentication failed")).setPhase peer .ended)
  | .ping => if writes = true then some s else some (s.setPhase peer .ended)
  | .other => some s
  | _ => some (s.setPhase peer .ended)

/-- The loop of a connection reads (`server.rs:470–509`). -/
def serve (s : Server) (peer : Nat) (writes : Bool) : Frame → Option Server
  | .text (some (.request request)) =>
    if request.command = .requestDashboardSync then
      s.moveHub wireSize (.connection peer (.requestSync request.requestId))
    else some { s with dispatched := s.dispatched ++ [(peer, request)] }
  | .text (some .shutdown) =>
    if writes = false then
      (s.setPhase peer .ended).moveHub wireSize (.connection peer .fail)
    else if options.allowShutdown = true then
      { s.setPhase peer .ended with shutdown := true }.moveHub wireSize
        (.connection peer .shutDown)
    else
      s.moveHub wireSize
        (.connection peer (.refuse "daemon shutdown is managed by its service owner"))
  | .close | .closed => (s.setPhase peer .ended).moveHub wireSize (.connection peer .leave)
  | .failed => (s.setPhase peer .ended).moveHub wireSize (.connection peer .fail)
  | _ => some s

/-- A peer sends something (`server.rs:380–511`). -/
def receive (s : Server) (peer : Nat) (writes : Bool) : Input → Option Server
  | .upgrade request =>
    if s.phase peer = .upgrading then
      match request.map (validateHandshake options) with
      | some (.ok ()) => some (s.setPhase peer .greeting)
      | _ => some (s.setPhase peer .ended)
    else none
  | .frame frame =>
    if s.phase peer = .greeting then s.readHello wireSize auth peer writes frame
    else if s.phase peer = .serving ∧ (s.hub.connections peer).phase = .serving then
      s.serve wireSize options peer writes frame
    else none

/-- One step (`server.rs:338–373` and the threads it starts). -/
def step (s : Server) : ServerAction → Option Server
  | .accept peer =>
    if s.shutdown = false ∧ s.phase peer = .unknown then
      if s.activeConnections < maxConnections then
        some { s.setPhase peer .upgrading with activeConnections := s.activeConnections + 1 }
      else some (s.setPhase peer .refused)
    else none
  | .receive peer input writes => s.receive wireSize options auth peer writes input
  | .quit peer =>
    if s.phase peer = .serving then
      (s.setPhase peer .ended).moveHub wireSize (.connection peer .leave)
    else none
  | .release peer =>
    if s.phase peer = .ended ∧ ((s.hub.connections peer).phase = .absent ∨
        (s.hub.connections peer).phase = .gone) then
      some { s.setPhase peer .released with activeConnections := s.activeConnections - 1 }
    else none
  | .stop => some { s with shutdown := true }
  | .hub action => if ofLoop action = true then none else s.moveHub wireSize action

end Server

/-- The server, one step at a time. -/
def server (wireSize : ServerMessage → Nat) (options : ServerOptions) (auth : String) :
    Machine Server ServerAction where
  step s := s.step wireSize options auth

/-- What a peer has sent in a run. -/
def inputsOf (peer : Nat) (actions : List ServerAction) : List Input :=
  actions.filterMap fun
    | .receive p input _ => if p = peer then some input else none
    | _ => none

/-- What a peer may send before its hello. -/
def Input.isIdle : Input → Bool
  | .frame .ping | .frame .other => true
  | _ => false

/-- A peer that has asked for the endpoint from nowhere or from an allowed origin, and whose first
message is a hello of this protocol with the token. -/
def Authenticated (options : ServerOptions) (auth : String) (inputs : List Input) : Prop :=
  ∃ request idle clientId rest,
    inputs = .upgrade (some request) :: idle ++
      .frame (.text (some (.hello protocolVersion auth clientId))) :: rest ∧
    validateHandshake options request = .ok () ∧ ∀ input ∈ idle, input.isIdle = true

end Daku.Wire
