import Daku.Wire.Assembly

/-!
# The reader of a connection

What the reader thread makes of each message the daemon sends,
`crates/daku-client/src/client.rs:300–312, 329–446`.
-/

namespace Daku.Wire

/-- What the reader keeps from message to message (`client.rs:300–303`). -/
structure Reader where
  transfers : Transfers
  resyncRequested : Bool

/-- What the reader does about a message. -/
inductive Reaction where
  | nothing
  | respond (requestId : Uuid) (outcome : ResponseOutcome)
  /-- Hand a message on to the subscribers and, if told so, ask for a resync after it. -/
  | forward (m : ServerMessage) (resync : Bool)
  | hangUp

namespace Reader

/-- A reader that has read nothing. -/
def start : Reader := ⟨∅, false⟩

/-- One message read (`client.rs:334–445`). -/
def receive (r : Reader) : ServerMessage → Reaction × Reader
  | .response requestId outcome => (.respond requestId outcome, r)
  | m@(.environmentsUpdated ..) | m@(.signalSnapshotsUpdated ..) | m@(.signalSamplesUpdated ..)
  | m@(.healthEventsUpdated ..) | m@(.signalEventsUpdated ..) | m@(.signalRollupsUpdated ..) =>
    (.forward m false, r)
  | m@(.signalSamplesChunk ..) | m@(.signalRollupsChunk ..) | m@(.signalSnapshotsChunk ..) =>
    match r.transfers.ingest m with
    | (some whole, transfers) => (.forward whole false, { r with transfers })
    | (none, transfers) => (.nothing, { r with transfers })
  | m@(.dashboardSyncNeeded _) =>
    (.forward m !r.resyncRequested, { r with resyncRequested := true })
  | .shuttingDown => (.hangUp, r)
  | .hello .. | .rejected _ => (.nothing, r)

/-- What the reader hands on of the messages it reads, until the daemon shuts down. -/
def forwarded : Reader → List ServerMessage → List ServerMessage
  | _, [] => []
  | r, m :: ms =>
    match r.receive m with
    | (.forward whole _, r) => whole :: r.forwarded ms
    | (.hangUp, _) => []
    | (.nothing, r) | (.respond .., r) => r.forwarded ms

end Reader

end Daku.Wire
