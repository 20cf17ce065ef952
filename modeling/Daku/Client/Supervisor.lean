import Daku.Base.Machine
import Mathlib.Logic.Function.Basic

/-!
# The supervisor of the daemon

`DaemonSupervisor`, `crates/daku-client/src/process.rs:253–273, 364–379, 451–528`: calls of
`subscribe_clients` share the target and the list of senders with the one monitor thread that
replaces the daemon. Each action is what one of them does under a lock, or between two locks.
Clients are numbered in the order in which they become the target; the first one is 0.
-/

namespace Daku.Client

open Daku.Base

/-- What the supervisor looks after (`process.rs:265–269`). -/
inductive DaemonTarget where
  | local (client : ℕ)
  | restarting (client : ℕ)
  | remote (client : ℕ)

/-- `DaemonTarget::client` (`process.rs:271–279`). -/
def DaemonTarget.client : DaemonTarget → ℕ
  | .local client | .restarting client | .remote client => client

/-- Where a call of `subscribe_clients` stands (`process.rs:370–379`). -/
inductive SubscriberPhase where
  | idle
  | targetLocked
  | pushed
  /-- The client of the target is at hand. -/
  | read (client : ℕ)
  | sent
  | returned
  /-- The receiver was dropped. -/
  | hungUp
  deriving DecidableEq

/-- A subscriber: the target when it took the lock, and the clients it has received. -/
structure Subscriber where
  phase : SubscriberPhase
  joined : ℕ
  received : List ℕ

/-- Where the monitor thread stands (`process.rs:411–437, 468–482, 498–528`). -/
inductive MonitorPhase (ι : Type) where
  | polling
  /-- The local daemon is taken out of the target. -/
  | spawning
  | connecting
  | connected (target : DaemonTarget)
  | swapped (client : ℕ)
  /-- `client_updates` is locked; these subscribers are still to be told. -/
  | fanningOut (client : ℕ) (todo : List ι)

/-- What the subscribers and the monitor thread share. -/
structure Supervisor (ι : Type) where
  target : DaemonTarget
  targetLock : Option ι
  clientUpdates : List ι
  subscribers : ι → Subscriber
  monitor : MonitorPhase ι

/-- What a call of `subscribe_clients` does next. -/
inductive SubscriberAction where
  | lockTarget
  | push
  | read
  | send
  | unlockTarget
  | hangUp

/-- What the monitor thread does next. -/
inductive MonitorAction where
  | beginReplace
  | beginReconnect
  | connect (ok : Bool)
  | setTarget
  | lockUpdates
  | send
  | unlockUpdates

/-- An action of one of the threads. -/
inductive SupervisorAction (ι : Type) where
  | subscriber (i : ι) (a : SubscriberAction)
  | monitor (a : MonitorAction)

namespace Supervisor

variable {ι : Type} [DecidableEq ι]

/-- A supervisor nobody has subscribed to (`process.rs:318–334`). -/
def start (target : ℕ → DaemonTarget) : Supervisor ι where
  target := target 0
  targetLock := none
  clientUpdates := []
  subscribers _ := ⟨.idle, 0, []⟩
  monitor := .polling

variable (s : Supervisor ι)

/-- A subscriber has done its next step. -/
def setSubscriber (i : ι) (c : Subscriber) : Supervisor ι :=
  { s with subscribers := Function.update s.subscribers i c }

/-- A client is sent to a subscriber. -/
def deliver (i : ι) (client : ℕ) (phase : SubscriberPhase) : Supervisor ι :=
  let c := s.subscribers i
  s.setSubscriber i { c with phase, received := c.received ++ [client] }

/-- `client_updates` is locked by the monitor thread. -/
def UpdatesLocked : Prop :=
  match s.monitor with
  | .fanningOut _ _ => True
  | _ => False

instance : Decidable s.UpdatesLocked := by
  unfold UpdatesLocked
  split <;> infer_instance

/-- One step of `subscribe_clients` (`process.rs:370–379`). -/
def stepSubscriber (i : ι) (a : SubscriberAction) : Option (Supervisor ι) :=
  let c := s.subscribers i
  match a, c.phase with
  | .lockTarget, .idle =>
    if s.targetLock = none then
      some { s.setSubscriber i { c with phase := .targetLocked, joined := s.target.client } with
        targetLock := some i }
    else none
  | .push, .targetLocked =>
    if s.UpdatesLocked then none
    else some { s.setSubscriber i { c with phase := .pushed } with
      clientUpdates := s.clientUpdates ++ [i] }
  | .read, .pushed => some (s.setSubscriber i { c with phase := .read s.target.client })
  | .send, .read client => some (s.deliver i client .sent)
  | .unlockTarget, .sent =>
    some { s.setSubscriber i { c with phase := .returned } with targetLock := none }
  | .hangUp, .returned => some (s.setSubscriber i { c with phase := .hungUp })
  | _, _ => none

/-- One step of the monitor thread (`process.rs:411–437, 468–482, 498–528`). -/
def stepMonitor (a : MonitorAction) : Option (Supervisor ι) :=
  match a, s.monitor with
  | .beginReplace, .polling =>
    match s.targetLock, s.target with
    | none, .local client =>
      some { s with target := .restarting client, monitor := .spawning }
    | none, .restarting _ => some { s with monitor := .spawning }
    | _, _ => none
  | .beginReconnect, .polling =>
    match s.targetLock, s.target with
    | none, .remote _ => some { s with monitor := .connecting }
    | _, _ => none
  | .connect false, .spawning => some { s with monitor := .polling }
  | .connect true, .spawning =>
    some { s with monitor := .connected (.local (s.target.client + 1)) }
  | .connect false, .connecting => some { s with monitor := .polling }
  | .connect true, .connecting =>
    some { s with monitor := .connected (.remote (s.target.client + 1)) }
  | .setTarget, .connected target =>
    if s.targetLock = none then some { s with target, monitor := .swapped target.client }
    else none
  | .lockUpdates, .swapped client =>
    some { s with monitor := .fanningOut client s.clientUpdates }
  | .send, .fanningOut client (i :: todo) =>
    match (s.subscribers i).phase with
    -- A send to a dropped receiver fails; `retain` drops the sender.
    | .hungUp => some { s with
        clientUpdates := s.clientUpdates.filter fun j ↦ j ≠ i
        monitor := .fanningOut client todo }
    | phase => some { s.deliver i client phase with monitor := .fanningOut client todo }
  | .unlockUpdates, .fanningOut _ [] => some { s with monitor := .polling }
  | _, _ => none

/-- One action. -/
def step (a : SupervisorAction ι) : Option (Supervisor ι) :=
  match a with
  | .subscriber i a => s.stepSubscriber i a
  | .monitor a => s.stepMonitor a

end Supervisor

/-- The threads as a machine. -/
def supervising (ι : Type) [DecidableEq ι] : Machine (Supervisor ι) (SupervisorAction ι) where
  step s a := s.step a

end Daku.Client
