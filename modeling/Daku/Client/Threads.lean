import Daku.Base.Machine
import Daku.Wire.Cache
import Daku.Wire.Reader
import Mathlib.Data.Finset.Basic
import Mathlib.Logic.Function.Basic

/-!
# Threads of a client

Callers of `request`, callers of `subscribe_dashboard` and the reader thread share one
`ClientInner`, `crates/daku-client/src/client.rs:32–38, 225–274, 294–467`. Each action is what one
of them does under a lock, or between two locks; any of them may take the next action. Request
ids are random and never used twice, so they name the calls of `request`; calls of
`subscribe_dashboard` are numbered.
-/

namespace Daku.Client

open Daku.Base Daku.Wire

/-- What is queued for the socket (`client.rs:25–30`). -/
inductive Outgoing where
  | message (m : ClientMessage)
  | shutdown

/-- Where a call of `request` stands; a registered call has a channel for one answer. -/
inductive Call where
  | idle
  | checked
  | registered (answer : Option ResponseOutcome)
  | waiting (answer : Option ResponseOutcome)
  /-- The outgoing channel is closed. -/
  | refused
  /-- The 120 s are over. -/
  | expired
  | returned (result : ResponseOutcome)

/-- Only a call that still listens gets an answer. -/
def Call.answer (c : Call) (outcome : ResponseOutcome) : Call :=
  match c with
  | registered none => registered (some outcome)
  | waiting none => waiting (some outcome)
  | c => c

/-- Where a call of `subscribe_dashboard` stands. -/
inductive Subscription where
  | idle
  | cacheLocked
  | locked
  | replayed
  | flagRead (disconnected : Bool)
  | registered
  | dashboardUnlocked
  | returned
  /-- The receiver was dropped. -/
  | hungUp
  deriving DecidableEq

/-- Where the reader thread stands. -/
inductive Phase where
  | reading
  /-- `forward` is about to lock the cache. -/
  | forwarding (m : ServerMessage) (resync : Bool)
  /-- `forward` is about to lock the list of subscribers. -/
  | fanningOut (m : ServerMessage) (resync : Bool)
  | requestingResync
  /-- The loop is left. -/
  | leaving
  | flagged
  /-- The pending calls are taken; these are still to be told. -/
  | telling (calls : Finset Uuid)
  | dashboardCleared
  | cacheCleared
  /-- The thread has ended and dropped the receiver of the outgoing channel. -/
  | ended

/-- What the threads share, and where each one stands. -/
structure Threads where
  disconnected : Bool
  outgoing : List Outgoing
  pending : Finset Uuid
  calls : Uuid → Call
  cache : DashboardCache
  cacheLock : Option Nat
  /-- Registered senders, by the number of the call that registered them. -/
  dashboard : List Nat
  dashboardLock : Option Nat
  subscriptions : Nat → Subscription
  /-- What has been sent to each subscriber. -/
  received : Nat → List ServerMessage
  reader : Reader
  phase : Phase
  /-- What has been cached and handed on so far, in order. -/
  forwarded : List ServerMessage

namespace Threads

/-- A client that has just connected (`client.rs:203–216`). -/
def start : Threads where
  disconnected := false
  outgoing := []
  pending := ∅
  calls _ := .idle
  cache := ∅
  cacheLock := none
  dashboard := []
  dashboardLock := none
  subscriptions _ := .idle
  received _ := []
  reader := Reader.start
  phase := .reading
  forwarded := []

end Threads

/-- What a call of `request` does next (`client.rs:246–274`). -/
inductive CallAction where
  | check
  | register
  | send (command : Command)
  | receive
  | timeOut
  | withdraw

/-- What a call of `subscribe_dashboard` does next (`client.rs:225–244`). -/
inductive SubscriptionAction where
  | lockCache
  | lockDashboard
  | replay
  | readFlag
  | register
  | unlockDashboard
  | unlockCache
  | hangUp

/-- What the reader thread does next (`client.rs:294–467`). -/
inductive ReaderAction where
  | takeOutgoing (written : Bool)
  | read (m : ServerMessage)
  | lose
  | insertCache
  | fanOut
  | requestResync (requestId : Uuid)
  | setDisconnected
  | takePending
  | tell (requestId : Uuid)
  | clearDashboard
  | clearCache
  | dropReceiver

/-- An action of one of the threads. -/
inductive Action where
  | call (requestId : Uuid) (a : CallAction)
  | subscription (number : Nat) (a : SubscriptionAction)
  | reader (a : ReaderAction)

namespace Threads

variable (s : Threads)

/-- Move a call on. -/
def setCall (requestId : Uuid) (c : Call) : Threads :=
  { s with calls := Function.update s.calls requestId c }

/-- Send an answer to a call. -/
def answer (requestId : Uuid) (outcome : ResponseOutcome) : Threads :=
  s.setCall requestId ((s.calls requestId).answer outcome)

/-- Move a subscription on. -/
def setSubscription (number : Nat) (u : Subscription) : Threads :=
  { s with subscriptions := Function.update s.subscriptions number u }

/-- One action of a call of `request` (`client.rs:246–274`). -/
def stepCall (requestId : Uuid) (a : CallAction) : Option Threads :=
  match a, s.calls requestId with
  | .check, .idle =>
    if s.disconnected then
      some (s.setCall requestId (.returned (.error "daku daemon is disconnected")))
    else some (s.setCall requestId .checked)
  | .register, .checked =>
    some { s.setCall requestId (.registered none) with pending := insert requestId s.pending }
  | .send command, .registered answer =>
    match s.phase with
    | .ended => some (s.setCall requestId .refused)
    | _ => some { s.setCall requestId (.waiting answer) with
        outgoing := s.outgoing ++ [.message (.request ⟨requestId, command⟩)] }
  | .receive, .waiting (some outcome) => some (s.setCall requestId (.returned outcome))
  | .timeOut, .waiting none => some (s.setCall requestId .expired)
  | .withdraw, .refused =>
    some { s.setCall requestId (.returned (.error "daku daemon connection is closed")) with
      pending := s.pending.erase requestId }
  | .withdraw, .expired =>
    some { s.setCall requestId (.returned (.error
        "timed out waiting for daku daemon: timed out waiting on receive operation")) with
      pending := s.pending.erase requestId }
  | _, _ => none

/-- One action of a call of `subscribe_dashboard` (`client.rs:225–244`). -/
def stepSubscription (number : Nat) (a : SubscriptionAction) : Option Threads :=
  match a, s.subscriptions number with
  | .lockCache, .idle =>
    if s.cacheLock = none then
      some { s.setSubscription number .cacheLocked with cacheLock := some number }
    else none
  | .lockDashboard, .cacheLocked =>
    if s.dashboardLock = none then
      some { s.setSubscription number .locked with dashboardLock := some number }
    else none
  | .replay, .locked =>
    some { s.setSubscription number .replayed with
      received := Function.update s.received number (s.received number ++ s.cache.messages) }
  | .readFlag, .replayed => some (s.setSubscription number (.flagRead s.disconnected))
  | .register, .flagRead disconnected =>
    some { s.setSubscription number .registered with
      dashboard := if disconnected then s.dashboard else s.dashboard ++ [number] }
  | .unlockDashboard, .registered =>
    some { s.setSubscription number .dashboardUnlocked with dashboardLock := none }
  | .unlockCache, .dashboardUnlocked =>
    some { s.setSubscription number .returned with cacheLock := none }
  | .hangUp, .returned => some (s.setSubscription number .hungUp)
  | _, _ => none

/-- The subscribers whose receivers still exist. -/
def listening : List Nat := s.dashboard.filter fun number ↦ s.subscriptions number ≠ .hungUp

/-- One action of the reader thread (`client.rs:294–467`). -/
def stepReader (a : ReaderAction) : Option Threads :=
  match a, s.phase with
  | .takeOutgoing written, .reading =>
    match s.outgoing with
    | .message _ :: rest =>
      some { s with outgoing := rest, phase := if written then .reading else .leaving }
    | .shutdown :: rest => some { s with outgoing := rest, phase := .leaving }
    | [] => none
  | .read m, .reading =>
    match s.reader.receive m with
    | (.nothing, reader) => some { s with reader }
    | (.respond requestId outcome, reader) =>
      if requestId ∈ s.pending then
        some { s.answer requestId outcome with pending := s.pending.erase requestId, reader }
      else some { s with reader }
    | (.forward m resync, reader) => some { s with reader, phase := .forwarding m resync }
    | (.hangUp, reader) => some { s with reader, phase := .leaving }
  | .lose, .reading => some { s with phase := .leaving }
  | .insertCache, .forwarding m resync =>
    -- A message without a key does not touch the cache.
    if m.dashboardCacheKey = none ∨ s.cacheLock = none then
      some { s with
        cache := s.cache.remember m, forwarded := s.forwarded ++ [m]
        phase := .fanningOut m resync }
    else none
  | .fanOut, .fanningOut m resync =>
    if s.dashboardLock = none then
      some { s with
        dashboard := s.listening
        received := fun number ↦
          if number ∈ s.listening then s.received number ++ [m] else s.received number
        phase := if resync then .requestingResync else .reading }
    else none
  | .requestResync requestId, .requestingResync =>
    some { s with
      outgoing := s.outgoing ++ [.message (.request ⟨requestId, .requestDashboardSync⟩)]
      phase := .reading }
  | .setDisconnected, .leaving => some { s with disconnected := true, phase := .flagged }
  | .takePending, .flagged => some { s with pending := ∅, phase := .telling s.pending }
  | .tell requestId, .telling calls =>
    if requestId ∈ calls then
      some { s.answer requestId (.error "daku daemon disconnected") with
        phase := .telling (calls.erase requestId) }
    else none
  | .clearDashboard, .telling calls =>
    if calls = ∅ ∧ s.dashboardLock = none then
      some { s with dashboard := [], phase := .dashboardCleared }
    else none
  | .clearCache, .dashboardCleared =>
    if s.cacheLock = none then some { s with cache := ∅, phase := .cacheCleared } else none
  | .dropReceiver, .cacheCleared => some { s with outgoing := [], phase := .ended }
  | _, _ => none

end Threads

/-- The threads of a client, one action at a time. -/
def client : Machine Threads Action where
  step s
    | .call requestId a => s.stepCall requestId a
    | .subscription number a => s.stepSubscription number a
    | .reader a => s.stepReader a

end Daku.Client
