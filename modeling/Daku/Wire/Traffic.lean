import Daku.Wire.Hub

/-!
# Traffic of one connection

Runs of the daemon in which only one connection acts: its queue is filled with responses, or its
client reads everything there is.
-/

namespace Daku.Wire

open Daku.Base

/-- A connection and its client, one action at a time. -/
def connectionMachine : Machine Connection ConnectionAction where
  step := Connection.step

variable {c c' : Connection}

/-- A queue takes responses as long as there is room. -/
theorem run_respond (hphase : c.phase ≠ .joining) (hreceiving : c.Receiving) (requestId : Uuid)
    (outcome : ResponseOutcome) {n : Nat} (hroom : c.queue.length + n ≤ subscriberQueueBound) :
    connectionMachine.run c (List.replicate n (.respond requestId outcome)) =
      some { c with
        queue := c.queue ++ List.replicate n (.response requestId outcome)
        queued := c.queued ++ List.replicate n (.response requestId outcome) } := by
  induction n generalizing c with
  | zero =>
    rw [List.replicate_zero, List.replicate_zero, List.append_nil, List.append_nil]
    rfl
  | succ n ih =>
    have hstep : c.step (.respond requestId outcome) =
        some (c.push (.response requestId outcome)) := by
      rw [Connection.step, if_pos ⟨hphase, hreceiving, by omega⟩]
    have hlen : (c.push (.response requestId outcome)).queue.length + n ≤
        subscriberQueueBound := by
      rw [Connection.push, List.length_append, List.length_singleton]
      omega
    rw [List.replicate_succ, Machine.run_cons]
    refine ⟨_, hstep, ?_⟩
    rw [ih (c := c.push (.response requestId outcome)) hphase hreceiving hlen]
    simp [Connection.push, List.replicate_succ]

/-- A connection that is served writes all it has queued. -/
theorem run_drain {ms : List ServerMessage} (hphase : c.phase = .serving) (hqueue : c.queue = ms) :
    connectionMachine.run c (List.replicate ms.length .drain) =
      some { c with queue := [], wire := c.wire ++ ms } := by
  induction ms generalizing c with
  | nil =>
    cases c
    cases hqueue
    rw [List.append_nil]
    rfl
  | cons m ms ih =>
    have hstep : c.step .drain = some { c with queue := ms, wire := c.wire ++ [m] } := by
      simp only [Connection.step, hphase, hqueue]
    rw [List.length_cons, List.replicate_succ, Machine.run_cons]
    refine ⟨_, hstep, ?_⟩
    rw [ih (c := { c with queue := ms, wire := c.wire ++ [m] }) hphase rfl, List.append_assoc]
    rfl

/-- A client reads all that is written. -/
theorem run_deliver {ms : List ServerMessage} (hwire : c.wire = ms) :
    connectionMachine.run c (List.replicate ms.length .deliver) =
      some { c with wire := [], read := c.read ++ ms } := by
  induction ms generalizing c with
  | nil =>
    cases c
    cases hwire
    rw [List.append_nil]
    rfl
  | cons m ms ih =>
    have hstep : c.step .deliver = some { c with wire := ms, read := c.read ++ [m] } := by
      simp only [Connection.step, hwire]
    rw [List.length_cons, List.replicate_succ, Machine.run_cons]
    refine ⟨_, hstep, ?_⟩
    rw [ih (c := { c with wire := ms, read := c.read ++ [m] }) rfl, List.append_assoc]
    rfl

/-- A client reads all there is. -/
theorem run_readAll {ms : List ServerMessage} (hphase : c.phase = .serving) (hwire : c.wire = [])
    (hqueue : c.queue = ms) :
    connectionMachine.run c (List.replicate ms.length .drain ++
        List.replicate ms.length .deliver) =
      some { c with queue := [], read := c.read ++ ms } := by
  rw [Machine.run_append]
  refine ⟨_, run_drain hphase hqueue, ?_⟩
  have hwritten : c.wire ++ ms = ms := by rw [hwire, List.nil_append]
  rw [run_deliver (c := { c with queue := [], wire := c.wire ++ ms }) hwritten, ← hwire]

/-- What one connection does is done in the daemon. -/
theorem run_connection {wireSize : ServerMessage → Nat} {s : Daemon} {i : Nat}
    {actions : List ConnectionAction}
    (h : connectionMachine.run (s.connections i) actions = some c') :
    (daemon wireSize).run s (actions.map (.connection i)) = some (s.setConnection i c') := by
  induction actions generalizing s with
  | nil =>
    rw [Machine.run_nil, Option.some.injEq] at h
    rw [List.map_nil, Machine.run_nil, Daemon.setConnection, ← h, Function.update_eq_self]
  | cons a actions ih =>
    obtain ⟨u, hu, hrest⟩ := Machine.run_cons.mp h
    have hstep : (daemon wireSize).step s (.connection i a) = some (s.setConnection i u) :=
      Option.map_eq_some_iff.mpr ⟨u, hu, rfl⟩
    rw [List.map_cons, Machine.run_cons]
    refine ⟨_, hstep, ?_⟩
    rw [ih (s := s.setConnection i u) (by rwa [Daemon.connections_setConnection_self])]
    rw [Daemon.setConnection, Daemon.setConnection, Daemon.setConnection, Function.update_idem]

/-- A piece for a queue that is full is lost with the rest of its message. -/
theorem step_trySend_full {wireSize : ServerMessage → Nat} {s : Daemon} {job : Job} {i : Nat}
    {piece : ServerMessage} {pieces : List ServerMessage} (hjob : s.job = some job)
    (hsending : job.sending = some (i, piece :: pieces)) (hreceiving : (s.connections i).Receiving)
    (hfull : ¬(s.connections i).HasRoom) :
    (daemon wireSize).step s .trySend =
      some { s with job := some { job with sending := none, drops := satAddU64 job.drops 1 } } := by
  cases job with
  | mk kind todo sending drops disconnected =>
    cases hsending
    change s.trySend = _
    rw [Daemon.trySend, hjob]
    simp only [if_neg hfull, if_pos hreceiving]
    cases kind <;> rfl

/-- Responses fill a queue, and the next piece for it is lost. -/
theorem run_lose (wireSize : ServerMessage → Nat) {s : Daemon} {job : Job} {i : Nat}
    {piece : ServerMessage} {pieces : List ServerMessage} (hjob : s.job = some job)
    (hsending : job.sending = some (i, piece :: pieces))
    (hphase : (s.connections i).phase = .serving) (requestId : Uuid) (outcome : ResponseOutcome)
    {n : Nat} (hn : (s.connections i).queue.length + n = subscriberQueueBound) :
    (daemon wireSize).run s ((List.replicate n (.respond requestId outcome)).map (.connection i) ++
        [.trySend]) =
      some { s.setConnection i { s.connections i with
          queue := (s.connections i).queue ++ List.replicate n (.response requestId outcome)
          queued :=
            (s.connections i).queued ++ List.replicate n (.response requestId outcome) } with
        job := some { job with sending := none, drops := satAddU64 job.drops 1 } } := by
  have hjoined : (s.connections i).phase ≠ .joining := by rw [hphase]; decide
  have hreceiving : (s.connections i).Receiving := by
    rw [Connection.Receiving, hphase]
    decide
  have hfill := run_respond hjoined hreceiving requestId outcome hn.le
  rw [Machine.run_append]
  refine ⟨_, run_connection hfill, Machine.run_cons.mpr ⟨_, ?_, rfl⟩⟩
  refine step_trySend_full (s := s.setConnection i _) hjob hsending ?_ ?_
  · rw [Daemon.connections_setConnection_self]
    exact hreceiving
  · rw [Daemon.connections_setConnection_self]
    intro hroom
    have hlt := hroom.2
    rw [List.length_append, List.length_replicate, hn] at hlt
    exact Nat.lt_irrefl _ hlt

end Daku.Wire
