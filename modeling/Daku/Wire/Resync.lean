import Daku.Wire.Replays

/-!
# Acknowledged resyncs

A resync is acknowledged whether or not it lost something, and its losses are only logged
(`crates/daku-core/src/server.rs:153–163, 513–526`). As long as no piece of a resync finds its
queue full, an acknowledged one has put every cached message into the queue. A full queue does no
harm while the connection still owes the notice of its initial replay, which then comes after the
loss.
-/

namespace Daku.Wire

open Daku.Base

namespace Connection

/-- A notice was queued from a position on, or is owed. -/
def Announced (c : Connection) (start : Nat) : Prop :=
  0 < c.pendingSyncDrops ∨ ∃ m ∈ c.queued.drop start, IsNotice m

variable {c c' : Connection} {a : ConnectionAction} {start : Nat}

theorem Announced.push (h : c.Announced start) (m : ServerMessage) :
    (c.push m).Announced start := by
  apply h.imp_right
  rintro ⟨n, hn, hnotice⟩
  exact ⟨n, ((List.sublist_append_left c.queued [m]).drop start).subset hn, hnotice⟩

/-- What is announced stays announced. -/
theorem Announced.step (h : c.Announced start) (hstart : start ≤ c.queued.length)
    (hstep : c.step a = some c') : c'.Announced start := by
  cases step_spec hstep with
  | notify =>
    refine Or.inr ⟨.dashboardSyncNeeded c.pendingSyncDrops, ?_, rfl⟩
    change _ ∈ (c.queued ++ [_]).drop start
    rw [List.drop_append_of_le_length hstart]
    exact List.mem_append_right _ List.mem_cons_self
  | acknowledge => exact h.push _
  | respond => exact h.push _
  | _ => exact h

/-- A receiver that is there was there before, or has just been made. -/
theorem receiving_of_step (hstep : c.step a = some c') (h : c'.Receiving) :
    c.Receiving ∨ c.phase = .absent := by
  cases step_spec hstep with
  | connect hphase => exact Or.inr hphase
  | shutDown hphase => exact Or.inl (by rw [Receiving, hphase]; decide)
  | leave hphase => exact Or.inl (by rw [Receiving, hphase]; decide)
  | fail hphase => exact Or.inl (by rw [Receiving, hphase]; decide)
  | _ => exact Or.inl h

/-- Of one connection: a resync that lost something is announced while anybody can hear of it. -/
structure Informed (c : Connection) : Prop where
  acks : c.Receiving → ∀ e ∈ c.acks, e.2.lost = 0 ∨ c.Announced e.2.start
  answered : ∀ a ∈ c.answered, a.replay.lost = 0 ∨ c.Announced a.replay.start

theorem Informed.push (h : c.Informed) (m : ServerMessage) : (c.push m).Informed where
  acks hreceiving e he := (h.acks hreceiving e he).imp_right fun hannounced ↦ hannounced.push m
  answered a ha := (h.answered a ha).imp_right fun hannounced ↦ hannounced.push m

variable {wireSize : ServerMessage → Nat}

theorem Informed.step (h : c.Informed) (hbooked : c.Booked wireSize) (hstep : c.step a = some c') :
    c'.Informed := by
  have hlater : ∀ r ∈ c.replays, r.lost = 0 ∨ c.Announced r.start →
      r.lost = 0 ∨ c'.Announced r.start := by
    intro r hr hold
    obtain ⟨hstart, hdone, -⟩ := hbooked.replays r hr
    exact hold.imp_right fun hannounced ↦ hannounced.step (hstart.trans hdone) hstep
  have hacks : c'.Receiving → ∀ e ∈ c.acks, e.2.lost = 0 ∨ c'.Announced e.2.start := by
    intro hreceiving e he
    rcases receiving_of_step hstep hreceiving with hbefore | habsent
    · exact hlater e.2 (hbooked.acks e he).1 (h.acks hbefore e he)
    · rw [(hbooked.fresh (Or.inl habsent)).2.2.1] at he
      cases he
  have hanswered : ∀ a ∈ c.answered, a.replay.lost = 0 ∨ c'.Announced a.replay.start :=
    fun a ha ↦ hlater a.replay (hbooked.answered a ha).1 (h.answered a ha)
  cases step_spec hstep with
  | @acknowledge index requestId replay hack hroom =>
    refine ⟨fun hreceiving e he ↦ hacks hreceiving e (List.mem_of_mem_eraseIdx he),
      fun a ha ↦ ?_⟩
    rcases List.mem_append.mp ha with ha | ha
    · exact hanswered a ha
    · rw [List.mem_singleton.mp ha]
      exact hacks hroom.1 _ (List.mem_of_getElem? hack)
  | _ => exact ⟨hacks, hanswered⟩

end Connection

namespace Daemon

/-- The connection a piece of a resync is about to be tried for. -/
def resyncPiece (s : Daemon) : DaemonAction → Option Nat
  | .trySend =>
    match s.job with
    | some ⟨.resync connection _ _ _, _, some (_, _ :: _), _, _⟩ => some connection
    | _ => none
  | _ => none

/-- The queue takes a piece of a resync, or its connection still owes a notice. -/
def ResyncFits (s : Daemon) (a : DaemonAction) : Prop :=
  ∀ i ∈ s.resyncPiece a, (s.connections i).Receiving →
    (s.connections i).HasRoom ∨ 0 < (s.connections i).pendingSyncDrops

instance (s : Daemon) (a : DaemonAction) : Decidable (s.ResyncFits a) :=
  inferInstanceAs (Decidable (∀ i ∈ s.resyncPiece a, _ → _))

/-- A resync that lost something is announced while anybody can hear of it. -/
structure Informed (s : Daemon) : Prop where
  connections : ∀ i, (s.connections i).Informed
  job : ∀ job i requestId cached start, s.job = some job →
    job.kind = .resync i requestId cached start → (s.connections i).Receiving →
    job.drops = 0 ∨ (s.connections i).Announced start

variable {wireSize : ServerMessage → Nat} {s t : Daemon} {job : Job} {a : DaemonAction}

theorem Informed.setConnection (h : Informed s) (i : Nat) {c : Connection} (hc : c.Informed)
    (other : Nat) : ((s.setConnection i c).connections other).Informed :=
  forall_setConnection (P := fun c c' ↦ c.Informed → c'.Informed) (fun _ ↦ id) (fun _ ↦ hc) other
    (h.connections other)

theorem informed_start : Informed start where
  connections _ := ⟨nofun, nofun⟩
  job _ _ _ _ _ hjob := nomatch hjob

/-- A step in which a resync does not fail silently keeps its losses announced. -/
theorem Informed.step (h : Informed s) (hbooked : Booked wireSize s) (hfits : s.ResyncFits a)
    (hstep : s.step wireSize a = some t) : Informed t := by
  cases step_spec hstep with
  | @connection i action c hc =>
    refine ⟨h.setConnection i ((h.connections i).step (hbooked.connections i) hc),
      fun job d requestId cached start hjob hkind hreceiving ↦ ?_⟩
    have hold := h.job job d requestId cached start hjob hkind
    by_cases hd : d = i
    · subst hd
      rw [connections_setConnection_self] at hreceiving ⊢
      have hserved := (hbooked.job job hjob).resyncing d requestId cached start hkind
      have hstart := ((hbooked.job job hjob).replaying d start cached (by rw [hkind]; rfl)).start_le
      rcases Connection.receiving_of_step hc hreceiving with hbefore | habsent
      · exact (hold hbefore).imp_right fun hannounced ↦ hannounced.step hstart hc
      · exact absurd (Or.inl habsent) hserved
    · rw [connections_setConnection_of_ne s c hd] at hreceiving ⊢
      exact hold hreceiving
  | subscribe hphase hjob =>
    refine ⟨h.connections, fun job d requestId cached start hjob' hkind ↦ ?_⟩
    cases hjob'
    cases hkind
  | publish hkey hjob horder =>
    refine ⟨h.connections, fun job d requestId cached start hjob' hkind ↦ ?_⟩
    cases hjob'
    cases hkind
  | beginMessage hjob =>
    refine ⟨h.connections, fun job d requestId cached start hjob' hkind ↦ ?_⟩
    cases hjob'
    have hold := h.job _ d requestId cached start hjob
    exact hold hkind
  | sent hjob =>
    refine ⟨h.connections, fun job d requestId cached start hjob' hkind ↦ ?_⟩
    cases hjob'
    have hold := h.job _ d requestId cached start hjob
    exact hold hkind
  | @send kind d piece pieces todo drops disconnected hjob hroom =>
    refine ⟨h.setConnection d ((h.connections d).push piece),
      fun job i requestId cached start hjob' hkind hreceiving ↦ ?_⟩
    cases hjob'
    have hold := h.job _ i requestId cached start hjob hkind
    change (((s.setConnection d _).connections i)).Receiving at hreceiving
    change _ ∨ ((s.setConnection d _).connections i).Announced start
    by_cases hi : i = d
    · subst hi
      rw [connections_setConnection_self] at hreceiving ⊢
      exact (hold hreceiving).imp_right fun hannounced ↦ hannounced.push piece
    · rw [connections_setConnection_of_ne s _ hi] at hreceiving ⊢
      exact hold hreceiving
  | @giveUp kind d piece pieces todo drops drops' disconnected disconnected' hjob hroom hdrops =>
    refine ⟨h.connections, fun job i requestId cached start hjob' hkind hreceiving ↦ Or.inr ?_⟩
    cases hjob'
    cases hkind
    have hd : d = i :=
      ((hbooked.job _ hjob).replaying i start cached rfl).target d _ rfl
    have hpiece : s.resyncPiece .trySend = some i := by rw [resyncPiece, hjob]
    rcases hfits i hpiece hreceiving with hfit | hpending
    · exact absurd hfit (hd ▸ hroom)
    · exact Or.inl hpending
  | finishPublish hjob => exact ⟨h.connections, nofun⟩
  | @finishSubscribe i start drops disconnected hjob =>
    obtain ⟨-, -, hacks, hanswered, -⟩ := (hbooked.connections i).fresh
      (Or.inr ((hbooked.job _ hjob).subscribing i start rfl))
    refine ⟨h.setConnection i ⟨fun _ e he ↦ ?_, fun a ha ↦ ?_⟩, nofun⟩
    · rw [hacks] at he
      cases he
    · rw [hanswered] at ha
      cases ha
  | @finishResync i start drops requestId cached disconnected hjob =>
    have hold := h.connections i
    refine ⟨h.setConnection i ⟨fun hreceiving e he ↦ ?_, hold.answered⟩, nofun⟩
    rcases List.mem_append.mp he with he | he
    · exact hold.acks hreceiving e he
    · rw [List.mem_singleton.mp he]
      exact h.job _ i requestId cached start hjob rfl hreceiving
  | @resync i requestId hrequest hjob =>
    have hold := h.connections i
    refine ⟨h.setConnection i ⟨hold.acks, hold.answered⟩,
      fun job d requestId' cached start hjob' hkind hreceiving ↦ ?_⟩
    cases hjob'
    exact Or.inl rfl
  | @unsubscribe i hphase hjob =>
    have hold := h.connections i
    refine ⟨h.setConnection i ⟨fun hreceiving ↦ absurd rfl hreceiving.2, hold.answered⟩,
      fun job d requestId cached start hjob' ↦ ?_⟩
    cases hjob.symm.trans hjob'

theorem informed_of_run {actions : List DaemonAction}
    (hfits : (daemon wireSize).Meets ResyncFits start actions)
    (hrun : (daemon wireSize).run start actions = some s) : Booked wireSize s ∧ Informed s :=
  Machine.run_induction (I := fun _ u ↦ Booked wireSize u ∧ Informed u)
    ⟨booked_start wireSize, informed_start⟩
    (fun h hfit hstep ↦ ⟨h.1.step hstep, h.2.step h.1 hfit hstep⟩) hfits hrun

end Daemon

/-- The `Ack` came after every cached message, or what was lost is announced. -/
def Answer.Honest (wireSize : ServerMessage → Nat) (c : Connection) (a : Answer) : Prop :=
  c.queued[a.position]? = some (.response a.requestId (.ok .ack)) ∧
    ((∀ m ∈ a.replay.cached,
      Crossed wireSize ((c.queued.take a.position).drop a.replay.start) m) ∨
      c.Announced a.replay.start)

/-- As long as no piece of a resync is lost without a notice to come, every acknowledged resync is
complete or announced. -/
theorem acknowledged_honest {wireSize : ServerMessage → Nat} {actions : List DaemonAction}
    {s : Daemon} (hfits : (daemon wireSize).Meets Daemon.ResyncFits Daemon.start actions)
    (hrun : (daemon wireSize).run Daemon.start actions = some s) (connection : Nat) :
    ∀ a ∈ (s.connections connection).answered, a.Honest wireSize (s.connections connection) := by
  intro a ha
  obtain ⟨hbooked, hinformed⟩ := Daemon.informed_of_run hfits hrun
  obtain ⟨hreplay, -, hdone, hposition⟩ := (hbooked.connections connection).answered a ha
  obtain ⟨-, -, hcomplete⟩ := (hbooked.connections connection).replays _ hreplay
  refine ⟨hposition, ((hinformed.connections connection).answered a ha).imp_left ?_⟩
  intro hlost m hm
  exact (hcomplete hlost m hm).mono ((List.take_sublist_take_left hdone).drop _)

/-- A client that has connected is sent a message and asks for a resync. -/
def resyncOnce : List DaemonAction :=
  [.subscribe 0, .finish, .publish noEnvironments [(0, 0)], .beginMessage, .trySend, .trySend,
    .finish, .connection 0 (.requestSync 7), .resync 0 7, .beginMessage]

theorem acknowledged_honest_once : ∃ s, (daemon bulkyWireSize).run Daemon.start
      (.connection 0 .connect :: resyncOnce ++
        [.trySend, .trySend, .finish, .connection 0 (.acknowledge 0)]) = some s ∧
    (s.connections 0).answered ≠ [] ∧
    ∀ a ∈ (s.connections 0).answered, a.Honest bulkyWireSize (s.connections 0) := by
  have hhonest : ∀ s, (daemon bulkyWireSize).run Daemon.start
        (.connection 0 .connect :: resyncOnce ++
          [.trySend, .trySend, .finish, .connection 0 (.acknowledge 0)]) = some s →
      ∀ a ∈ (s.connections 0).answered, a.Honest bulkyWireSize (s.connections 0) :=
    fun s hrun ↦ acknowledged_honest (by decide) hrun 0
  exact ⟨_, rfl, List.cons_ne_nil _ _, hhonest _ rfl⟩

/-- Responses fill the queue in the middle of the resync. -/
def filledQueue : List ServerMessage :=
  noEnvironments :: List.replicate 511 (.response 0 (.ok .ack))

/-- The resync that lost its only message. -/
def lostResync : Replay := ⟨some 7, [noEnvironments], 1, filledQueue.length, 1⟩

/-- The client's connection when the resync is done and everything queued is written. -/
def afterLostResync (queue wire : List ServerMessage) : Connection :=
  { servedConnection queue [] filledQueue with
    wire
    acks := [(7, lostResync)]
    replays := [⟨none, [], 0, 0, 0⟩, lostResync] }

theorem run_lostResync : ∃ actions dashboard others,
    (daemon bulkyWireSize).run Daemon.start (.connection 0 .connect :: actions) =
      some (oneClient dashboard others 1 2 none (afterLostResync [] filledQueue)
        [noEnvironments]) := by
  have hbegin : ∃ dashboard others, (daemon bulkyWireSize).run Daemon.start
        (.connection 0 .connect :: resyncOnce) =
      some (oneClient dashboard others 0 2
        (some ⟨.resync 0 7 [noEnvironments] 1, [], some (0, [noEnvironments]), 0, []⟩)
        (servedConnection [noEnvironments] [] [noEnvironments]) [noEnvironments]) := ⟨_, _, rfl⟩
  obtain ⟨dashboard, others, hbegin⟩ := hbegin
  have hlose := run_lose bulkyWireSize
    (s := oneClient dashboard others 0 2
      (some ⟨.resync 0 7 [noEnvironments] 1, [], some (0, [noEnvironments]), 0, []⟩)
      (servedConnection [noEnvironments] [] [noEnvironments]) [noEnvironments]) (n := 511)
    rfl rfl rfl 0 (.ok .ack) rfl
  have hfinish : ∃ others', (daemon bulkyWireSize).run (oneClient dashboard others 0 2
        (some ⟨.resync 0 7 [noEnvironments] 1, [], some (0, [noEnvironments]), 0, []⟩)
        (servedConnection [noEnvironments] [] [noEnvironments]) [noEnvironments])
      ((List.replicate 511 (.respond 0 (.ok .ack))).map (.connection 0) ++ [.trySend] ++
        [.finish]) =
      some (oneClient dashboard others' 1 2 none (afterLostResync filledQueue [])
        [noEnvironments]) := ⟨_, Machine.run_append.mpr ⟨_, hlose, rfl⟩⟩
  obtain ⟨others', hfinish⟩ := hfinish
  have hdrain := run_oneClient dashboard others' 1 2 [noEnvironments] none
    (run_drain (c := afterLostResync filledQueue []) rfl rfl)
  have hall := Machine.run_append.mpr ⟨_, hbegin, Machine.run_append.mpr ⟨_, hfinish, hdrain⟩⟩
  rw [List.cons_append] at hall
  exact ⟨_, _, _, hall⟩

theorem acknowledged_in_vain : ∃ actions s,
    (daemon bulkyWireSize).run Daemon.start actions = some s ∧
    ∃ a ∈ (s.connections 0).answered, ¬a.Honest bulkyWireSize (s.connections 0) := by
  obtain ⟨actions, dashboard, others, hrun⟩ := run_lostResync
  refine ⟨_ ++ [.connection 0 (.acknowledge 0)], _, Machine.run_append.mpr ⟨_, hrun, rfl⟩,
    ⟨7, lostResync, filledQueue.length⟩, List.mem_cons_self, ?_⟩
  rintro ⟨-, hcomplete | hpending | ⟨m, hm, hnotice⟩⟩
  · obtain ⟨transferId, hsub⟩ := hcomplete noEnvironments List.mem_cons_self
    change [noEnvironments].Sublist (((filledQueue ++ [_]).take filledQueue.length).drop 1) at hsub
    rw [List.take_left] at hsub
    have hmem : noEnvironments ∈ List.replicate 511 (.response 0 (.ok .ack)) :=
      List.singleton_sublist.mp hsub
    cases List.eq_of_mem_replicate hmem
  · exact absurd hpending (Nat.lt_irrefl 0)
  · change m ∈ List.replicate 511 _ ++ [_] at hm
    rcases List.mem_append.mp hm with hm | hm
    · rw [List.eq_of_mem_replicate hm] at hnotice
      cases hnotice
    · rw [List.mem_singleton.mp hm] at hnotice
      cases hnotice

end Daku.Wire
