import Daku.Wire.Outside

/-!
# Nothing without the token

Whatever any number of peers send, in any order and next to everything the hub does: only those
with the token are served or shut the daemon down, and the permits count the threads.
-/

namespace Daku.Wire

open Daku.Base

variable {wireSize : ServerMessage → Nat} {options : ServerOptions} {auth : String}

section Counting

variable {s t : Server} {peer p : Nat} {actions : List ServerAction}

/-- What a message does to the counters: its peer is live and stays so. -/
structure Counted (options : ServerOptions) (peer : Nat) (input : Input) (s t : Server) :
    Prop where
  active : t.activeConnections = s.activeConnections
  live : (s.phase peer).Live
  phase : ∃ phase, phase.Live ∧ t.phase = Function.update s.phase peer phase
  shutdown : t.shutdown = s.shutdown ∨ options.allowShutdown = true ∧ s.phase peer = .serving ∧
    input = .frame (.text (some .shutdown))

theorem counted_refl {input : Input} (hlive : (s.phase peer).Live) :
    Counted options peer input s s :=
  ⟨rfl, hlive, ⟨_, hlive, (Function.update_eq_self peer s.phase).symm⟩, Or.inl rfl⟩

theorem counted_setPhase {input : Input} {phase : PeerPhase} (hlive : (s.phase peer).Live)
    (hphase : phase.Live) : Counted options peer input s (s.setPhase peer phase) :=
  ⟨rfl, hlive, ⟨_, hphase, rfl⟩, Or.inl rfl⟩

theorem Counted.moveHub {u : Server} {input : Input} {action : DaemonAction}
    (h : Counted options peer input s u) (hmove : u.moveHub wireSize action = some t) :
    Counted options peer input s t := by
  obtain ⟨hub, -, rfl⟩ := Option.map_eq_some_iff.mp hmove
  exact ⟨h.active, h.live, h.phase, h.shutdown⟩

private theorem live_ended : PeerPhase.ended.Live := Or.inr (Or.inr (Or.inr rfl))

private theorem live_serving : PeerPhase.serving.Live := Or.inr (Or.inr (Or.inl rfl))

private theorem live_greeting : PeerPhase.greeting.Live := Or.inr (Or.inl rfl)

private theorem live_upgrading : PeerPhase.upgrading.Live := Or.inl rfl

theorem counted_readHello {frame : Frame} {writes : Bool} (hphase : s.phase peer = .greeting)
    (h : s.readHello wireSize auth peer writes frame = some t) :
    Counted options peer (.frame frame) s t := by
  have hlive : (s.phase peer).Live := hphase ▸ live_greeting
  have hended : Counted options peer (.frame frame) s (s.setPhase peer .ended) :=
    counted_setPhase hlive live_ended
  have hgreet : ∀ m (phase : PeerPhase), phase.Live →
      Counted options peer (.frame frame) s ((s.greet peer m).setPhase peer phase) :=
    fun m phase hphase ↦ ⟨rfl, hlive, ⟨phase, hphase, rfl⟩, Or.inl rfl⟩
  cases frame with
  | text message =>
    cases message with
    | none => exact Option.some.inj h ▸ hended
    | some message =>
      cases message with
      | request request => exact Option.some.inj h ▸ hended
      | shutdown => exact Option.some.inj h ▸ hended
      | hello version token clientId =>
        simp only [Server.readHello] at h
        split at h
        · split at h
          · exact (hgreet _ _ live_serving).moveHub h
          · exact Option.some.inj h ▸ hended
        · split at h
          · exact Option.some.inj h ▸ hgreet _ _ live_ended
          · exact Option.some.inj h ▸ hgreet _ _ live_ended
  | ping =>
    simp only [Server.readHello] at h
    split at h
    · exact Option.some.inj h ▸ counted_refl hlive
    · exact Option.some.inj h ▸ hended
  | other => exact Option.some.inj h ▸ counted_refl hlive
  | close | retry | closed | failed => exact Option.some.inj h ▸ hended

theorem counted_serve {frame : Frame} {writes : Bool} (hphase : s.phase peer = .serving)
    (h : s.serve wireSize options peer writes frame = some t) :
    Counted options peer (.frame frame) s t := by
  have hlive : (s.phase peer).Live := hphase ▸ live_serving
  have hended : Counted options peer (.frame frame) s (s.setPhase peer .ended) :=
    counted_setPhase hlive live_ended
  have hself : Counted options peer (.frame frame) s s := counted_refl hlive
  cases frame with
  | text message =>
    cases message with
    | none => exact Option.some.inj h ▸ hself
    | some message =>
      cases message with
      | hello version token clientId => exact Option.some.inj h ▸ hself
      | request request =>
        simp only [Server.serve] at h
        split at h
        · exact hself.moveHub h
        · obtain rfl := Option.some.inj h
          exact ⟨rfl, hlive, hself.phase, Or.inl rfl⟩
      | shutdown =>
        simp only [Server.serve] at h
        split at h
        · exact hended.moveHub h
        · split at h
          · next hallow =>
            have hstop : Counted options peer (.frame (.text (some .shutdown))) s
                { s.setPhase peer .ended with shutdown := true } :=
              ⟨rfl, hlive, hended.phase, Or.inr ⟨hallow, hphase, rfl⟩⟩
            exact hstop.moveHub h
          · exact hself.moveHub h
  | close | closed | failed => exact hended.moveHub h
  | ping | other | retry => exact Option.some.inj h ▸ hself

theorem counted_receive {input : Input} {writes : Bool}
    (h : s.receive wireSize options auth peer writes input = some t) :
    Counted options peer input s t := by
  cases input with
  | upgrade request =>
    simp only [Server.receive] at h
    split at h
    · next hphase =>
      have hlive : (s.phase peer).Live := hphase ▸ live_upgrading
      split at h
      · exact Option.some.inj h ▸ counted_setPhase hlive live_greeting
      · exact Option.some.inj h ▸ counted_setPhase hlive live_ended
    · cases h
  | frame frame =>
    simp only [Server.receive] at h
    split at h
    · next hphase => exact counted_readHello hphase h
    · split at h
      · next hserving => exact counted_serve hserving.1 h
      · cases h

/-- The permits are as many as there are threads, and there are not too many. -/
def Permits (s : Server) : Prop :=
  ∃ live : List Nat, live.Nodup ∧ (∀ p, p ∈ live ↔ (s.phase p).Live) ∧
    s.activeConnections = live.length ∧ live.length ≤ maxConnections

/-- A phase that is live before and after changes no count. -/
theorem permits_update (h : Permits s) {phase : PeerPhase}
    (hlive : (s.phase peer).Live ↔ phase.Live)
    (hphase : t.phase = Function.update s.phase peer phase)
    (hactive : t.activeConnections = s.activeConnections) : Permits t := by
  obtain ⟨live, hnodup, hmem, hcount, hmax⟩ := h
  refine ⟨live, hnodup, fun p ↦ ?_, hactive.trans hcount, hmax⟩
  rw [hmem, hphase]
  by_cases hp : p = peer
  · rw [hp, Function.update_self, hlive]
  · rw [Function.update_of_ne hp]

theorem permits_step {action : ServerAction} (h : Permits s)
    (hstep : s.step wireSize options auth action = some t) : Permits t := by
  cases action with
  | accept peer =>
    simp only [Server.step] at hstep
    split at hstep
    · next hunknown =>
      have hdead : ¬ (s.phase peer).Live := by
        rw [hunknown.2]
        decide
      split at hstep <;> obtain rfl := Option.some.inj hstep
      · next hroom =>
        obtain ⟨live, hnodup, hmem, hcount, hmax⟩ := h
        refine ⟨peer :: live, List.nodup_cons.mpr ⟨fun hp ↦ hdead ((hmem peer).mp hp), hnodup⟩,
          fun p ↦ ?_, ?_, ?_⟩
        · show _ ↔ (Function.update s.phase peer PeerPhase.upgrading p).Live
          by_cases hp : p = peer
          · rw [hp, Function.update_self]
            exact iff_of_true List.mem_cons_self live_upgrading
          · rw [Function.update_of_ne hp, ← hmem, List.mem_cons, or_iff_right hp]
        · rw [List.length_cons, ← hcount]
        · rw [List.length_cons]
          omega
      · exact permits_update h (iff_of_false hdead (by decide)) rfl rfl
    · cases hstep
  | receive peer input writes =>
    have hcounted := counted_receive hstep
    obtain ⟨phase, hlive, hphase⟩ := hcounted.phase
    exact permits_update h (iff_of_true hcounted.live hlive) hphase hcounted.active
  | quit peer =>
    simp only [Server.step] at hstep
    split at hstep
    · next hphase =>
      have hlive : (s.phase peer).Live := hphase ▸ live_serving
      obtain ⟨hub, -, rfl⟩ := Option.map_eq_some_iff.mp hstep
      exact permits_update h (iff_of_true hlive live_ended) rfl rfl
    · cases hstep
  | release peer =>
    simp only [Server.step] at hstep
    split at hstep
    · next hended =>
      obtain rfl := Option.some.inj hstep
      obtain ⟨live, hnodup, hmem, hcount, hmax⟩ := h
      have hpeer : peer ∈ live := (hmem peer).mpr (hended.1 ▸ live_ended)
      have hlength := List.length_erase_of_mem hpeer
      refine ⟨live.erase peer, hnodup.erase peer, fun p ↦ ?_, ?_, by omega⟩
      · show _ ↔ (Function.update s.phase peer PeerPhase.released p).Live
        rw [hnodup.mem_erase_iff, hmem]
        by_cases hp : p = peer
        · rw [hp, Function.update_self]
          exact iff_of_false (fun h ↦ h.1 rfl) (by decide)
        · rw [Function.update_of_ne hp]
          exact and_iff_right hp
      · show s.activeConnections - 1 = _
        rw [hlength, hcount]
    · cases hstep
  | stop =>
    obtain rfl := Option.some.inj hstep
    exact h
  | hub action =>
    simp only [Server.step] at hstep
    split at hstep
    · cases hstep
    · obtain ⟨hub, -, rfl⟩ := Option.map_eq_some_iff.mp hstep
      exact h

/-- A server shuts down because its parent is gone, or because a peer with the token asked for it
and may. -/
def MayShutDown (options : ServerOptions) (auth : String) (actions : List ServerAction) : Prop :=
  .stop ∈ actions ∨ options.allowShutdown = true ∧ ∃ peer,
    Authenticated options auth (inputsOf peer actions) ∧
      .frame (.text (some .shutdown)) ∈ inputsOf peer actions

theorem MayShutDown.append (h : MayShutDown options auth actions) (more : List ServerAction) :
    MayShutDown options auth (actions ++ more) := by
  rcases h with h | ⟨hallow, peer, hauth, hmem⟩
  · exact Or.inl (List.mem_append_left _ h)
  · refine Or.inr ⟨hallow, peer, ?_, ?_⟩ <;> rw [inputsOf_append]
    · exact hauth.append _
    · exact List.mem_append_left _ hmem

theorem shutdown_step {action : ServerAction} (hguarded : Guarded options auth actions s)
    (h : s.shutdown = true → MayShutDown options auth actions)
    (hstep : s.step wireSize options auth action = some t) (ht : t.shutdown = true) :
    MayShutDown options auth (actions ++ [action]) := by
  have hsame : t.shutdown = s.shutdown → MayShutDown options auth (actions ++ [action]) :=
    fun heq ↦ (h (heq ▸ ht)).append _
  cases action with
  | accept peer =>
    simp only [Server.step] at hstep
    split at hstep
    · split at hstep <;> obtain rfl := Option.some.inj hstep <;> exact hsame rfl
    · cases hstep
  | receive peer input writes =>
    rcases (counted_receive hstep).shutdown with heq | ⟨hallow, hphase, rfl⟩
    · exact hsame heq
    · have hpeer := hguarded.peers peer
      unfold Standing at hpeer
      rw [hphase] at hpeer
      refine Or.inr ⟨hallow, peer, ?_, ?_⟩ <;> rw [inputsOf_append]
      · exact Authenticated.append hpeer _
      · rw [inputsOf_receive]
        exact List.mem_append_right _ (List.mem_singleton.mpr rfl)
  | quit peer =>
    simp only [Server.step] at hstep
    split at hstep
    · obtain ⟨hub, -, rfl⟩ := Option.map_eq_some_iff.mp hstep
      exact hsame rfl
    · cases hstep
  | release peer =>
    simp only [Server.step] at hstep
    split at hstep
    · obtain rfl := Option.some.inj hstep
      exact hsame rfl
    · cases hstep
  | stop => exact Or.inl (List.mem_append_right _ (List.mem_singleton.mpr rfl))
  | hub action =>
    simp only [Server.step] at hstep
    split at hstep
    · cases hstep
    · obtain ⟨hub, -, rfl⟩ := Option.map_eq_some_iff.mp hstep
      exact hsame rfl

end Counting

/-- **No token, no daemon.** After every run of the server, a peer that has a connection at the
hub, a request at the backend or anything but a refusal in its socket has come through the
handshake and sent the token first; the server shuts down only for its parent or for such a peer
that may; and the permits count the threads of the connections, of which there are at most 64. -/
theorem unauthenticated_outside (wireSize : ServerMessage → Nat) (options : ServerOptions)
    (auth : String) (actions : List ServerAction) (t : Server)
    (hrun : (server wireSize options auth).run Server.start actions = some t) :
    (∀ peer, (t.hub.connections peer ≠ .absent ∨ (∃ request, (peer, request) ∈ t.dispatched) ∨
        ∃ m ∈ t.greeted peer, ∀ text, m ≠ .rejected text) →
      Authenticated options auth (inputsOf peer actions)) ∧
    (t.shutdown = true → MayShutDown options auth actions) ∧ Permits t := by
  have hinv : Guarded options auth actions t ∧
      (t.shutdown = true → MayShutDown options auth actions) ∧ Permits t := by
    have hgood : (server wireSize options auth).Meets (fun _ _ ↦ True) .start actions :=
      Machine.meets_of_forall (fun _ _ _ ↦ trivial) _
    refine Machine.run_induction (I := fun done s ↦ Guarded options auth done s ∧
      (s.shutdown = true → MayShutDown options auth done) ∧ Permits s) ?_ ?_ hgood hrun
    · refine ⟨⟨⟨fun _ _ ↦ rfl, fun _ _ _ _ _ _ h ↦ (by cases h),
        fun _ _ _ _ _ _ _ _ h ↦ (by cases h)⟩, fun p ↦ ⟨rfl, rfl, fun _ h ↦ (by cases h),
        fun _ h ↦ (by cases h)⟩⟩, fun h ↦ (by cases h), [], List.nodup_nil, fun p ↦ ?_, rfl,
        Nat.zero_le _⟩
      have hunknown : ¬ PeerPhase.unknown.Live := by decide
      exact iff_of_false List.not_mem_nil hunknown
    · rintro done s action u ⟨hguarded, hshutdown, hpermits⟩ - hstep
      exact ⟨guarded_step hguarded hstep, shutdown_step hguarded hshutdown hstep,
        permits_step hpermits hstep⟩
  obtain ⟨hguarded, hshutdown, hpermits⟩ := hinv
  refine ⟨fun peer heffect ↦ ?_, hshutdown, hpermits⟩
  have houtside : ¬ Outside t peer := by
    rintro ⟨hconnection, hdispatched, hgreeted⟩
    rcases heffect with h | ⟨request, h⟩ | ⟨m, hm, h⟩
    · exact h hconnection
    · exact hdispatched request h
    · obtain ⟨text, htext⟩ := hgreeted m hm
      exact h text htext
  have hpeer := hguarded.peers peer
  unfold Standing at hpeer
  cases hphase : t.phase peer <;> rw [hphase] at hpeer
  case serving => exact hpeer
  case ended => exact hpeer.resolve_right houtside
  case released => exact hpeer.resolve_right houtside
  all_goals exact absurd hpeer.2 houtside

/-- A peer that is served, one with a wrong token and one from a foreign origin. -/
def gateRun : List ServerAction :=
  [.accept 1, .accept 2, .accept 3, .receive 1 (.upgrade (some ⟨"/v1", none⟩)) true,
    .receive 2 (.upgrade (some ⟨"/v1", none⟩)) true,
    .receive 3 (.upgrade (some ⟨"/v1", some (some "https://example.com")⟩)) true,
    .receive 1 (.frame .ping) true,
    .receive 1 (.frame (.text (some (.hello 11 "secret" 7)))) true,
    .receive 2 (.frame (.text (some (.hello 11 "guess" 8)))) true,
    .hub (.subscribe 1), .hub .finish,
    .receive 1 (.frame (.text (some (.request ⟨5, .ping⟩)))) true, .release 2, .release 3]

theorem unauthenticated_outside_gateRun :
    ∃ t, (server (fun _ ↦ 0) ⟨[], false⟩ "secret").run Server.start gateRun = some t ∧
      t.dispatched = [(1, ⟨5, .ping⟩)] ∧
      Authenticated ⟨[], false⟩ "secret" (inputsOf 1 gateRun) :=
  ⟨_, rfl, rfl, (unauthenticated_outside (fun _ ↦ 0) ⟨[], false⟩ "secret" gateRun _ rfl).1 1
    (Or.inr (Or.inl ⟨⟨5, .ping⟩, List.mem_singleton.mpr rfl⟩))⟩

end Daku.Wire
