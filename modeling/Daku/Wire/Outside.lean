import Daku.Wire.Gate

/-!
# In front of the gate

What a peer that has not come through the gate gets: it has no connection at the hub, so nothing of
the dashboard is ever queued for it, and none of its requests gets to the backend, whatever the
other peers and the hub do meanwhile.
-/

namespace Daku.Wire

open Daku.Base

variable {wireSize : ServerMessage → Nat} {options : ServerOptions} {auth : String}

section Hub

variable {d e : Daemon} {action : DaemonAction} {peer : Nat}

/-- A connection that is absent is empty, and no job is about it. -/
structure HubSound (d : Daemon) : Prop where
  blank : ∀ c, (d.connections c).phase = .absent → d.connections c = .absent
  subscribe : ∀ c start todo sending drops gone,
    d.job = some ⟨.subscribe c start, todo, sending, drops, gone⟩ →
      (d.connections c).phase ≠ .absent
  resync : ∀ c id cached start todo sending drops gone,
    d.job = some ⟨.resync c id cached start, todo, sending, drops, gone⟩ →
      (d.connections c).phase ≠ .absent

/-- The only step of an absent connection is to connect. -/
theorem Connection.connect_of_absent {a : ConnectionAction} {c : Connection}
    (h : Connection.absent.step a = some c) : a = .connect := by
  cases Connection.step_spec h with
  | connect => rfl
  | drain hphase => cases hphase
  | notify hphase => cases hphase
  | requestSync hphase => cases hphase
  | acknowledge hack => cases hack
  | respond hphase hroom => exact absurd rfl hroom.1.1
  | refuse hphase => cases hphase
  | shutDown hphase => cases hphase
  | leave hphase => cases hphase
  | fail hphase => cases hphase
  | deliver hwire => cases hwire

/-- No step makes a connection absent. -/
theorem Connection.phase_ne_absent {c c' : Connection} {a : ConnectionAction}
    (hblank : c.phase = .absent → c = .absent) (h : c.step a = some c') : c'.phase ≠ .absent := by
  cases Connection.step_spec h with
  | connect => simp
  | drain hphase => simp [hphase]
  | notify hphase => simp [Connection.push, hphase]
  | requestSync hphase => simp [hphase]
  | acknowledge hack hroom => exact hroom.1.1
  | respond hphase hroom => exact hroom.1.1
  | refuse hphase => simp [hphase]
  | shutDown hphase => simp
  | leave hphase => simp
  | fail hphase => simp
  | deliver hwire =>
    intro habsent
    rw [hblank habsent] at hwire
    cases hwire

/-- What a hub action other than a connect does to absent connections. -/
structure Apart (before after : Nat → Connection) : Prop where
  known : ∀ c, (before c).phase ≠ .absent → (after c).phase ≠ .absent
  blank : ∀ c, (after c).phase = .absent → after c = .absent
  absent : ∀ c, before c = .absent → after c = .absent

theorem apart_refl (h : HubSound d) : Apart d.connections d.connections :=
  ⟨fun _ h ↦ h, h.blank, fun _ h ↦ h⟩

theorem known_set {k : Nat} {c : Connection} (hc : c.phase ≠ .absent) (p : Nat)
    (hp : (d.connections p).phase ≠ .absent) :
    ((d.setConnection k c).connections p).phase ≠ .absent := by
  by_cases hpk : p = k
  · rw [hpk, Daemon.connections_setConnection_self]
    exact hc
  · rw [Daemon.connections_setConnection_of_ne d c hpk]
    exact hp

theorem blank_set (h : HubSound d) {k : Nat} {c : Connection} (hc : c.phase ≠ .absent) (p : Nat)
    (hp : ((d.setConnection k c).connections p).phase = .absent) :
    (d.setConnection k c).connections p = .absent := by
  by_cases hpk : p = k
  · rw [hpk, Daemon.connections_setConnection_self] at hp
    exact absurd hp hc
  · rw [Daemon.connections_setConnection_of_ne d c hpk] at hp ⊢
    exact h.blank p hp

theorem apart_set (h : HubSound d) {k : Nat} {c : Connection}
    (hk : (d.connections k).phase ≠ .absent) (hc : c.phase ≠ .absent) :
    Apart d.connections (d.setConnection k c).connections where
  known := known_set hc
  blank := blank_set h hc
  absent p hp := by
    have hpk : p ≠ k := by
      rintro rfl
      rw [hp] at hk
      exact hk rfl
    rw [Daemon.connections_setConnection_of_ne d c hpk]
    exact hp

/-- The hub stays sound where connections that are known stay known. -/
theorem hubSound_of (h : HubSound d) (hknown : ∀ c, (d.connections c).phase ≠ .absent →
      (e.connections c).phase ≠ .absent)
    (hblank : ∀ c, (e.connections c).phase = .absent → e.connections c = .absent)
    (hjob : ∀ kind todo sending drops gone, e.job = some ⟨kind, todo, sending, drops, gone⟩ →
      (∃ todo sending drops gone, d.job = some ⟨kind, todo, sending, drops, gone⟩) ∨
        kind = .publish ∨
        (∃ c start, kind = .subscribe c start ∧ (d.connections c).phase ≠ .absent) ∨
        ∃ c id cached start, kind = .resync c id cached start ∧
          (d.connections c).phase ≠ .absent) : HubSound e where
  blank := hblank
  subscribe c start todo sending drops gone hc := by
    apply hknown
    rcases hjob _ _ _ _ _ hc with ⟨todo', sending', drops', gone', hold⟩ | hkind |
      ⟨c', start', hkind, hphase⟩ | ⟨c', id, cached, start', hkind, hphase⟩
    · exact h.subscribe c start _ _ _ _ hold
    · cases hkind
    · cases hkind
      exact hphase
    · cases hkind
  resync c id cached start todo sending drops gone hc := by
    apply hknown
    rcases hjob _ _ _ _ _ hc with ⟨todo', sending', drops', gone', hold⟩ | hkind |
      ⟨c', start', hkind, hphase⟩ | ⟨c', id', cached', start', hkind, hphase⟩
    · exact h.resync c id cached start _ _ _ _ hold
    · cases hkind
    · cases hkind
    · cases hkind
      exact hphase

/-- Every step of the hub but a connect leaves absent connections absent. -/
theorem HubSound.step (h : HubSound d) (hstep : d.step wireSize action = some e) :
    HubSound e ∧ ((∀ c, action ≠ .connection c .connect) → Apart d.connections e.connections) ∧
      ∀ c, action = .connection c .connect →
        ∀ p, p ≠ c → e.connections p = d.connections p := by
  cases Daemon.step_spec hstep with
  | connection hc =>
    next k a c =>
    have hphase := Connection.phase_ne_absent (h.blank k) hc
    refine ⟨hubSound_of h (known_set hphase) (blank_set h hphase) fun _ _ _ _ _ hjob ↦
      Or.inl ⟨_, _, _, _, hjob⟩, fun hne ↦ ?_, ?_⟩
    · by_cases hk : (d.connections k).phase = .absent
      · rw [h.blank k hk] at hc
        rw [Connection.connect_of_absent hc] at hne
        exact absurd rfl (hne k)
      · exact apart_set h hk hphase
    · rintro c' heq p hp
      cases heq
      exact Daemon.connections_setConnection_of_ne d c hp
  | subscribe hphase hjob =>
    refine ⟨hubSound_of h (fun _ h ↦ h) h.blank fun kind _ _ _ _ hnew ↦ ?_,
      fun _ ↦ apart_refl h, fun _ _ _ _ ↦ rfl⟩
    cases hnew
    exact Or.inr (Or.inr (Or.inl ⟨_, _, rfl, by simp [hphase]⟩))
  | publish hkey hjob horder =>
    refine ⟨hubSound_of h (fun _ h ↦ h) h.blank fun kind _ _ _ _ hnew ↦ ?_,
      fun _ ↦ apart_refl h, fun _ _ _ _ ↦ rfl⟩
    cases hnew
    exact Or.inr (Or.inl rfl)
  | beginMessage hjob =>
    refine ⟨hubSound_of h (fun _ h ↦ h) h.blank fun kind _ _ _ _ hnew ↦ ?_,
      fun _ ↦ apart_refl h, fun _ _ _ _ ↦ rfl⟩
    cases hnew
    exact Or.inl ⟨_, _, _, _, hjob⟩
  | sent hjob =>
    refine ⟨hubSound_of h (fun _ h ↦ h) h.blank fun kind _ _ _ _ hnew ↦ ?_,
      fun _ ↦ apart_refl h, fun _ _ _ _ ↦ rfl⟩
    cases hnew
    exact Or.inl ⟨_, _, _, _, hjob⟩
  | send hjob hroom =>
    refine ⟨hubSound_of h (known_set hroom.1.1) (blank_set h hroom.1.1)
      fun kind _ _ _ _ hnew ↦ ?_, fun _ ↦ apart_set h hroom.1.1 hroom.1.1,
      fun _ heq ↦ by cases heq⟩
    cases hnew
    exact Or.inl ⟨_, _, _, _, hjob⟩
  | giveUp hjob hroom hdrops =>
    refine ⟨hubSound_of h (fun _ h ↦ h) h.blank fun kind _ _ _ _ hnew ↦ ?_,
      fun _ ↦ apart_refl h, fun _ _ _ _ ↦ rfl⟩
    cases hnew
    exact Or.inl ⟨_, _, _, _, hjob⟩
  | finishPublish hjob =>
    exact ⟨hubSound_of h (fun _ h ↦ h) h.blank fun kind _ _ _ _ hnew ↦ (by cases hnew),
      fun _ ↦ apart_refl h, fun _ _ _ _ ↦ rfl⟩
  | finishSubscribe hjob =>
    have hphase := h.subscribe _ _ _ _ _ _ hjob
    exact ⟨hubSound_of h (known_set (by simp)) (blank_set h (by simp))
      fun kind _ _ _ _ hnew ↦ (by cases hnew), fun _ ↦ apart_set h hphase (by simp),
      fun _ heq ↦ (by cases heq)⟩
  | finishResync hjob =>
    have hphase := h.resync _ _ _ _ _ _ _ _ hjob
    exact ⟨hubSound_of h (known_set hphase) (blank_set h hphase)
      fun kind _ _ _ _ hnew ↦ (by cases hnew), fun _ ↦ apart_set h hphase hphase,
      fun _ heq ↦ (by cases heq)⟩
  | resync hrequest hjob =>
    next k id =>
    have hphase : (d.connections k).phase ≠ .absent := fun hk ↦ by
      rw [h.blank k hk] at hrequest
      cases hrequest
    refine ⟨hubSound_of h (known_set hphase) (blank_set h hphase)
      fun kind _ _ _ _ hnew ↦ ?_, fun _ ↦ apart_set h hphase hphase,
      fun _ heq ↦ (by cases heq)⟩
    cases hnew
    exact Or.inr (Or.inr (Or.inr ⟨_, _, _, _, rfl, hphase⟩))
  | unsubscribe hphase hjob =>
    refine ⟨hubSound_of h (known_set (by simp)) (blank_set h (by simp))
      fun kind _ _ _ _ hnew ↦ ?_, fun _ ↦ apart_set h (by simp [hphase]) (by simp),
      fun _ heq ↦ (by cases heq)⟩
    exact Or.inl ⟨_, _, _, _, hnew⟩

end Hub

section Peers

variable {s t : Server} {peer p : Nat} {inputs : List Input} {actions : List ServerAction}

/-- The peer has no connection at the hub, nothing of it got to the backend, and all it was sent
is a refusal. -/
structure Outside (s : Server) (peer : Nat) : Prop where
  connection : s.hub.connections peer = .absent
  dispatched : ∀ request, (peer, request) ∉ s.dispatched
  greeted : ∀ m ∈ s.greeted peer, ∃ text, m = .rejected text

/-- The peer may send its hello now. -/
def Greeting (options : ServerOptions) (inputs : List Input) : Prop :=
  ∃ request idle, inputs = .upgrade (some request) :: idle ∧
    validateHandshake options request = .ok () ∧ ∀ input ∈ idle, input.isIdle = true

/-- What a peer in a phase has sent. -/
def Standing (options : ServerOptions) (auth : String) (inputs : List Input) (s : Server)
    (peer : Nat) : Prop :=
  match s.phase peer with
  | .unknown | .refused | .upgrading => inputs = [] ∧ Outside s peer
  | .greeting => Greeting options inputs ∧ Outside s peer
  | .serving => Authenticated options auth inputs
  | .ended | .released => Authenticated options auth inputs ∨ Outside s peer

theorem Authenticated.append (h : Authenticated options auth inputs) (more : List Input) :
    Authenticated options auth (inputs ++ more) := by
  obtain ⟨request, idle, clientId, rest, rfl, hvalid, hidle⟩ := h
  exact ⟨request, idle, clientId, rest ++ more, by simp, hvalid, hidle⟩

theorem Greeting.append {frame : Input} (h : Greeting options inputs)
    (hframe : frame.isIdle = true) : Greeting options (inputs ++ [frame]) := by
  obtain ⟨request, idle, rfl, hvalid, hidle⟩ := h
  refine ⟨request, idle ++ [frame], rfl, hvalid, fun input hinput ↦ ?_⟩
  rcases List.mem_append.mp hinput with hinput | hinput
  · exact hidle input hinput
  · rw [List.mem_singleton.mp hinput]
    exact hframe

/-- The right hello after the handshake. -/
theorem Greeting.authenticated (h : Greeting options inputs) (clientId : Uuid) :
    Authenticated options auth
      (inputs ++ [.frame (.text (some (.hello protocolVersion auth clientId)))]) := by
  obtain ⟨request, idle, rfl, hvalid, hidle⟩ := h
  exact ⟨request, idle, clientId, [], rfl, hvalid, hidle⟩

theorem inputsOf_append (peer : Nat) (actions more : List ServerAction) :
    inputsOf peer (actions ++ more) = inputsOf peer actions ++ inputsOf peer more :=
  List.filterMap_append ..

theorem inputsOf_receive (peer : Nat) (input : Input) (writes : Bool) :
    inputsOf peer [.receive peer input writes] = [input] := by
  simp [inputsOf]

theorem inputsOf_receive_other (h : p ≠ peer) (input : Input) (writes : Bool) :
    inputsOf p [.receive peer input writes] = [] := by
  simp [inputsOf, Ne.symm h]

/-- What a step on behalf of one peer leaves of the others. -/
structure Elsewhere (peer : Nat) (s t : Server) : Prop where
  hub : HubSound t.hub
  phase : ∀ q, q ≠ peer → t.phase q = s.phase q
  outside : ∀ q, q ≠ peer → Outside s q → Outside t q

theorem Standing.elsewhere (h : Standing options auth inputs s p) (hne : p ≠ peer)
    (helsewhere : Elsewhere peer s t) : Standing options auth inputs t p := by
  have hout := helsewhere.outside p hne
  unfold Standing at h ⊢
  rw [helsewhere.phase p hne]
  cases hphase : s.phase p <;> rw [hphase] at h
  case serving => exact h
  case ended => exact h.imp_right hout
  case released => exact h.imp_right hout
  all_goals exact h.imp_right hout

/-- A step that stays in front of the hub. -/
theorem elsewhere_front (hhub : HubSound s.hub) (hsame : t.hub = s.hub)
    (hphase : ∀ q, q ≠ peer → t.phase q = s.phase q)
    (hdispatched : ∀ q, q ≠ peer → ∀ r, (q, r) ∈ t.dispatched → (q, r) ∈ s.dispatched)
    (hgreeted : ∀ q, q ≠ peer → t.greeted q = s.greeted q) : Elsewhere peer s t where
  hub := hsame ▸ hhub
  phase := hphase
  outside q hq h :=
    ⟨hsame ▸ h.connection, fun r hr ↦ h.dispatched r (hdispatched q hq r hr),
      fun m hm ↦ h.greeted m (hgreeted q hq ▸ hm)⟩

/-- A step of the hub on behalf of a peer. -/
theorem elsewhere_hub {u : Server} {action : DaemonAction} (h : Elsewhere peer s u)
    (hmove : u.moveHub wireSize action = some t)
    (hconnect : ∀ c, action = .connection c .connect → c = peer) : Elsewhere peer s t := by
  obtain ⟨hub, hstep, rfl⟩ := Option.map_eq_some_iff.mp hmove
  obtain ⟨hsound, hapart, hother⟩ := h.hub.step hstep
  refine ⟨hsound, h.phase, fun q hq hout ↦ ?_⟩
  have hu := h.outside q hq hout
  refine ⟨?_, hu.dispatched, hu.greeted⟩
  by_cases hc : ∃ c, action = .connection c .connect
  · obtain ⟨c, rfl⟩ := hc
    obtain rfl := hconnect c rfl
    show hub.connections q = _
    rw [hother c rfl q hq]
    exact hu.connection
  · exact (hapart fun c hc' ↦ hc ⟨c, hc'⟩).absent q hu.connection

theorem elsewhere_setPhase (hhub : HubSound s.hub) (peer : Nat) (phase : PeerPhase) :
    Elsewhere peer s (s.setPhase peer phase) :=
  elsewhere_front hhub rfl (fun _ hq ↦ Function.update_of_ne hq _ _) (fun _ _ _ h ↦ h)
    fun _ _ ↦ rfl

theorem elsewhere_greet (hhub : HubSound s.hub) (peer : Nat) (m : ServerMessage)
    (phase : PeerPhase) : Elsewhere peer s ((s.greet peer m).setPhase peer phase) :=
  elsewhere_front hhub rfl (fun _ hq ↦ Function.update_of_ne hq _ _) (fun _ _ _ h ↦ h)
    fun _ hq ↦ Function.update_of_ne hq _ _

theorem phase_setPhase (s : Server) (peer : Nat) (phase : PeerPhase) :
    (s.setPhase peer phase).phase peer = phase :=
  Function.update_self ..

theorem outside_setPhase {phase : PeerPhase} (h : Outside s peer) :
    Outside (s.setPhase peer phase) peer :=
  ⟨h.connection, h.dispatched, h.greeted⟩

theorem outside_greet {text : String} {phase : PeerPhase} (h : Outside s peer) :
    Outside ((s.greet peer (.rejected text)).setPhase peer phase) peer := by
  refine ⟨h.connection, h.dispatched, fun m hm ↦ ?_⟩
  have hmem : m ∈ Function.update s.greeted peer (s.greeted peer ++ [.rejected text]) peer := hm
  rw [Function.update_self, List.mem_append] at hmem
  rcases hmem with hmem | hmem
  · exact h.greeted m hmem
  · exact ⟨text, List.mem_singleton.mp hmem⟩

theorem standing_ended {phase : PeerPhase} (hphase : phase = .ended ∨ phase = .released)
    (ht : t.phase peer = phase)
    (h : Authenticated options auth inputs ∨ Outside t peer) :
    Standing options auth inputs t peer := by
  unfold Standing
  rcases hphase with rfl | rfl <;> rw [ht] <;> exact h

theorem standing_serving (ht : t.phase peer = .serving)
    (h : Authenticated options auth inputs) : Standing options auth inputs t peer := by
  unfold Standing
  rw [ht]
  exact h

/-- A peer that is turned away. -/
theorem turnedAway (hhub : HubSound s.hub) (hout : Outside s peer) :
    Elsewhere peer s (s.setPhase peer .ended) ∧
      Standing options auth inputs (s.setPhase peer .ended) peer :=
  ⟨elsewhere_setPhase hhub peer _, standing_ended (Or.inl rfl) (phase_setPhase s peer _)
    (Or.inr (outside_setPhase hout))⟩

theorem turnedAway_greet {text : String} (hhub : HubSound s.hub) (hout : Outside s peer) :
    Elsewhere peer s ((s.greet peer (.rejected text)).setPhase peer .ended) ∧
      Standing options auth inputs ((s.greet peer (.rejected text)).setPhase peer .ended) peer :=
  ⟨elsewhere_greet hhub peer _ _, standing_ended (Or.inl rfl) (phase_setPhase _ peer _)
    (Or.inr (outside_greet hout))⟩

/-- A peer that goes on waiting. -/
theorem stillGreeting {frame : Frame} (hhub : HubSound s.hub) (hphase : s.phase peer = .greeting)
    (hgreeting : Greeting options inputs) (hout : Outside s peer)
    (hidle : (Input.frame frame).isIdle = true) :
    Elsewhere peer s s ∧ Standing options auth (inputs ++ [.frame frame]) s peer := by
  refine ⟨elsewhere_front hhub rfl (fun _ _ ↦ rfl) (fun _ _ _ h ↦ h) fun _ _ ↦ rfl, ?_⟩
  unfold Standing
  rw [hphase]
  exact ⟨hgreeting.append hidle, hout⟩

/-- The first message of a peer: only the right hello connects it. -/
theorem standing_readHello {frame : Frame} {writes : Bool} (hhub : HubSound s.hub)
    (hphase : s.phase peer = .greeting) (hgreeting : Greeting options inputs)
    (hout : Outside s peer)
    (h : s.readHello wireSize auth peer writes frame = some t) :
    Elsewhere peer s t ∧ Standing options auth (inputs ++ [.frame frame]) t peer := by
  cases frame with
  | text message =>
    cases message with
    | none =>
      obtain rfl := Option.some.inj h
      exact turnedAway hhub hout
    | some message =>
      cases message with
      | request request =>
        obtain rfl := Option.some.inj h
        exact turnedAway hhub hout
      | shutdown =>
        obtain rfl := Option.some.inj h
        exact turnedAway hhub hout
      | hello version token clientId =>
        simp only [Server.readHello] at h
        split at h
        · next hright =>
          obtain ⟨rfl, htoken⟩ := hright
          obtain rfl := of_decide_eq_true htoken
          split at h
          · refine ⟨elsewhere_hub (elsewhere_greet hhub peer _ _) h fun c hc ↦ by
              cases hc
              rfl, ?_⟩
            obtain ⟨hub, -, rfl⟩ := Option.map_eq_some_iff.mp h
            exact standing_serving (phase_setPhase _ peer _) (hgreeting.authenticated clientId)
          · obtain rfl := Option.some.inj h
            exact turnedAway hhub hout
        · split at h
          · obtain rfl := Option.some.inj h
            exact turnedAway_greet hhub hout
          · obtain rfl := Option.some.inj h
            exact turnedAway_greet hhub hout
  | ping =>
    simp only [Server.readHello] at h
    split at h
    · obtain rfl := Option.some.inj h
      exact stillGreeting hhub hphase hgreeting hout rfl
    · obtain rfl := Option.some.inj h
      exact turnedAway hhub hout
  | other =>
    obtain rfl := Option.some.inj h
    exact stillGreeting hhub hphase hgreeting hout rfl
  | close | retry | closed | failed =>
    obtain rfl := Option.some.inj h
    exact turnedAway hhub hout

/-- A step of a peer that is served, which ends up served or ended. -/
theorem standing_served {action : DaemonAction} {u : Server} (h : Elsewhere peer s u)
    (hphase : u.phase peer = .serving ∨ u.phase peer = .ended)
    (hauth : Authenticated options auth inputs) (hconnect : ∀ c, action ≠ .connection c .connect)
    (hmove : u.moveHub wireSize action = some t) :
    Elsewhere peer s t ∧ Standing options auth inputs t peer := by
  refine ⟨elsewhere_hub h hmove fun c hc ↦ absurd hc (hconnect c), ?_⟩
  obtain ⟨hub, -, rfl⟩ := Option.map_eq_some_iff.mp hmove
  rcases hphase with hphase | hphase
  · exact standing_serving hphase hauth
  · exact standing_ended (Or.inl rfl) hphase (Or.inl hauth)

/-- What a peer that is served sends. -/
theorem standing_serve {frame : Frame} {writes : Bool} (hhub : HubSound s.hub)
    (hphase : s.phase peer = .serving) (hauth : Authenticated options auth inputs)
    (h : s.serve wireSize options peer writes frame = some t) :
    Elsewhere peer s t ∧ Standing options auth (inputs ++ [.frame frame]) t peer := by
  have hauth' := hauth.append [.frame frame]
  have hself : Elsewhere peer s s :=
    elsewhere_front hhub rfl (fun _ _ ↦ rfl) (fun _ _ _ h ↦ h) fun _ _ ↦ rfl
  have hended : Elsewhere peer s (s.setPhase peer .ended) := elsewhere_setPhase hhub peer _
  have hendedPhase := phase_setPhase s peer .ended
  have hstay : t = s → Elsewhere peer s t ∧
      Standing options auth (inputs ++ [.frame frame]) t peer := by
    rintro rfl
    exact ⟨hself, standing_serving hphase hauth'⟩
  cases frame with
  | text message =>
    cases message with
    | none => exact hstay (Option.some.inj h).symm
    | some message =>
      cases message with
      | hello version token clientId => exact hstay (Option.some.inj h).symm
      | request request =>
        simp only [Server.serve] at h
        split at h
        · exact standing_served hself (Or.inl hphase) hauth' (fun c hc ↦ by cases hc) h
        · obtain rfl := Option.some.inj h
          refine ⟨elsewhere_front hhub rfl (fun _ _ ↦ rfl) (fun q hq r hr ↦ ?_) fun _ _ ↦ rfl,
            standing_serving hphase hauth'⟩
          rcases List.mem_append.mp hr with hr | hr
          · exact hr
          · exact absurd (Prod.mk.inj (List.mem_singleton.mp hr)).1 hq
      | shutdown =>
        simp only [Server.serve] at h
        split at h
        · exact standing_served hended (Or.inr hendedPhase) hauth' (fun c hc ↦ by cases hc) h
        · split at h
          · refine standing_served (u := { s.setPhase peer .ended with shutdown := true })
              ?_ (Or.inr hendedPhase) hauth' (fun c hc ↦ by cases hc) h
            exact elsewhere_front hhub rfl hended.phase (fun _ _ _ h ↦ h) fun _ _ ↦ rfl
          · exact standing_served hself (Or.inl hphase) hauth' (fun c hc ↦ by cases hc) h
  | close | closed | failed =>
    exact standing_served hended (Or.inr hendedPhase) hauth' (fun c hc ↦ by cases hc) h
  | ping | other | retry => exact hstay (Option.some.inj h).symm

/-- What holds of every peer after a run. -/
structure Guarded (options : ServerOptions) (auth : String) (actions : List ServerAction)
    (s : Server) : Prop where
  hub : HubSound s.hub
  peers : ∀ p, Standing options auth (inputsOf p actions) s p

/-- One peer moves, the others stand where they stood. -/
theorem guarded_of {action : ServerAction} (h : Guarded options auth actions s)
    (helsewhere : Elsewhere peer s t) (hothers : ∀ q, q ≠ peer → inputsOf q [action] = [])
    (hpeer : Standing options auth (inputsOf peer actions ++ inputsOf peer [action]) t peer) :
    Guarded options auth (actions ++ [action]) t where
  hub := helsewhere.hub
  peers p := by
    rw [inputsOf_append]
    by_cases hp : p = peer
    · rw [hp]
      exact hpeer
    · rw [hothers p hp, List.append_nil]
      exact (h.peers p).elsewhere hp helsewhere

/-- One step of the server. -/
theorem guarded_step {action : ServerAction} (h : Guarded options auth actions s)
    (hstep : s.step wireSize options auth action = some t) :
    Guarded options auth (actions ++ [action]) t := by
  cases action with
  | accept peer =>
    have hnone : inputsOf peer [ServerAction.accept peer] = [] := rfl
    simp only [Server.step] at hstep
    split at hstep
    · next hunknown =>
      have hpeer := h.peers peer
      unfold Standing at hpeer
      rw [hunknown.2] at hpeer
      split at hstep <;> obtain rfl := Option.some.inj hstep
      · have helsewhere : Elsewhere peer s { s.setPhase peer .upgrading with
            activeConnections := s.activeConnections + 1 } := elsewhere_front h.hub rfl
          (fun q hq ↦ Function.update_of_ne hq _ _) (fun _ _ _ h ↦ h) fun _ _ ↦ rfl
        refine guarded_of h helsewhere (fun _ _ ↦ rfl) ?_
        have hphase : Function.update s.phase peer PeerPhase.upgrading peer = .upgrading :=
          Function.update_self ..
        unfold Standing
        rw [show Server.phase _ peer = .upgrading from hphase, hnone, List.append_nil]
        exact ⟨hpeer.1, hpeer.2.connection, hpeer.2.dispatched, hpeer.2.greeted⟩
      · refine guarded_of h (elsewhere_setPhase h.hub peer _) (fun _ _ ↦ rfl) ?_
        unfold Standing
        rw [phase_setPhase, hnone, List.append_nil]
        exact ⟨hpeer.1, outside_setPhase hpeer.2⟩
    · cases hstep
  | receive peer input writes =>
    have hothers : ∀ q, q ≠ peer → inputsOf q [ServerAction.receive peer input writes] = [] :=
      fun q hq ↦ inputsOf_receive_other hq input writes
    have hpeer := h.peers peer
    unfold Standing at hpeer
    cases input with
    | upgrade request =>
      simp only [Server.step, Server.receive] at hstep
      split at hstep
      · next hphase =>
        rw [hphase] at hpeer
        obtain ⟨hinputs, hout⟩ := hpeer
        cases request with
        | none =>
          obtain rfl := Option.some.inj hstep
          exact guarded_of h (elsewhere_setPhase h.hub peer _) hothers
            (turnedAway h.hub hout).2
        | some request =>
          cases hvalid : validateHandshake options request with
          | error error =>
            simp only [Option.map_some, hvalid] at hstep
            obtain rfl := Option.some.inj hstep
            exact guarded_of h (elsewhere_setPhase h.hub peer _) hothers
              (turnedAway h.hub hout).2
          | ok =>
            simp only [Option.map_some, hvalid] at hstep
            obtain rfl := Option.some.inj hstep
            refine guarded_of h (elsewhere_setPhase h.hub peer _) hothers ?_
            unfold Standing
            rw [phase_setPhase, inputsOf_receive, hinputs]
            exact ⟨⟨request, [], rfl, hvalid, fun _ hmem ↦ (by cases hmem)⟩,
              outside_setPhase hout⟩
      · cases hstep
    | frame frame =>
      simp only [Server.step, Server.receive] at hstep
      split at hstep
      · next hphase =>
        rw [hphase] at hpeer
        obtain ⟨helsewhere, hstanding⟩ :=
          standing_readHello h.hub hphase hpeer.1 hpeer.2 hstep
        exact guarded_of h helsewhere hothers (inputsOf_receive peer _ writes ▸ hstanding)
      · split at hstep
        · next hserving =>
          rw [hserving.1] at hpeer
          obtain ⟨helsewhere, hstanding⟩ := standing_serve h.hub hserving.1 hpeer hstep
          exact guarded_of h helsewhere hothers (inputsOf_receive peer _ writes ▸ hstanding)
        · cases hstep
  | quit peer =>
    have hnone : inputsOf peer [ServerAction.quit peer] = [] := rfl
    have hpeer := h.peers peer
    unfold Standing at hpeer
    simp only [Server.step] at hstep
    split at hstep
    · next hphase =>
      rw [hphase] at hpeer
      obtain ⟨helsewhere, hstanding⟩ := standing_served (elsewhere_setPhase h.hub peer .ended)
        (Or.inr (phase_setPhase s peer _)) hpeer (fun c hc ↦ by cases hc) hstep
      exact guarded_of h helsewhere (fun _ _ ↦ rfl)
        (by rw [hnone, List.append_nil]; exact hstanding)
    · cases hstep
  | release peer =>
    have hnone : inputsOf peer [ServerAction.release peer] = [] := rfl
    have hpeer := h.peers peer
    unfold Standing at hpeer
    simp only [Server.step] at hstep
    split at hstep
    · next hended =>
      rw [hended.1] at hpeer
      obtain rfl := Option.some.inj hstep
      have helsewhere : Elsewhere peer s { s.setPhase peer .released with
          activeConnections := s.activeConnections - 1 } := elsewhere_front h.hub rfl
        (fun q hq ↦ Function.update_of_ne hq _ _) (fun _ _ _ h ↦ h) fun _ _ ↦ rfl
      refine guarded_of h helsewhere (fun _ _ ↦ rfl) ?_
      rw [hnone, List.append_nil]
      exact standing_ended (Or.inr rfl) (Function.update_self ..)
        (hpeer.imp_right fun hout ↦ ⟨hout.connection, hout.dispatched, hout.greeted⟩)
    · cases hstep
  | stop =>
    obtain rfl := Option.some.inj hstep
    refine ⟨h.hub, fun p ↦ ?_⟩
    have hsame : inputsOf p (actions ++ [ServerAction.stop]) = inputsOf p actions := by
      rw [inputsOf_append]
      exact List.append_nil _
    rw [hsame]
    have hp := h.peers p
    unfold Standing at hp ⊢
    cases hphase : s.phase p <;> rw [hphase] at hp <;> simp only
    case serving => exact hp
    all_goals exact hp.imp_right fun hout ↦ ⟨hout.connection, hout.dispatched, hout.greeted⟩
  | hub action =>
    simp only [Server.step] at hstep
    split at hstep
    · cases hstep
    · next hloop =>
      have hconnect : ∀ c, action ≠ .connection c .connect := by
        rintro c rfl
        exact hloop rfl
      obtain ⟨hub, hmove, rfl⟩ := Option.map_eq_some_iff.mp hstep
      obtain ⟨hsound, hapart, -⟩ := h.hub.step hmove
      refine ⟨hsound, fun p ↦ ?_⟩
      have hsame : inputsOf p (actions ++ [ServerAction.hub action]) = inputsOf p actions := by
        rw [inputsOf_append]
        exact List.append_nil _
      rw [hsame]
      have hp := h.peers p
      have hmoved : ∀ hout : Outside s p, Outside { s with hub } p := fun hout ↦
        ⟨(hapart hconnect).absent p hout.connection, hout.dispatched, hout.greeted⟩
      unfold Standing at hp ⊢
      cases hphase : s.phase p <;> rw [hphase] at hp <;> simp only
      case serving => exact hp
      all_goals exact hp.imp_right hmoved

end Peers

end Daku.Wire
