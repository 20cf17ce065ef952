import Daku.Desktop.DashboardState
import Daku.Wire.Resync

/-!
# The reported loss

A window shows how many messages the last replay lost. The number comes with the notice of a lossy
initial replay and is kept over connections (`src/dashboard_state.rs:622–633`); no notice follows a
complete replay or any resync (`crates/daku-core/src/server.rs:448–526`). So the number is right as
long as resyncs lose nothing and nothing is complete after an initial replay that lost something.
-/

namespace Daku.Wire.Daemon

/-- The connection an action completes a replay to: an initial one without loss, or any resync. -/
def completes (s : Daemon) : DaemonAction → Option Nat
  | .finish =>
    match s.job with
    | some ⟨.subscribe connection _, [], none, drops, _⟩ =>
      if drops = 0 then some connection else none
    | some ⟨.resync connection _ _ _, [], none, _, _⟩ => some connection
    | _ => none
  | _ => none

end Daku.Wire.Daemon

namespace Daku.Desktop

open Daku.Base Daku.Protocol Daku.Wire

variable {fromStr : FromStr} {wireSize : ServerMessage → Nat}

/-- Only a notice changes the reported loss. -/
theorem DashboardState.syncDrops_applyAll {ms : List ServerMessage} {s : DashboardState}
    (h : ∀ m ∈ ms, IsNotice m = false) :
    (DashboardState.applyAll fromStr s ms).syncDrops = s.syncDrops := by
  induction ms generalizing s with
  | nil => rfl
  | cons m ms ih =>
    have hm : (s.apply fromStr m).syncDrops = s.syncDrops := by
      have hnotice := h m List.mem_cons_self
      cases m <;> first | rfl | cases hnotice
    exact (ih fun n hn ↦ h n (List.mem_cons_of_mem _ hn)).trans hm

/-- The daemon and one client, whose connections succeed each other. -/
structure Session where
  daemon : Daemon
  /-- The client's connections, the present one first. -/
  connections : List Nat
  /-- What the earlier connections' readers handed on. -/
  past : List ServerMessage

inductive SessionAction where
  /-- Anything the daemon and its connections do. -/
  | daemon (a : DaemonAction)
  /-- The client gives up its connection and makes another one. -/
  | reconnect (connection : Nat)

namespace Session

/-- A client that has not connected yet. -/
def start : Session := ⟨.start, [], []⟩

variable (s : Session)

/-- Everything the client's readers have handed on. -/
def forwarded : List ServerMessage :=
  match s.connections with
  | [] => s.past
  | i :: _ => s.past ++ Reader.start.forwarded (s.daemon.connections i).read

/-- The state of the client's window. -/
def window (fromStr : FromStr) : DashboardState := DashboardState.new.applyAll fromStr s.forwarded

def step (wireSize : ServerMessage → Nat) : SessionAction → Option Session
  | .daemon a => (s.daemon.step wireSize a).map fun daemon ↦ { s with daemon }
  | .reconnect i => (s.daemon.step wireSize (.connection i .connect)).map fun daemon ↦
      ⟨daemon, i :: s.connections, s.forwarded⟩

/-- An initial replay to the client has lost something. -/
def Lossy : Prop := ∃ i ∈ s.connections, ∃ r ∈ (s.daemon.connections i).replays,
  r.request = none ∧ 0 < r.lost

instance : Decidable s.Lossy := inferInstanceAs (Decidable (∃ i ∈ s.connections, _))

/-- A piece of a resync finds room, and a replay is completed only if no initial one has lost
anything before. -/
def Fits (s : Session) : SessionAction → Prop
  | .daemon a =>
    (∀ i ∈ s.daemon.resyncPiece a, i ∈ s.connections → (s.daemon.connections i).Receiving →
      (s.daemon.connections i).HasRoom) ∧
    ∀ i ∈ s.daemon.completes a, i ∈ s.connections → (s.daemon.connections i).Receiving →
      ¬s.Lossy
  | .reconnect _ => True

instance (s : Session) : (a : SessionAction) → Decidable (s.Fits a)
  | .daemon _ => inferInstanceAs (Decidable (_ ∧ _))
  | .reconnect _ => instDecidableTrue

/-- Of one of the client's connections: what was acknowledged lost nothing, and nothing is
acknowledged after a lossy initial replay. -/
structure Good (c : Connection) : Prop where
  answered : ∀ a ∈ c.answered, a.replay.lost = 0
  acks : c.Receiving → ∀ e ∈ c.acks, e.2.lost = 0
  lossy : (∃ r ∈ c.replays, r.request = none ∧ 0 < r.lost) →
    c.answered = [] ∧ (c.Receiving → c.acks = [])

/-- Of a connection made after a notice was handed on. -/
structure Late (c : Connection) : Prop where
  answered : c.answered = []
  acks : c.Receiving → c.acks = []
  lossy : ∀ r ∈ c.replays, r.request = none → 0 < r.lost

/-- What holds of the client's connections after every run of good steps. -/
structure Connected (s : Session) : Prop where
  made : ∀ i ∈ s.connections, (s.daemon.connections i).phase ≠ .absent
  good : ∀ i ∈ s.connections, Good (s.daemon.connections i)
  past : (∃ m ∈ s.past, IsNotice m) → s.Lossy ∧
    ∀ i ∈ s.connections.head?, Late (s.daemon.connections i)

/-- What holds after every run of good steps. -/
structure Tracked (wireSize : ServerMessage → Nat) (s : Session) : Prop where
  booked : s.daemon.Booked wireSize
  connected : s.Connected
  job : ∀ job i requestId cached start, s.daemon.job = some job →
    job.kind = .resync i requestId cached start → i ∈ s.connections →
    (s.daemon.connections i).Receiving → job.drops = 0

variable {s t : Session}

/-- A connection's own actions keep it good. -/
theorem Good.step {c c' : Connection} {a : ConnectionAction} (h : Good c)
    (hmade : c.phase ≠ .absent) (hstep : c.step a = some c') : Good c' := by
  have hbefore : c'.Receiving → c.Receiving := fun hreceiving ↦
    (Connection.receiving_of_step hstep hreceiving).resolve_right hmade
  cases Connection.step_spec hstep with
  | @acknowledge index requestId replay hack hroom =>
    have hmem := List.mem_of_getElem? hack
    refine ⟨fun a ha ↦ ?_, fun hreceiving e he ↦ ?_, fun hlossy ↦ ?_⟩
    · rcases List.mem_append.mp ha with ha | ha
      · exact h.answered a ha
      · rw [List.mem_singleton.mp ha]
        exact h.acks hroom.1 _ hmem
    · exact h.acks hreceiving e (List.mem_of_mem_eraseIdx he)
    · rw [(h.lossy hlossy).2 hroom.1] at hmem
      cases hmem
  | _ => exact ⟨h.answered, fun hreceiving ↦ h.acks (hbefore hreceiving), fun hlossy ↦
      ⟨(h.lossy hlossy).1, fun hreceiving ↦ (h.lossy hlossy).2 (hbefore hreceiving)⟩⟩

theorem Late.step {c c' : Connection} {a : ConnectionAction} (h : Late c)
    (hmade : c.phase ≠ .absent) (hstep : c.step a = some c') : Late c' := by
  have hbefore : c'.Receiving → c.Receiving := fun hreceiving ↦
    (Connection.receiving_of_step hstep hreceiving).resolve_right hmade
  cases Connection.step_spec hstep with
  | @acknowledge index requestId replay hack hroom =>
    have hmem := List.mem_of_getElem? hack
    rw [h.acks hroom.1] at hmem
    cases hmem
  | _ => exact ⟨h.answered, fun hreceiving ↦ h.acks (hbefore hreceiving), h.lossy⟩

/-- Changing one connection of the daemon. -/
theorem Connected.change (h : s.Connected) {daemon : Daemon} {i : Nat} {c : Connection}
    (hconnections : daemon.connections = (s.daemon.setConnection i c).connections)
    (hmade : i ∈ s.connections → c.phase ≠ .absent)
    (hgood : i ∈ s.connections → Good (s.daemon.connections i) → Good c)
    (hreplays : ∀ r ∈ (s.daemon.connections i).replays, r ∈ c.replays)
    (hlate : i ∈ s.connections → s.Lossy → Late (s.daemon.connections i) → Late c) :
    Connected { s with daemon } := by
  have hself : daemon.connections i = c := by
    rw [hconnections, Daemon.connections_setConnection_self]
  have hother : ∀ j ≠ i, daemon.connections j = s.daemon.connections j := fun j hj ↦ by
    rw [hconnections, Daemon.connections_setConnection_of_ne _ _ hj]
  refine ⟨fun j hj ↦ ?_, fun j hj ↦ ?_, fun hnotice ↦ ?_⟩
  · change (daemon.connections j).phase ≠ .absent
    by_cases hji : j = i
    · subst hji
      rw [hself]
      exact hmade hj
    · rw [hother j hji]
      exact h.made j hj
  · change Good (daemon.connections j)
    by_cases hji : j = i
    · subst hji
      rw [hself]
      exact hgood hj (h.good j hj)
    · rw [hother j hji]
      exact h.good j hj
  · obtain ⟨⟨j, hj, r, hr, hlost⟩, hlater⟩ := h.past hnotice
    refine ⟨⟨j, hj, r, ?_, hlost⟩, fun k hk ↦ ?_⟩
    · change r ∈ (daemon.connections j).replays
      by_cases hji : j = i
      · subst hji
        rw [hself]
        exact hreplays r hr
      · rw [hother j hji]
        exact hr
    · change Late (daemon.connections k)
      by_cases hki : k = i
      · subst hki
        rw [hself]
        exact hlate (List.mem_of_mem_head? hk) ⟨j, hj, r, hr, hlost⟩ (hlater k hk)
      · rw [hother k hki]
        exact hlater k hk

/-- Good steps of the daemon keep the invariant. -/
theorem Tracked.daemon (h : Tracked wireSize s) {a : DaemonAction} {d : Daemon}
    (hfits : s.Fits (.daemon a)) (hstep : s.daemon.step wireSize a = some d) :
    Tracked wireSize { s with daemon := d } := by
  have hbooked := h.booked.step hstep
  cases Daemon.step_spec hstep with
  | @connection i action c hc =>
    refine ⟨hbooked, h.connected.change rfl (fun hi ↦ ?_)
      (fun hi hgood ↦ hgood.step (h.connected.made i hi) hc) (fun r hr ↦ ?_)
      (fun hi _ hlate ↦ hlate.step (h.connected.made i hi) hc), ?_⟩
    · exact (Connection.grows_of_step hc).made (h.connected.made i hi)
    · rwa [Connection.replays_of_step hc]
    · intro job j requestId cached start hjob hkind hj hreceiving
      change ((s.daemon.setConnection i c).connections j).Receiving at hreceiving
      apply h.job job j requestId cached start hjob hkind hj
      by_cases hji : j = i
      · subst hji
        rw [Daemon.connections_setConnection_self] at hreceiving
        exact (Connection.receiving_of_step hc hreceiving).resolve_right (h.connected.made j hj)
      · rwa [Daemon.connections_setConnection_of_ne _ _ hji] at hreceiving
  | subscribe hphase hjob =>
    refine ⟨hbooked, ⟨h.connected.made, h.connected.good, h.connected.past⟩,
      fun job i requestId cached start hjob' hkind ↦ ?_⟩
    cases hjob'
    cases hkind
  | publish hkey hjob horder =>
    refine ⟨hbooked, ⟨h.connected.made, h.connected.good, h.connected.past⟩,
      fun job i requestId cached start hjob' hkind ↦ ?_⟩
    cases hjob'
    cases hkind
  | beginMessage hjob =>
    refine ⟨hbooked, ⟨h.connected.made, h.connected.good, h.connected.past⟩,
      fun job i requestId cached start hjob' ↦ ?_⟩
    cases hjob'
    have hold := h.job _ i requestId cached start hjob
    exact hold
  | sent hjob =>
    refine ⟨hbooked, ⟨h.connected.made, h.connected.good, h.connected.past⟩,
      fun job i requestId cached start hjob' ↦ ?_⟩
    cases hjob'
    have hold := h.job _ i requestId cached start hjob
    exact hold
  | @send kind i piece pieces todo drops disconnected hjob hroom =>
    refine ⟨hbooked, h.connected.change rfl (h.connected.made i)
      (fun _ hgood ↦ ⟨hgood.answered, hgood.acks, hgood.lossy⟩) (fun r hr ↦ hr)
      (fun _ _ hlate ↦ ⟨hlate.answered, hlate.acks, hlate.lossy⟩),
      fun job j requestId cached start hjob' hkind hj hreceiving ↦ ?_⟩
    cases hjob'
    have hold := h.job _ j requestId cached start hjob hkind hj
    have hpushed : ((s.daemon.connections i).push piece).Receiving →
      (s.daemon.connections i).Receiving := id
    exact hold (Daemon.forall_setConnection (P := fun c c' ↦ c'.Receiving → c.Receiving)
      (fun _ ↦ id) hpushed j hreceiving)
  | @giveUp kind i piece pieces todo drops drops' disconnected disconnected' hjob hroom hdrops =>
    refine ⟨hbooked, ⟨h.connected.made, h.connected.good, h.connected.past⟩,
      fun job j requestId cached start hjob' hkind hj hreceiving ↦ ?_⟩
    cases hjob'
    cases hkind
    have hi : i = j := ((h.booked.job _ hjob).replaying j start cached rfl).target i _ rfl
    have hpiece : s.daemon.resyncPiece .trySend = some j := by rw [Daemon.resyncPiece, hjob]
    exact absurd (hfits.1 j hpiece hj hreceiving) (hi ▸ hroom)
  | finishPublish hjob =>
    refine ⟨hbooked, ⟨h.connected.made, h.connected.good, h.connected.past⟩,
      fun job i _ _ _ hjob' ↦ ?_⟩
    cases hjob'
  | @finishSubscribe i start drops disconnected hjob =>
    have hbook := h.booked.job _ hjob
    have hphase := hbook.subscribing i start rfl
    obtain ⟨-, -, hacks, hanswered, hreplays⟩ := (h.booked.connections i).fresh (Or.inr hphase)
    have hreceiving : (s.daemon.connections i).Receiving := by
      rw [Connection.Receiving, hphase]
      decide
    refine ⟨hbooked, h.connected.change rfl (fun _ ↦ by rintro ⟨⟩)
      (fun _ _ ↦ ⟨fun a ha ↦ ?_, fun _ e he ↦ ?_, fun _ ↦ ⟨hanswered, fun _ ↦ hacks⟩⟩)
      (fun r hr ↦ List.mem_append_left _ hr)
      (fun hi hlossy _ ↦ ⟨hanswered, fun _ ↦ hacks, fun r hr _ ↦ ?_⟩),
      by rintro _ _ _ _ _ ⟨⟩⟩
    · rw [hanswered] at ha
      cases ha
    · rw [hacks] at he
      cases he
    · rw [hreplays, List.nil_append, List.mem_singleton] at hr
      rw [hr]
      cases drops with
      | zero =>
        have hcompletes : s.daemon.completes .finish = some i := by
          rw [Daemon.completes, hjob]
          exact if_pos rfl
        exact absurd hlossy (hfits.2 i hcompletes hi hreceiving)
      | succ n => exact Nat.succ_pos n
  | @finishResync i start drops requestId cached disconnected hjob =>
    have hcompletes : s.daemon.completes .finish = some i := by rw [Daemon.completes, hjob]
    have hnone : i ∈ s.connections → (s.daemon.connections i).Receiving → ¬s.Lossy :=
      hfits.2 i hcompletes
    -- the new replay is no initial one
    have hold : ∀ r ∈ (s.daemon.connections i).replays ++ [⟨some requestId, cached, start,
        (s.daemon.connections i).queued.length, drops⟩], r.request = none →
        r ∈ (s.daemon.connections i).replays := by
      intro r hr hrequest
      rcases List.mem_append.mp hr with hr | hr
      · exact hr
      · rw [List.mem_singleton.mp hr] at hrequest
        cases hrequest
    refine ⟨hbooked, h.connected.change rfl (h.connected.made i) (fun hi hgood ↦ ?_)
      (fun r hr ↦ List.mem_append_left _ hr) (fun hi hlossy hlate ↦ ?_),
      by rintro _ _ _ _ _ ⟨⟩⟩
    · refine ⟨hgood.answered, fun hreceiving e he ↦ ?_, fun hlossy ↦ ?_⟩
      · rcases List.mem_append.mp he with he | he
        · exact hgood.acks hreceiving e he
        · rw [List.mem_singleton.mp he]
          exact h.job _ i requestId cached start hjob rfl hi hreceiving
      · obtain ⟨r, hr, hrequest, hlost⟩ := hlossy
        have hr := hold r hr hrequest
        exact ⟨(hgood.lossy ⟨r, hr, hrequest, hlost⟩).1, fun hreceiving ↦
          absurd ⟨i, hi, r, hr, hrequest, hlost⟩ (hnone hi hreceiving)⟩
    · exact ⟨hlate.answered, fun hreceiving ↦ absurd hlossy (hnone hi hreceiving),
        fun r hr hrequest ↦ hlate.lossy r (hold r hr hrequest) hrequest⟩
  | @resync i requestId hrequest hjob =>
    refine ⟨hbooked, h.connected.change rfl (h.connected.made i)
      (fun _ hgood ↦ ⟨hgood.answered, hgood.acks, hgood.lossy⟩) (fun r hr ↦ hr)
      (fun _ _ hlate ↦ ⟨hlate.answered, hlate.acks, hlate.lossy⟩),
      fun job j requestId' cached start hjob' _ _ _ ↦ ?_⟩
    cases hjob'
    rfl
  | @unsubscribe i hphase hjob =>
    refine ⟨hbooked, h.connected.change rfl (fun _ ↦ by rintro ⟨⟩)
      (fun _ hgood ↦ ⟨hgood.answered, fun hreceiving ↦ absurd rfl hreceiving.2, fun hlossy ↦
        ⟨(hgood.lossy hlossy).1, fun hreceiving ↦ absurd rfl hreceiving.2⟩⟩) (fun r hr ↦ hr)
      (fun _ _ hlate ↦ ⟨hlate.answered, fun hreceiving ↦ absurd rfl hreceiving.2, hlate.lossy⟩),
      fun job j requestId cached start hjob' ↦ ?_⟩
    cases hjob.symm.trans hjob'

/-- A notice the client was handed came over an earlier connection, or was queued for this one. -/
theorem notice_cases (h : Tracked wireSize s) {m : ServerMessage} (hm : m ∈ s.forwarded)
    (hnotice : IsNotice m) :
    m ∈ s.past ∨ ∃ i ∈ s.connections.head?, (s.daemon.connections i).Noticed := by
  rw [forwarded] at hm
  split at hm
  · exact Or.inl hm
  · next i rest hconnections =>
    rcases List.mem_append.mp hm with hm | hm
    · exact Or.inl hm
    · have hread := Reader.mem_of_mem_forwarded hm hnotice
      have hqueued := (h.booked.connections i).passed m
        (List.mem_append_left _ (List.mem_append_left _ hread)) hnotice
      exact Or.inr ⟨i, by rw [hconnections]; rfl, m, hqueued, hnotice⟩

/-- Notices stand for losses of initial replays. -/
theorem Tracked.lossy (h : Tracked wireSize s) (hnotice : ∃ m ∈ s.forwarded, IsNotice m) :
    s.Lossy := by
  obtain ⟨m, hm, hnotice⟩ := hnotice
  rcases notice_cases h hm hnotice with hpast | ⟨i, hi, hnoticed⟩
  · exact (h.connected.past ⟨m, hpast, hnotice⟩).1
  · exact ⟨i, List.mem_of_mem_head? hi, (h.booked.connections i).told (Or.inl hnoticed)⟩

/-- A new connection has no replays yet. -/
theorem Tracked.reconnect (h : Tracked wireSize s) {i : Nat} {d : Daemon}
    (hstep : s.daemon.step wireSize (.connection i .connect) = some d) :
    Tracked wireSize ⟨d, i :: s.connections, s.forwarded⟩ := by
  have hbooked := h.booked.step hstep
  cases Daemon.step_spec hstep with
  | @connection _ _ c hc =>
    cases Connection.step_spec hc with
    | connect hphase =>
      obtain ⟨-, -, hacks, hanswered, hreplays⟩ :=
        (h.booked.connections i).fresh (Or.inl hphase)
      have hself := s.daemon.connections_setConnection_self i
        { s.daemon.connections i with phase := .joining }
      have hother : ∀ j ∈ s.connections, (s.daemon.setConnection i
          { s.daemon.connections i with phase := .joining }).connections j =
          s.daemon.connections j := by
        intro j hj
        apply Daemon.connections_setConnection_of_ne
        rintro rfl
        exact h.connected.made j hj hphase
      refine ⟨hbooked, ⟨fun j hj ↦ ?_, fun j hj ↦ ?_, fun hnotice ↦ ⟨?_, fun j hj ↦ ?_⟩⟩,
        fun job j requestId cached start hjob hkind hj hreceiving ↦ ?_⟩
      · change ((s.daemon.setConnection i _).connections j).phase ≠ .absent
        rcases List.mem_cons.mp hj with rfl | hj
        · rw [hself]
          exact nofun
        · rw [hother j hj]
          exact h.connected.made j hj
      · change Good ((s.daemon.setConnection i _).connections j)
        rcases List.mem_cons.mp hj with rfl | hj
        · rw [hself]
          refine ⟨fun a ha ↦ ?_, fun _ e he ↦ ?_, fun _ ↦ ⟨hanswered, fun _ ↦ hacks⟩⟩
          · rw [hanswered] at ha
            cases ha
          · rw [hacks] at he
            cases he
        · rw [hother j hj]
          exact h.connected.good j hj
      · obtain ⟨j, hj, r, hr, hlost⟩ := h.lossy hnotice
        refine ⟨j, List.mem_cons_of_mem _ hj, r, ?_, hlost⟩
        change r ∈ ((s.daemon.setConnection i _).connections j).replays
        rwa [hother j hj]
      · cases hj
        change Late ((s.daemon.setConnection i _).connections i)
        rw [hself]
        refine ⟨hanswered, fun _ ↦ hacks, fun r hr ↦ ?_⟩
        rw [hreplays] at hr
        cases hr
      · rcases List.mem_cons.mp hj with rfl | hj
        · have hserved := (h.booked.job job hjob).resyncing j requestId cached start hkind
          exact absurd (Or.inl hphase) hserved
        · change ((s.daemon.setConnection i _).connections j).Receiving at hreceiving
          rw [hother j hj] at hreceiving
          exact h.job job j requestId cached start hjob hkind hj hreceiving

theorem tracked_start (wireSize : ServerMessage → Nat) : Tracked wireSize start where
  booked := Daemon.booked_start wireSize
  connected := ⟨nofun, nofun, fun ⟨_, hm, _⟩ ↦ nomatch hm⟩
  job _ _ _ _ _ hjob := nomatch hjob

theorem Tracked.step (h : Tracked wireSize s) {a : SessionAction} (hfits : s.Fits a)
    (hstep : s.step wireSize a = some t) : Tracked wireSize t := by
  cases a with
  | daemon a =>
    obtain ⟨d, hd, rfl⟩ := Option.map_eq_some_iff.mp hstep
    exact h.daemon hfits hd
  | reconnect i =>
    obtain ⟨d, hd, rfl⟩ := Option.map_eq_some_iff.mp hstep
    exact h.reconnect hd

/-- The client has read up to the `Ack` of a resync, or all of an initial replay that no notice
follows. -/
def ReadUpTo (c : Connection) (r : Replay) : Prop :=
  (∃ a ∈ c.answered, a.replay = r ∧
    c.read.getLast? = some (.response a.requestId (.ok .ack))) ∨
  (r ∈ c.replays ∧ r.request = none ∧ (c.queued.take r.done).Sublist c.read ∧ ¬c.Noticed ∧
    c.pendingSyncDrops = 0)

/-- The window shows the loss of the replay the client has just read: none exactly if every cached
message was queued, and the number of lost ones otherwise. -/
def Reported (wireSize : ServerMessage → Nat) (fromStr : FromStr) (s : Session) : Prop :=
  ∀ i ∈ s.connections.head?, ∀ r, ReadUpTo (s.daemon.connections i) r →
    ((s.window fromStr).syncDrops = 0 ↔ r.Complete wireSize (s.daemon.connections i).queued) ∧
    (s.window fromStr).syncDrops = r.lost

theorem Tracked.reported (h : Tracked wireSize s) (fromStr : FromStr) :
    Reported wireSize fromStr s := by
  intro i hi r hread
  have hbooked := h.booked.connections i
  have hgood := h.connected.good i (List.mem_of_mem_head? hi)
  -- either way the client was handed no notice and the replay lost nothing
  have hquiet : r ∈ (s.daemon.connections i).replays ∧ r.lost = 0 ∧
      ∀ m ∈ s.forwarded, IsNotice m = false := by
    have hnotice : ∀ m ∈ s.forwarded, IsNotice m = true →
        Late (s.daemon.connections i) ∨ (s.daemon.connections i).Noticed := by
      intro m hm hnotice
      rcases notice_cases h hm hnotice with hpast | ⟨j, hj, hnoticed⟩
      · exact Or.inl ((h.connected.past ⟨m, hpast, hnotice⟩).2 i hi)
      · exact Or.inr (Option.mem_unique hj hi ▸ hnoticed)
    rcases hread with ⟨a, ha, rfl, -⟩ | ⟨hr, hrequest, -, hunnoticed, hpending⟩
    · refine ⟨(hbooked.answered a ha).1, hgood.answered a ha, fun m hm ↦ ?_⟩
      rw [← Bool.not_eq_true]
      intro htrue
      rcases hnotice m hm htrue with hlate | hnoticed
      · rw [hlate.answered] at ha
        cases ha
      · rw [(hgood.lossy (hbooked.told (Or.inl hnoticed))).1] at ha
        cases ha
    · have hlost : r.lost = 0 := by
        by_contra hlost
        rcases hbooked.owed r hr hrequest (Nat.pos_of_ne_zero hlost) with hnoticed | howed
        · exact hunnoticed hnoticed
        · omega
      refine ⟨hr, hlost, fun m hm ↦ ?_⟩
      rw [← Bool.not_eq_true]
      intro htrue
      rcases hnotice m hm htrue with hlate | hnoticed
      · have := hlate.lossy r hr hrequest
        omega
      · exact hunnoticed hnoticed
  obtain ⟨hr, hlost, hnone⟩ := hquiet
  have hdrops : (s.window fromStr).syncDrops = 0 := DashboardState.syncDrops_applyAll hnone
  obtain ⟨-, -, hcomplete⟩ := hbooked.replays r hr
  exact ⟨⟨fun _ ↦ hcomplete hlost, fun _ ↦ hdrops⟩, hdrops.trans hlost.symm⟩

end Session

/-- One action at a time. -/
def session (wireSize : ServerMessage → Nat) : Machine Session SessionAction where
  step s a := s.step wireSize a

/-- As long as resyncs lose nothing and no replay is completed after an initial one that lost
something, the window shows what the last replay lost. -/
theorem sync_drops_reported {actions : List SessionAction} {s : Session}
    (hfits : (session wireSize).Meets Session.Fits Session.start actions)
    (hrun : (session wireSize).run Session.start actions = some s) :
    Session.Reported wireSize fromStr s :=
  (Machine.run_induction (I := fun _ u ↦ Session.Tracked wireSize u)
    (Session.tracked_start wireSize) (fun h hfit hstep ↦ h.step hfit hstep) hfits hrun).reported
    fromStr

/-- A connected client is sent a message, asks for a resync and reads everything. -/
def wholeResync : List DaemonAction :=
  resyncOnce ++ [.trySend, .trySend, .finish, .connection 0 (.acknowledge 0),
    .connection 0 .drain, .connection 0 .drain, .connection 0 .drain, .connection 0 .deliver,
    .connection 0 .deliver, .connection 0 .deliver]

theorem sync_drops_reported_once : ∃ s, (session bulkyWireSize).run Session.start
      (.reconnect 0 :: wholeResync.map .daemon) = some s ∧
    (∃ r, Session.ReadUpTo (s.daemon.connections 0) r) ∧
    Session.Reported bulkyWireSize (fun _ ↦ none) s := by
  have hreported : ∀ s, (session bulkyWireSize).run Session.start
        (.reconnect 0 :: wholeResync.map .daemon) = some s →
      Session.Reported bulkyWireSize (fun _ ↦ none) s :=
    fun s hrun ↦ sync_drops_reported (by decide) hrun
  exact ⟨_, rfl, ⟨_, Or.inl ⟨_, List.mem_cons_self, rfl, rfl⟩⟩, hreported _ rfl⟩

/-- What the daemon does is done in the session. -/
theorem run_daemon {s : Session} {actions : List DaemonAction} {d : Daemon}
    (h : (daemon wireSize).run s.daemon actions = some d) :
    (session wireSize).run s (actions.map .daemon) = some { s with daemon := d } := by
  induction actions generalizing s with
  | nil =>
    cases h
    rfl
  | cons a actions ih =>
    obtain ⟨u, hu, hrest⟩ := Machine.run_cons.mp h
    have hstep : (session wireSize).step s (.daemon a) = some { s with daemon := u } :=
      Option.map_eq_some_iff.mpr ⟨u, hu, rfl⟩
    exact Machine.run_cons.mpr ⟨_, hstep, ih (s := { s with daemon := u }) hrest⟩

/-- The `Ack` of a resync that lost its only message is read, and the window shows no loss. -/
theorem sync_drops_not_reported : ∃ actions s,
    (session bulkyWireSize).run Session.start actions = some s ∧
    ∀ fromStr, ¬Session.Reported bulkyWireSize fromStr s := by
  obtain ⟨actions, dashboard, others, hlost⟩ := run_lostResync
  obtain ⟨u, hu, hrest⟩ := Machine.run_cons.mp hlost
  have hconnect : (session bulkyWireSize).step Session.start (.reconnect 0) = some ⟨u, [0], []⟩ :=
    congrArg (Option.map fun d ↦ (⟨d, [0], []⟩ : Session)) hu
  have hdeliver := run_oneClient dashboard others 1 2 [noEnvironments] none
    (run_deliver (c := afterLostResync [] filledQueue) rfl)
  have hread : ∃ d, (daemon bulkyWireSize).run u (actions ++
      ((List.replicate filledQueue.length .deliver).map (.connection 0) ++
        [.connection 0 (.acknowledge 0), .connection 0 .drain, .connection 0 .deliver])) =
        some d ∧
      (d.connections 0).answered = [⟨7, lostResync, filledQueue.length⟩] ∧
      (d.connections 0).read = filledQueue ++ [.response 7 (.ok .ack)] :=
    ⟨_, Machine.run_append.mpr ⟨_, hrest, Machine.run_append.mpr ⟨_, hdeliver, rfl⟩⟩, rfl, rfl⟩
  obtain ⟨d, hd, hanswered, hreadAll⟩ := hread
  refine ⟨_, _, Machine.run_cons.mpr ⟨_, hconnect, run_daemon hd⟩, fun fromStr hreported ↦ ?_⟩
  have hnone : ∀ m ∈ Session.forwarded ⟨d, [0], []⟩, IsNotice m = false := by
    intro m hm
    rw [← Bool.not_eq_true]
    intro hnotice
    have hmem := Reader.mem_of_mem_forwarded hm hnotice
    rw [hreadAll, List.mem_append, filledQueue, List.mem_cons, List.mem_replicate,
      List.mem_singleton] at hmem
    rcases hmem with (rfl | ⟨-, rfl⟩) | rfl <;> cases hnotice
  have hdrops : (Session.window ⟨d, [0], []⟩ fromStr).syncDrops = 0 :=
    DashboardState.syncDrops_applyAll hnone
  have hloss := (hreported 0 rfl lostResync (Or.inl ⟨⟨7, lostResync, filledQueue.length⟩,
    by rw [hanswered]; exact List.mem_cons_self, rfl,
    by rw [hreadAll]; exact List.getLast?_concat⟩)).2
  rw [hdrops] at hloss
  cases hloss

end Daku.Desktop
