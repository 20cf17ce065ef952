import Daku.Wire.Delivery

/-!
# What replays and notices leave behind

A replay that lost nothing has put every cached message into the queue, an acknowledgement stands
behind the replay it answers, and there is a notice, queued or still owed, exactly when an initial
replay lost something. These hold in every run, whatever else is queued in between.
-/

namespace Daku.Wire

open Daku.Base

/-- A notice that a replay lost messages. -/
def IsNotice : ServerMessage → Bool
  | .dashboardSyncNeeded _ => true
  | _ => false

theorem isNotice_of_isPiece {m : ServerMessage} (h : IsPiece m) : IsNotice m = false := by
  cases m <;> first | rfl | cases h

theorem isNotice_of_isSome_key {m : ServerMessage} (h : m.dashboardCacheKey.isSome) :
    IsNotice m = false := by
  cases m <;> first | rfl | cases h

namespace Reader

/-- A notice a reader hands on is the one it has received. -/
theorem eq_of_mem_handedOn {r : Reader} {m n : ServerMessage}
    (h : m ∈ (r.receive n).1.handedOn) (hm : IsNotice m) : m = n := by
  have hchunk : IsPiece n → n.dashboardCacheKey = none → m = n := by
    intro hpiece hnone
    rw [receive_chunk hpiece hnone] at h
    cases hwhole : (r.transfers.ingest n).1 with
    | none =>
      rw [hwhole] at h
      cases h
    | some whole =>
      rw [hwhole] at h
      have hkey := Transfers.isSome_key hwhole
      rw [← List.mem_singleton.mp h] at hkey
      rw [isNotice_of_isSome_key hkey] at hm
      cases hm
  cases n with
  | signalSamplesChunk => exact hchunk rfl rfl
  | signalRollupsChunk => exact hchunk rfl rfl
  | signalSnapshotsChunk => exact hchunk rfl rfl
  | hello => cases h
  | rejected => cases h
  | response => cases h
  | shuttingDown => cases h
  | _ => exact List.mem_singleton.mp h

theorem mem_of_mem_forwarded {r : Reader} {m : ServerMessage} {ms : List ServerMessage}
    (h : m ∈ r.forwarded ms) (hm : IsNotice m) : m ∈ ms := by
  induction ms generalizing r with
  | nil => cases h
  | cons n ms ih =>
    by_cases hn : n = .shuttingDown
    · rw [hn] at h
      cases h
    · rw [forwarded_cons hn] at h
      rcases List.mem_append.mp h with h | h
      · exact eq_of_mem_handedOn h hm ▸ List.mem_cons_self
      · exact List.mem_cons_of_mem _ (ih h)

end Reader

/-- All pieces of a message lie, in order, in a stretch of the queue. -/
def Crossed (wireSize : ServerMessage → Nat) (stretch : List ServerMessage) (m : ServerMessage) :
    Prop :=
  ∃ transferId, (splitForWire wireSize m transferId).Sublist stretch

/-- Every cached message was queued while the replay went on. -/
def Replay.Complete (wireSize : ServerMessage → Nat) (queued : List ServerMessage) (r : Replay) :
    Prop :=
  ∀ m ∈ r.cached, Crossed wireSize ((queued.take r.done).drop r.start) m

namespace Connection

/-- A notice was queued. -/
def Noticed (c : Connection) : Prop := ∃ m ∈ c.queued, IsNotice m

/-- A connection that has not been served yet. -/
def Fresh (c : Connection) : Prop :=
  c.pendingSyncDrops = 0 ∧ c.resyncs = [] ∧ c.acks = [] ∧ c.answered = [] ∧ c.replays = []

/-- The books of a connection: its replays, its acknowledgements and its notices. -/
structure Booked (wireSize : ServerMessage → Nat) (c : Connection) : Prop where
  fresh : c.phase = .absent ∨ c.phase = .joining → c.Fresh
  replays : ∀ r ∈ c.replays, r.start ≤ r.done ∧ r.done ≤ c.queued.length ∧
    (r.lost = 0 → r.Complete wireSize c.queued)
  acks : ∀ e ∈ c.acks, e.2 ∈ c.replays ∧ e.2.request = some e.1
  answered : ∀ a ∈ c.answered, a.replay ∈ c.replays ∧ a.replay.request = some a.requestId ∧
    a.replay.done ≤ a.position ∧ c.queued[a.position]? = some (.response a.requestId (.ok .ack))
  passed : ∀ m ∈ c.read ++ c.wire ++ c.queue, IsNotice m → m ∈ c.queued
  told : c.Noticed ∨ 0 < c.pendingSyncDrops → ∃ r ∈ c.replays, r.request = none ∧ 0 < r.lost
  owed : ∀ r ∈ c.replays, r.request = none → 0 < r.lost → c.Noticed ∨ 0 < c.pendingSyncDrops

variable {wireSize : ServerMessage → Nat} {c c' : Connection} {m : ServerMessage}
  {a : ConnectionAction}

/-- More in the queue changes nothing about the replays that are done. -/
theorem Booked.replays_push (h : c.Booked wireSize) (m : ServerMessage) :
    ∀ r ∈ c.replays, r.start ≤ r.done ∧ r.done ≤ (c.push m).queued.length ∧
      (r.lost = 0 → r.Complete wireSize (c.push m).queued) := by
  intro r hr
  obtain ⟨hstart, hdone, hcomplete⟩ := h.replays r hr
  refine ⟨hstart, ?_, fun hlost ↦ ?_⟩
  · rw [Connection.push, List.length_append]
    omega
  · rw [Replay.Complete, Connection.push, List.take_append_of_le_length hdone]
    exact hcomplete hlost

/-- More in the queue moves no acknowledgement. -/
theorem Booked.answered_push (h : c.Booked wireSize) (m : ServerMessage) :
    ∀ a ∈ c.answered, a.replay ∈ c.replays ∧ a.replay.request = some a.requestId ∧
      a.replay.done ≤ a.position ∧
      (c.push m).queued[a.position]? = some (.response a.requestId (.ok .ack)) := by
  intro a ha
  obtain ⟨hreplay, hrequest, hdone, hposition⟩ := h.answered a ha
  refine ⟨hreplay, hrequest, hdone, ?_⟩
  rw [Connection.push, List.getElem?_append_left (List.getElem?_eq_some_iff.mp hposition).1]
  exact hposition

theorem Booked.passed_push (h : c.Booked wireSize) (m : ServerMessage) :
    ∀ n ∈ (c.push m).read ++ (c.push m).wire ++ (c.push m).queue, IsNotice n →
      n ∈ (c.push m).queued := by
  intro n hn hnotice
  rw [Connection.push, ← List.append_assoc, List.mem_append] at hn
  rcases hn with hn | hn
  · exact List.mem_append_left _ (h.passed n hn hnotice)
  · exact List.mem_append_right _ hn

/-- A queue has a notice more only if one is queued. -/
theorem noticed_push (hm : IsNotice m = false) : (c.push m).Noticed ↔ c.Noticed := by
  constructor
  · rintro ⟨n, hn, hnotice⟩
    rcases List.mem_append.mp hn with hn | hn
    · exact ⟨n, hn, hnotice⟩
    · rw [List.mem_singleton.mp hn, hm] at hnotice
      cases hnotice
  · rintro ⟨n, hn, hnotice⟩
    exact ⟨n, List.mem_append_left _ hn, hnotice⟩

/-- A message that is no notice leaves the books as they are. -/
theorem Booked.push (h : c.Booked wireSize) (hm : IsNotice m = false) :
    (c.push m).Booked wireSize :=
  ⟨h.fresh, h.replays_push m, h.acks, h.answered_push m, h.passed_push m,
    fun htold ↦ h.told (htold.imp_left (noticed_push hm).mp),
    fun r hr hrequest hlost ↦ (h.owed r hr hrequest hlost).imp_left (noticed_push hm).mpr⟩

/-- What a connection does by itself keeps its books. -/
theorem Booked.step (h : c.Booked wireSize) (hstep : c.step a = some c') :
    c'.Booked wireSize := by
  have hserved : c.phase = .serving → ¬(c.phase = .absent ∨ c.phase = .joining) := by
    intro hphase
    rw [hphase]
    decide
  have hwrite : ∀ m, IsNotice m = false → ∀ n ∈ c.read ++ (c.wire ++ [m]) ++ c.queue,
      IsNotice n → n ∈ c.queued := by
    intro m hm n hn hnotice
    have hne : n ≠ m := fun heq ↦ by
      rw [heq, hm] at hnotice
      cases hnotice
    apply h.passed n _ hnotice
    simpa [hne] using hn
  cases step_spec hstep with
  | connect hphase =>
    exact ⟨fun _ ↦ h.fresh (Or.inl hphase), h.replays, h.acks, h.answered, h.passed, h.told,
      h.owed⟩
  | drain hphase hqueue =>
    refine ⟨h.fresh, h.replays, h.acks, h.answered, fun m hm hnotice ↦ ?_, h.told, h.owed⟩
    apply h.passed m _ hnotice
    simpa [hqueue, or_assoc] using hm
  | notify hphase hpending hroom =>
    refine ⟨fun hp ↦ absurd hp (hserved hphase), h.replays_push _, h.acks, h.answered_push _,
      h.passed_push _, fun _ ↦ h.told (Or.inr hpending), fun _ _ _ _ ↦ Or.inl ?_⟩
    exact ⟨_, List.mem_append_right _ List.mem_cons_self, rfl⟩
  | requestSync hphase =>
    exact ⟨fun hp ↦ absurd hp (hserved hphase), h.replays, h.acks, h.answered, h.passed, h.told,
      h.owed⟩
  | acknowledge hack hroom =>
    next index requestId replay =>
    have hmem := List.mem_of_getElem? hack
    obtain ⟨hreplay, hrequest⟩ := h.acks _ hmem
    have hpush := h.push (m := .response requestId (.ok .ack)) rfl
    refine ⟨fun hp ↦ ?_, hpush.replays, fun e he ↦ ?_, fun a ha ↦ ?_, hpush.passed, hpush.told,
      hpush.owed⟩
    · rw [(h.fresh hp).2.2.1] at hmem
      cases hmem
    · exact h.acks e (List.mem_of_mem_eraseIdx he)
    · rcases List.mem_append.mp ha with ha | ha
      · exact hpush.answered a ha
      · rw [List.mem_singleton.mp ha]
        exact ⟨hreplay, hrequest, (h.replays _ hreplay).2.1, List.getElem?_concat_length⟩
  | respond hphase hroom => exact h.push rfl
  | refuse hphase =>
    exact ⟨h.fresh, h.replays, h.acks, h.answered, hwrite _ rfl, h.told, h.owed⟩
  | shutDown hphase =>
    exact ⟨fun hp ↦ hp.elim nofun nofun, h.replays, h.acks, h.answered, hwrite _ rfl, h.told,
      h.owed⟩
  | leave hphase =>
    exact ⟨fun hp ↦ hp.elim nofun nofun, h.replays, h.acks, h.answered, h.passed, h.told,
      h.owed⟩
  | fail hphase =>
    exact ⟨fun hp ↦ hp.elim nofun nofun, h.replays, h.acks, h.answered, h.passed, h.told,
      h.owed⟩
  | deliver hwire =>
    refine ⟨h.fresh, h.replays, h.acks, h.answered, fun m hm hnotice ↦ ?_, h.told, h.owed⟩
    apply h.passed m _ hnotice
    simpa [hwire, or_assoc] using hm

/-- What every step leaves of a connection: it is queued more, and is served only once. -/
structure Grows (c c' : Connection) : Prop where
  queued : c.queued <+: c'.queued
  joining : c.phase = .joining → c'.phase = .joining
  served : ¬(c.phase = .absent ∨ c.phase = .joining) →
    ¬(c'.phase = .absent ∨ c'.phase = .joining)

theorem Grows.refl (c : Connection) : c.Grows c := ⟨List.prefix_refl _, id, id⟩

/-- A connection that was made stays made. -/
theorem Grows.made (h : c.Grows c') (hmade : c.phase ≠ .absent) : c'.phase ≠ .absent := by
  by_cases hjoining : c.phase = .joining
  · rw [h.joining hjoining]
    decide
  · exact fun habsent ↦ h.served (fun hfresh ↦ hfresh.elim hmade hjoining) (Or.inl habsent)

theorem grows_push (c : Connection) (m : ServerMessage) : c.Grows (c.push m) :=
  ⟨List.prefix_append _ _, id, id⟩

theorem grows_of_step (hstep : c.step a = some c') : c.Grows c' := by
  have hserving : c.phase = .serving →
      ∀ p : ConnectionPhase, c.phase = .joining → p = .joining := by
    intro hphase p hjoining
    rw [hphase] at hjoining
    cases hjoining
  cases step_spec hstep with
  | connect hphase =>
    refine ⟨List.prefix_refl _, fun _ ↦ rfl, fun h ↦ absurd (Or.inl hphase) h⟩
  | drain => exact ⟨List.prefix_refl _, id, id⟩
  | notify => exact ⟨List.prefix_append _ _, id, id⟩
  | requestSync => exact ⟨List.prefix_refl _, id, id⟩
  | acknowledge => exact ⟨List.prefix_append _ _, id, id⟩
  | respond => exact grows_push c _
  | refuse => exact ⟨List.prefix_refl _, id, id⟩
  | shutDown hphase => exact ⟨List.prefix_refl _, hserving hphase _, fun _ h ↦ h.elim nofun nofun⟩
  | leave hphase => exact ⟨List.prefix_refl _, hserving hphase _, fun _ h ↦ h.elim nofun nofun⟩
  | fail hphase => exact ⟨List.prefix_refl _, hserving hphase _, fun _ h ↦ h.elim nofun nofun⟩
  | deliver => exact ⟨List.prefix_refl _, id, id⟩

/-- Replays are the hub's. -/
theorem replays_of_step (hstep : c.step a = some c') : c'.replays = c.replays := by
  cases step_spec hstep <;> rfl

end Connection

/-- The connection a job replays to, where the replay began, and what it replays. -/
def JobKind.target (dashboard : DashboardCache) : JobKind → Option (Nat × Nat × List ServerMessage)
  | .publish => none
  | .subscribe connection start => some (connection, start, dashboard.messages)
  | .resync connection _ cached start => some (connection, start, cached)

theorem Crossed.mono {wireSize : ServerMessage → Nat} {stretch longer : List ServerMessage}
    {m : ServerMessage} (h : Crossed wireSize stretch m) (hlonger : stretch.Sublist longer) :
    Crossed wireSize longer m := by
  obtain ⟨transferId, hsub⟩ := h
  exact ⟨transferId, hsub.trans hlonger⟩

/-- How far a replay has got; once it lost something nothing more is said of it. -/
structure Job.Replaying (wireSize : ServerMessage → Nat) (queued : List ServerMessage)
    (connection start : Nat) (cached : List ServerMessage) (job : Job) : Prop where
  start_le : start ≤ queued.length
  todo : ∀ e ∈ job.todo, e.1 = connection
  target : ∀ d pieces, job.sending = some (d, pieces) → d = connection
  waiting : job.drops = 0 → job.sending = none → ∃ before,
    cached = before ++ job.todo.map Prod.snd ∧
    ∀ m ∈ before, Crossed wireSize (queued.drop start) m
  sending : job.drops = 0 → ∀ d pieces, job.sending = some (d, pieces) →
    ∃ before m transferId sent, cached = before ++ m :: job.todo.map Prod.snd ∧
      (∀ m ∈ before, Crossed wireSize (queued.drop start) m) ∧
      splitForWire wireSize m transferId = sent ++ pieces ∧ sent.Sublist (queued.drop start)

namespace Job.Replaying

variable {wireSize : ServerMessage → Nat} {queued queued' cached : List ServerMessage}
  {connection start : Nat} {job : Job}

/-- The queue may be given more. -/
theorem grow (h : job.Replaying wireSize queued connection start cached)
    (hgrows : queued <+: queued') : job.Replaying wireSize queued' connection start cached := by
  have hsub : (queued.drop start).Sublist (queued'.drop start) := hgrows.sublist.drop start
  refine ⟨h.start_le.trans hgrows.length_le, h.todo, h.target, fun hdrops hsending ↦ ?_,
    fun hdrops d pieces hsending ↦ ?_⟩
  · obtain ⟨before, hcached, hcrossed⟩ := h.waiting hdrops hsending
    exact ⟨before, hcached, fun m hm ↦ (hcrossed m hm).mono hsub⟩
  · obtain ⟨before, m, transferId, sent, hcached, hcrossed, hsplit, hsent⟩ :=
      h.sending hdrops d pieces hsending
    exact ⟨before, m, transferId, sent, hcached, fun m hm ↦ (hcrossed m hm).mono hsub, hsplit,
      hsent.trans hsub⟩

/-- A replay begins with everything still to be sent. -/
theorem begin (wireSize : ServerMessage → Nat) (queued : List ServerMessage) (connection : Nat)
    (cached : List ServerMessage) (kind : JobKind) :
    Job.Replaying wireSize queued connection queued.length cached
      ⟨kind, cached.map fun m ↦ (connection, m), none, 0, []⟩ where
  start_le := Nat.le_refl _
  todo e he := by
    obtain ⟨m, -, rfl⟩ := List.mem_map.mp he
    rfl
  target := nofun
  waiting _ _ := ⟨[], by simp [Function.comp_def], nofun⟩
  sending _ := nofun

variable {kind : JobKind} {m piece : ServerMessage} {pieces : List ServerMessage}
  {todo : List (Nat × ServerMessage)} {drops drops' d : Nat} {disconnected disconnected' : List Nat}

theorem beginMessage
    (h : Job.Replaying wireSize queued connection start cached
      ⟨kind, (d, m) :: todo, none, drops, disconnected⟩) (transferId : Nat) :
    Job.Replaying wireSize queued connection start cached
      ⟨kind, todo, some (d, splitForWire wireSize m transferId), drops, disconnected⟩ where
  start_le := h.start_le
  todo e he := h.todo e (List.mem_cons_of_mem _ he)
  target d' pieces hsending := by
    cases hsending
    exact h.todo (d, m) List.mem_cons_self
  waiting _ := nofun
  sending hdrops d' pieces hsending := by
    obtain ⟨before, hcached, hcrossed⟩ := h.waiting hdrops rfl
    cases hsending
    exact ⟨before, m, transferId, [], hcached, hcrossed, rfl, List.nil_sublist _⟩

/-- A message all of whose pieces are queued has crossed. -/
theorem sent
    (h : Job.Replaying wireSize queued connection start cached
      ⟨kind, todo, some (d, []), drops, disconnected⟩) :
    Job.Replaying wireSize queued connection start cached
      ⟨kind, todo, none, drops, disconnected⟩ where
  start_le := h.start_le
  todo := h.todo
  target := nofun
  waiting hdrops _ := by
    obtain ⟨before, m, transferId, sent, hcached, hcrossed, hsplit, hsent⟩ :=
      h.sending hdrops d [] rfl
    refine ⟨before ++ [m], ?_, fun m' hm' ↦ ?_⟩
    · rw [List.append_assoc]
      exact hcached
    · rcases List.mem_append.mp hm' with hm' | hm'
      · exact hcrossed m' hm'
      · rw [List.mem_singleton.mp hm']
        exact ⟨transferId, by rwa [hsplit, List.append_nil]⟩
  sending _ := nofun

theorem send
    (h : Job.Replaying wireSize queued connection start cached
      ⟨kind, todo, some (d, piece :: pieces), drops, disconnected⟩) :
    Job.Replaying wireSize (queued ++ [piece]) connection start cached
      ⟨kind, todo, some (d, pieces), drops, disconnected⟩ where
  start_le := by
    rw [List.length_append]
    exact h.start_le.trans (Nat.le_add_right _ _)
  todo := h.todo
  target d' pieces' hsending := by
    cases hsending
    exact h.target d _ rfl
  waiting _ := nofun
  sending hdrops d' pieces' hsending := by
    cases hsending
    obtain ⟨before, m, transferId, sent, hcached, hcrossed, hsplit, hsent⟩ :=
      h.sending hdrops d _ rfl
    have hdrop : (queued ++ [piece]).drop start = queued.drop start ++ [piece] :=
      List.drop_append_of_le_length h.start_le
    refine ⟨before, m, transferId, sent ++ [piece], hcached, fun m' hm' ↦ ?_, ?_, ?_⟩
    · rw [hdrop]
      exact (hcrossed m' hm').mono (List.sublist_append_left _ _)
    · rw [hsplit, List.append_assoc]
      rfl
    · rw [hdrop]
      exact hsent.append (List.Sublist.refl _)

theorem giveUp
    (h : Job.Replaying wireSize queued connection start cached
      ⟨kind, todo, some (d, piece :: pieces), drops, disconnected⟩) (hdrops' : drops' ≠ 0) :
    Job.Replaying wireSize queued connection start cached
      ⟨kind, todo, none, drops', disconnected'⟩ where
  start_le := h.start_le
  todo := h.todo
  target := nofun
  waiting hdrops := absurd hdrops hdrops'
  sending hdrops := absurd hdrops hdrops'

/-- A replay that is done and lost nothing is complete. -/
theorem complete {request : Option Uuid}
    (h : Job.Replaying wireSize queued connection start cached
      ⟨kind, [], none, drops, disconnected⟩) (hdrops : drops = 0) :
    Replay.Complete wireSize queued ⟨request, cached, start, queued.length, drops⟩ := by
  obtain ⟨before, hcached, hcrossed⟩ := h.waiting hdrops rfl
  intro m hm
  rw [List.take_length]
  apply hcrossed
  rwa [hcached, List.map_nil, List.append_nil] at hm

end Job.Replaying

namespace Connection.Booked

variable {wireSize : ServerMessage → Nat} {c : Connection} {cached : List ServerMessage}
  {connection start drops : Nat} {kind : JobKind} {disconnected : List Nat}

/-- The initial replay is the first of its connection, and owes a notice for what it lost. -/
theorem subscribed (h : c.Booked wireSize) (hfresh : c.Fresh)
    (hreplaying : Job.Replaying wireSize c.queued connection start cached
      ⟨kind, [], none, drops, disconnected⟩) (subscriberId : Nat) :
    Connection.Booked wireSize { c with
      phase := .serving, subscriberId, pendingSyncDrops := drops
      replays := c.replays ++ [⟨none, cached, start, c.queued.length, drops⟩] } := by
  obtain ⟨-, -, hacks, hanswered, hreplays⟩ := hfresh
  refine ⟨fun hp ↦ (by rcases hp with hp | hp <;> cases hp), fun r hr ↦ ?_, fun e he ↦ ?_,
    fun a ha ↦ ?_, h.passed, fun htold ↦ ?_, fun r hr hrequest hlost ↦ ?_⟩
  · rw [hreplays, List.nil_append, List.mem_singleton] at hr
    rw [hr]
    exact ⟨hreplaying.start_le, Nat.le_refl _, hreplaying.complete⟩
  · rw [hacks] at he
    cases he
  · rw [hanswered] at ha
    cases ha
  · rcases htold with hnoticed | hdrops
    · obtain ⟨r, hr, hlost⟩ := h.told (Or.inl hnoticed)
      exact ⟨r, List.mem_append_left _ hr, hlost⟩
    · exact ⟨_, List.mem_append_right _ List.mem_cons_self, rfl, hdrops⟩
  · rw [hreplays, List.nil_append, List.mem_singleton] at hr
    rw [hr] at hlost
    exact Or.inr hlost

/-- A replay that answers a request leaves an acknowledgement to be queued. -/
theorem resynced (h : c.Booked wireSize) (hserved : ¬(c.phase = .absent ∨ c.phase = .joining))
    (hreplaying : Job.Replaying wireSize c.queued connection start cached
      ⟨kind, [], none, drops, disconnected⟩) (requestId : Uuid) :
    Connection.Booked wireSize { c with
      acks := c.acks ++
        [(requestId, ⟨some requestId, cached, start, c.queued.length, drops⟩)]
      replays := c.replays ++
        [⟨some requestId, cached, start, c.queued.length, drops⟩] } := by
  refine ⟨fun hp ↦ absurd hp hserved, fun r hr ↦ ?_, fun e he ↦ ?_, fun a ha ↦ ?_, h.passed,
    fun htold ↦ ?_, fun r hr hrequest hlost ↦ ?_⟩
  · rcases List.mem_append.mp hr with hr | hr
    · exact h.replays r hr
    · rw [List.mem_singleton.mp hr]
      exact ⟨hreplaying.start_le, Nat.le_refl _, hreplaying.complete⟩
  · rcases List.mem_append.mp he with he | he
    · obtain ⟨hreplay, hrequest⟩ := h.acks e he
      exact ⟨List.mem_append_left _ hreplay, hrequest⟩
    · rw [List.mem_singleton.mp he]
      exact ⟨List.mem_append_right _ List.mem_cons_self, rfl⟩
  · obtain ⟨hreplay, hrest⟩ := h.answered a ha
    exact ⟨List.mem_append_left _ hreplay, hrest⟩
  · obtain ⟨r, hr, hlost⟩ := h.told htold
    exact ⟨r, List.mem_append_left _ hr, hlost⟩
  · rcases List.mem_append.mp hr with hr | hr
    · exact h.owed r hr hrequest hlost
    · rw [List.mem_singleton.mp hr] at hrequest
      cases hrequest

/-- A request is read off a connection that is served. -/
theorem served_of_mem_resyncs (h : c.Booked wireSize) {requestId : Uuid}
    (hrequest : requestId ∈ c.resyncs) : ¬(c.phase = .absent ∨ c.phase = .joining) := by
  intro hfresh
  rw [(h.fresh hfresh).2.1] at hrequest
  cases hrequest

end Connection.Booked

namespace Daemon

variable {wireSize : ServerMessage → Nat} {s t : Daemon} {job : Job} {a : DaemonAction}

/-- A job agrees with the connection it replays to. -/
structure JobBooked (wireSize : ServerMessage → Nat) (s : Daemon) (job : Job) : Prop where
  todo : ∀ e ∈ job.todo, e.2.dashboardCacheKey.isSome
  sending : ∀ i pieces, job.sending = some (i, pieces) → ∀ piece ∈ pieces, IsPiece piece
  subscribing : ∀ i start, job.kind = .subscribe i start → (s.connections i).phase = .joining
  resyncing : ∀ i requestId cached start, job.kind = .resync i requestId cached start →
    ¬((s.connections i).phase = .absent ∨ (s.connections i).phase = .joining)
  replaying : ∀ i start cached, job.kind.target s.dashboard = some (i, start, cached) →
    job.Replaying wireSize (s.connections i).queued i start cached

/-- The books of the daemon. -/
structure Booked (wireSize : ServerMessage → Nat) (s : Daemon) : Prop where
  keyed : s.dashboard.Keyed
  connections : ∀ i, (s.connections i).Booked wireSize
  job : ∀ job, s.job = some job → JobBooked wireSize s job

/-- A job goes on while connections grow. -/
theorem JobBooked.grow (h : JobBooked wireSize s job) (hdashboard : t.dashboard = s.dashboard)
    (hgrows : ∀ i, (s.connections i).Grows (t.connections i)) : JobBooked wireSize t job where
  todo := h.todo
  sending := h.sending
  subscribing i start hkind := (hgrows i).joining (h.subscribing i start hkind)
  resyncing i requestId cached start hkind :=
    (hgrows i).served (h.resyncing i requestId cached start hkind)
  replaying i start cached htarget := by
    rw [hdashboard] at htarget
    exact (h.replaying i start cached htarget).grow (hgrows i).queued

/-- Replacing one connection by another that is booked keeps all of them booked. -/
theorem Booked.setConnection (h : Booked wireSize s) (i : Nat) {c : Connection}
    (hc : c.Booked wireSize) (other : Nat) :
    ((s.setConnection i c).connections other).Booked wireSize :=
  forall_setConnection (P := fun c c' ↦ c.Booked wireSize → c'.Booked wireSize) (fun _ ↦ id)
    (fun _ ↦ hc) other (h.connections other)

theorem isSome_key_of_mem_messages (h : s.dashboard.Keyed) {m : ServerMessage}
    (hm : m ∈ s.dashboard.messages) : m.dashboardCacheKey.isSome := by
  obtain ⟨key, hkey⟩ := DashboardCache.mem_messages.mp hm
  rw [h key m hkey]
  rfl

/-- A job that replays the dashboard begins booked. -/
theorem jobBooked_begin (h : s.dashboard.Keyed) {kind : JobKind} {i : Nat}
    (htarget : kind.target s.dashboard =
      some (i, (s.connections i).queued.length, s.dashboard.messages))
    (hsubscribing : ∀ i start, kind = .subscribe i start → (s.connections i).phase = .joining)
    (hresyncing : ∀ i requestId cached start, kind = .resync i requestId cached start →
      ¬((s.connections i).phase = .absent ∨ (s.connections i).phase = .joining)) :
    JobBooked wireSize s ⟨kind, s.dashboard.messages.map fun m ↦ (i, m), none, 0, []⟩ where
  todo e he := by
    obtain ⟨m, hm, rfl⟩ := List.mem_map.mp he
    exact isSome_key_of_mem_messages h hm
  sending := nofun
  subscribing := hsubscribing
  resyncing := hresyncing
  replaying _ _ _ htarget' := by
    cases htarget.symm.trans htarget'
    exact .begin wireSize _ _ _ _

theorem booked_start (wireSize : ServerMessage → Nat) : Booked wireSize start where
  keyed := DashboardCache.keyed_empty
  connections _ :=
    ⟨fun _ ↦ ⟨rfl, rfl, rfl, rfl, rfl⟩, nofun, nofun, nofun, nofun,
      fun h ↦ h.elim (fun ⟨_, hm, _⟩ ↦ nomatch hm) nofun, nofun⟩
  job _ hjob := nomatch hjob

/-- Every step keeps the books. -/
theorem Booked.step (h : Booked wireSize s) (hstep : s.step wireSize a = some t) :
    Booked wireSize t := by
  cases step_spec hstep with
  | @connection i action c hc =>
    exact ⟨h.keyed, h.setConnection i ((h.connections i).step hc), fun job hjob ↦
      (h.job job hjob).grow rfl (forall_setConnection .refl (Connection.grows_of_step hc))⟩
  | @subscribe i hphase hjob =>
    refine ⟨h.keyed, h.connections, fun job hjob' ↦ ?_⟩
    cases hjob'
    apply jobBooked_begin
    · exact h.keyed
    · rfl
    · intro _ _ hkind
      cases hkind
      exact hphase
    · intro _ _ _ _ hkind
      cases hkind
  | @publish m order hkey hjob horder =>
    refine ⟨h.keyed.remember m, h.connections, fun job hjob' ↦ ?_⟩
    cases hjob'
    refine ⟨fun e he ↦ ?_, fun _ _ hsending ↦ ?_, fun _ _ hkind ↦ ?_, fun _ _ _ _ hkind ↦ ?_,
      fun _ _ _ htarget ↦ ?_⟩
    · obtain ⟨subscriber, -, rfl⟩ := List.mem_map.mp he
      exact hkey
    · cases hsending
    · cases hkind
    · cases hkind
    · cases htarget
  | beginMessage hjob =>
    have hold := h.job _ hjob
    refine ⟨h.keyed, h.connections, fun job hjob' ↦ ?_⟩
    cases hjob'
    refine ⟨fun e he ↦ hold.todo e (List.mem_cons_of_mem _ he), fun i pieces hsending ↦ ?_,
      hold.subscribing, hold.resyncing, fun i start cached htarget ↦ ?_⟩
    · cases hsending
      intro piece hpiece
      exact isPiece_of_mem_splitForWire (hold.todo _ List.mem_cons_self) hpiece
    · exact (hold.replaying i start cached htarget).beginMessage _
  | sent hjob =>
    have hold := h.job _ hjob
    refine ⟨h.keyed, h.connections, fun job hjob' ↦ ?_⟩
    cases hjob'
    refine ⟨hold.todo, fun _ _ hsending ↦ ?_, hold.subscribing, hold.resyncing,
      fun i start cached htarget ↦ (hold.replaying i start cached htarget).sent⟩
    cases hsending
  | @send kind d piece pieces todo drops disconnected hjob hroom =>
    have hold := h.job _ hjob
    have hpiece := hold.sending d _ rfl piece List.mem_cons_self
    have hgrows : ∀ i, (s.connections i).Grows
        ((s.setConnection d ((s.connections d).push piece)).connections i) :=
      forall_setConnection .refl (Connection.grows_push _ piece)
    refine ⟨h.keyed, h.setConnection d ((h.connections d).push (isNotice_of_isPiece hpiece)),
      fun job hjob' ↦ ?_⟩
    cases hjob'
    have hgrown := hold.grow (t := s.setConnection d ((s.connections d).push piece)) rfl hgrows
    refine ⟨hold.todo, fun i rest hsending p hp ↦ ?_, hgrown.subscribing, hgrown.resyncing,
      fun i start cached htarget ↦ ?_⟩
    · cases hsending
      exact hold.sending d _ rfl p (List.mem_cons_of_mem _ hp)
    · have hreplaying := hold.replaying i start cached htarget
      obtain rfl : d = i := hreplaying.target d _ rfl
      change Job.Replaying wireSize ((s.setConnection d _).connections d).queued _ _ _ _
      rw [connections_setConnection_self]
      exact hreplaying.send
  | @giveUp kind d piece pieces todo drops drops' disconnected disconnected' hjob hroom hdrops =>
    have hold := h.job _ hjob
    refine ⟨h.keyed, h.connections, fun job hjob' ↦ ?_⟩
    cases hjob'
    refine ⟨hold.todo, fun _ _ hsending ↦ ?_, hold.subscribing, hold.resyncing,
      fun i start cached htarget ↦ ?_⟩
    · cases hsending
    · rcases hdrops with rfl | hdrops
      · cases htarget
      · apply (hold.replaying i start cached htarget).giveUp
        rw [hdrops, satAddU64, u64Max]
        omega
  | finishPublish hjob =>
    refine ⟨h.keyed, h.connections, fun job hjob' ↦ ?_⟩
    cases hjob'
  | @finishSubscribe i start drops disconnected hjob =>
    have hold := h.job _ hjob
    have hfresh := (h.connections i).fresh (Or.inr (hold.subscribing i start rfl))
    refine ⟨h.keyed, h.setConnection i ?_, fun job hjob' ↦ by cases hjob'⟩
    exact (h.connections i).subscribed hfresh (hold.replaying i start _ rfl) _
  | @finishResync i start drops requestId cached disconnected hjob =>
    have hold := h.job _ hjob
    have hserved := hold.resyncing i requestId cached start rfl
    refine ⟨h.keyed, h.setConnection i ?_, fun job hjob' ↦ by cases hjob'⟩
    exact (h.connections i).resynced hserved (hold.replaying i start _ rfl) requestId
  | @resync i requestId hrequest hjob =>
    have hbooked := h.connections i
    have hserved := hbooked.served_of_mem_resyncs hrequest
    refine ⟨h.keyed, h.setConnection i ⟨fun hp ↦ absurd hp hserved, hbooked.replays, hbooked.acks,
      hbooked.answered, hbooked.passed, hbooked.told, hbooked.owed⟩, fun job hjob' ↦ ?_⟩
    cases hjob'
    apply jobBooked_begin
    · exact h.keyed
    · change _ = some (i, ((s.setConnection i _).connections i).queued.length, _)
      rw [connections_setConnection_self]
      rfl
    · intro _ _ hkind
      cases hkind
    · intro _ _ _ _ hkind
      cases hkind
      change ¬(((s.setConnection i _).connections i).phase = .absent ∨
        ((s.setConnection i _).connections i).phase = .joining)
      rw [connections_setConnection_self]
      exact hserved
  | @unsubscribe i hphase hjob =>
    have hbooked := h.connections i
    refine ⟨h.keyed, h.setConnection i ⟨fun hp ↦ (by rcases hp with hp | hp <;> cases hp),
      hbooked.replays, hbooked.acks, hbooked.answered, hbooked.passed, hbooked.told, hbooked.owed⟩,
      fun job hjob' ↦ ?_⟩
    cases hjob.symm.trans hjob'

end Daemon

end Daku.Wire
