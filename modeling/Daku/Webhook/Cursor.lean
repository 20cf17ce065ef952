import Daku.Webhook.Daemon

/-!
# What the relay's cursor promises

The cursor of an Environment is a bare second, while events are told apart by second and kind.
The invariant that carries the result says where an event recorded since the cursor was seeded
can be: delivered, loaded by the running pass, dropped by age but still above the cursor, or
stored and later than everything the relay has passed or is about to pass.
-/

namespace Daku.Webhook

open Daku.Base Daku.Base.Prog Daku.Store

/-- The event has a row. -/
def Stored (s : Relay) (k : EventKey) : Prop := ∃ e ∈ s.db.healthEvents, e.key = k

/-- Where a recorded event can be. -/
inductive Kept (s : Relay) (k : EventKey) : Prop where
  | delivered (h : Delivered s k)
  | waiting (h : k ∈ s.loaded) (hheld : Stored s k ∨ k ∈ s.history.aged)
  | aged (h : k ∈ s.history.aged) (habove : AboveCursor s k)
  | stored (h : Stored s k) (hbeyond : Beyond s k)

/-- What every step keeps. -/
structure Inv (apart : Bool) (s : Relay) : Prop where
  kept : ∀ k ∈ s.history.recorded, Kept s k
  seeded : ∀ k ∈ s.history.recorded, (s.db.webhookCursor k.1).isSome
  aged : ∀ k ∈ s.history.aged, ∀ p ∈ s.pass,
    Delivered s k ∨ backfillSecs < satSub p.now k.2.1
  apart : apart = true → ∀ k ∈ s.history.recorded, k ∈ s.loaded →
    Delivered s k ∨ AboveCursor s k

/-- What others leave as it is, or change in one direction only, while a pass runs. -/
structure Rely (s t : Relay) : Prop where
  lastSent : t.lastSent = s.lastSent
  script : t.script = s.script
  attempts : t.attempts = s.attempts
  pass : t.pass = s.pass
  seeded : ∀ id, (t.db.webhookCursor id).isSome = (s.db.webhookCursor id).isSome
  delivered : ∀ k, Delivered s k → Delivered t k
  recorded : ∀ k ∈ t.history.recorded, k ∈ s.history.recorded ∨ k ∉ s.loaded
  cursor : ∀ k ∈ t.history.recorded, (k ∈ s.history.recorded → AboveCursor s k) →
    AboveCursor t k ∨ Delivered t k

section Basics

variable {s t u : Relay} {k : EventKey}

@[simp] theorem loaded_none (h : s.pass = none) : s.loaded = [] := by
  simp [Relay.loaded, h]

theorem loaded_some {p : Pass} (h : s.pass = some p) :
    s.loaded = p.events.map HealthEvent.key := by
  simp [Relay.loaded, h]

theorem loaded_congr (h : t.pass = s.pass) : t.loaded = s.loaded := by
  simp [Relay.loaded, h]

/-- The four ledgers and tables that deliver an event only grow. -/
theorem Delivered.mono (h : Delivered s k) (hposted : s.history.posted ⊆ t.history.posted)
    (hletters : k ∈ s.db.webhookDeadLetters.map WebhookDeadLetter.key → Delivered t k)
    (hrequeued : s.history.requeued ⊆ t.history.requeued)
    (hstale : s.history.stale ⊆ t.history.stale) : Delivered t k := by
  rcases h with h | h | h | h
  · exact Or.inl (hposted h)
  · exact hletters h
  · exact Or.inr (Or.inr (Or.inl (hrequeued h)))
  · exact Or.inr (Or.inr (Or.inr (hstale h)))

theorem delivered_of_letter (h : k ∈ s.db.webhookDeadLetters.map WebhookDeadLetter.key) :
    Delivered s k :=
  Or.inr (Or.inl h)

theorem Rely.refl (s : Relay) : Rely s s :=
  ⟨rfl, rfl, rfl, rfl, fun _ ↦ rfl, fun _ h ↦ h, fun _ h ↦ Or.inl h, fun _ hk h ↦ Or.inl (h hk)⟩

theorem Rely.trans (h : Rely s t) (h' : Rely t u) : Rely s u where
  lastSent := h'.lastSent.trans h.lastSent
  script := h'.script.trans h.script
  attempts := h'.attempts.trans h.attempts
  pass := h'.pass.trans h.pass
  seeded id := (h'.seeded id).trans (h.seeded id)
  delivered k hk := h'.delivered k (h.delivered k hk)
  recorded k hk := by
    rcases h'.recorded k hk with hk | hk
    · exact h.recorded k hk
    · rw [loaded_congr h.pass] at hk
      exact Or.inr hk
  cursor k hk hs := by
    by_cases hkt : k ∈ t.history.recorded
    · rcases h.cursor k hkt hs with habove | hdelivered
      · exact h'.cursor k hk fun _ ↦ habove
      · exact Or.inr (h'.delivered k hdelivered)
    · exact h'.cursor k hk fun hkt' ↦ absurd hkt' hkt

/-- An event that is above the mark of its turn is above both halves of it. -/
theorem lt_of_relayMark {memory stored : Option Int} {m observedAt : Int}
    (hmark : m ∈ relayMark memory stored) (hmemory : ∀ c ∈ memory, c < observedAt)
    (hstored : ∀ c ∈ stored, c < observedAt) : m < observedAt := by
  cases memory with
  | none => exact hstored m (by simpa [relayMark] using hmark)
  | some a =>
    cases stored with
    | none =>
      obtain rfl : a = m := by simpa [relayMark] using hmark
      exact hmemory a rfl
    | some b =>
      obtain rfl : max a b = m := by simpa [relayMark] using hmark
      exact max_lt (hmemory a rfl) (hstored b rfl)

/-- A cursor is at most the mark of a turn. -/
theorem le_relayMark {memory stored : Option Int} {m c : Int}
    (hmark : m ∈ relayMark memory stored) (hc : c ∈ stored) : c ≤ m := by
  obtain rfl : stored = some c := hc
  cases memory with
  | none =>
    obtain rfl : c = m := by simpa [relayMark] using hmark
    exact le_refl c
  | some a =>
    obtain rfl : max a c = m := by simpa [relayMark] using hmark
    exact le_max_right a c

/-- A turn seeds the cursor only where there is none. -/
theorem stored_eq_none_of_relayMark {memory stored : Option Int}
    (h : relayMark memory stored = none) : stored = none := by
  cases memory with
  | none => exact h
  | some a => cases stored <;> cases h

end Basics

section Moves

variable {apart : Bool} {s t : Relay} {k : EventKey} {environmentId : String} {observedAt : Int}

theorem AboveCursor.of_eq (h : AboveCursor s k)
    (hcursor : t.db.webhookCursor k.1 = s.db.webhookCursor k.1) : AboveCursor t k := by
  unfold AboveCursor
  rw [hcursor]
  exact h

theorem Beyond.of_eq (h : Beyond s k) (hcursor : t.db.webhookCursor = s.db.webhookCursor)
    (hmemory : t.lastSent = s.lastSent) (hpass : t.pass = s.pass) : Beyond t k where
  cursor := h.cursor.of_eq (by rw [hcursor])
  memory := by
    rw [hmemory]
    exact h.memory
  turn := by
    rw [hpass]
    exact h.turn
  loaded := by
    rw [loaded_congr hpass]
    exact h.loaded

/-- A step that only delivers keeps the invariant. -/
theorem Inv.of_delivering (h : Inv apart s) (hevents : t.db.healthEvents = s.db.healthEvents)
    (hcursor : t.db.webhookCursor = s.db.webhookCursor) (hmemory : t.lastSent = s.lastSent)
    (hpass : t.pass = s.pass) (hrecorded : t.history.recorded = s.history.recorded)
    (haged : t.history.aged = s.history.aged) (hdelivered : ∀ k, Delivered s k → Delivered t k) :
    Inv apart t where
  kept k hk := by
    rw [hrecorded] at hk
    have hstored : Stored s k → Stored t k := by
      unfold Stored
      rw [hevents]
      exact fun h ↦ h
    cases h.kept k hk with
    | delivered hd => exact .delivered (hdelivered k hd)
    | waiting hl hheld =>
      rw [← loaded_congr hpass] at hl
      rw [← haged] at hheld
      exact .waiting hl (hheld.imp_left hstored)
    | aged ha habove =>
      rw [← haged] at ha
      exact .aged ha (habove.of_eq (by rw [hcursor]))
    | stored hs hbeyond => exact .stored (hstored hs) (hbeyond.of_eq hcursor hmemory hpass)
  seeded := by
    rw [hrecorded, hcursor]
    exact h.seeded
  aged k hk p hp := by
    rw [haged] at hk
    rw [hpass] at hp
    exact (h.aged k hk p hp).imp_left (hdelivered k)
  apart hapart k hk hl := by
    rw [hrecorded] at hk
    rw [loaded_congr hpass] at hl
    rcases h.apart hapart k hk hl with hd | habove
    · exact Or.inl (hdelivered k hd)
    · exact Or.inr (habove.of_eq (by rw [hcursor]))

/-- Moving the mark in memory keeps the invariant if it stays below what is still ahead. -/
theorem inv_remember (h : Inv apart s)
    (hbelow : ∀ k ∈ s.history.recorded, Beyond s k → k.1 = environmentId → observedAt < k.2.1) :
    Inv apart (commit (Move.remember environmentId observedAt) s) where
  kept k hk := by
    cases h.kept k hk with
    | delivered hd => exact .delivered hd
    | waiting hl hheld => exact .waiting hl hheld
    | aged ha habove => exact .aged ha habove
    | stored hs hbeyond =>
      refine .stored hs { hbeyond with memory := ?_ }
      intro m hm
      simp only [commit, Relay.commit] at hm
      by_cases hid : k.1 = environmentId
      · rw [hid, Function.update_self, Option.mem_def, Option.some.injEq] at hm
        exact hm ▸ hbelow k hk hbeyond hid
      · rw [Function.update_of_ne hid] at hm
        exact hbeyond.memory m hm
  seeded := h.seeded
  aged := h.aged
  apart := h.apart

/-- An event the cursor moves over beyond the backfill bound is delivered. -/
theorem delivered_of_passed {p : Pass} (hp : s.pass = some p) (hk : k ∈ s.history.recorded)
    (hid : k.1 = environmentId) (habove : AboveCursor s k) (hle : k.2.1 ≤ observedAt)
    (hstale : backfillSecs < satSub p.now k.2.1) :
    Delivered (commit (Move.sql (.storeWebhookCursor environmentId observedAt)) s) k := by
  refine Or.inr (Or.inr (Or.inr ?_))
  simp only [commit, Relay.commit, Relay.noteSql, hp, History.passedStale, List.mem_append,
    List.mem_filter, decide_eq_true_eq]
  refine Or.inr ⟨hk, hid, fun c hc ↦ habove c ?_, hle, hstale⟩
  rw [hid]
  exact hc

theorem delivered_storeCursor (h : Delivered s k) :
    Delivered (commit (Move.sql (.storeWebhookCursor environmentId observedAt)) s) k := by
  have hhistory : ∃ extra, s.noteSql (.storeWebhookCursor environmentId observedAt) =
      { s.history with stale := s.history.stale ++ extra } := by
    unfold Relay.noteSql
    split
    · next heq _ => cases heq; exact ⟨_, rfl⟩
    · exact ⟨[], by simp⟩
  obtain ⟨extra, hextra⟩ := hhistory
  apply h.mono
  · simp [commit, Relay.commit, hextra]
  · exact fun hl ↦ delivered_of_letter hl
  · simp [commit, Relay.commit, hextra]
  · simp [commit, Relay.commit, hextra]

/-- An event above the cursor stays above it if the cursor stays below the event. -/
theorem aboveCursor_storeCursor (h : AboveCursor s k)
    (hlt : k.1 = environmentId → observedAt < k.2.1) :
    AboveCursor (commit (Move.sql (.storeWebhookCursor environmentId observedAt)) s) k := by
  intro c hc
  simp only [commit, Relay.commit, Db.commit] at hc
  by_cases hid : k.1 = environmentId
  · rw [hid, Function.update_self, Option.mem_def, Option.some.injEq] at hc
    exact hc ▸ hlt hid
  · rw [Function.update_of_ne hid] at hc
    exact h c hc

theorem recorded_noteSql (c : Statement) (s : Relay) :
    (s.noteSql c).recorded = s.history.recorded ∧ (s.noteSql c).aged = s.history.aged := by
  unfold Relay.noteSql
  split <;> exact ⟨rfl, rfl⟩

/-- Moving the cursor keeps the invariant if it stays below what is still ahead. -/
theorem inv_storeCursor {p : Pass} (h : Inv apart s) (hp : s.pass = some p)
    (hbelow : ∀ k ∈ s.history.recorded, Beyond s k → k.1 = environmentId → observedAt < k.2.1)
    (hallowed : Admits apart (.sql (.storeWebhookCursor environmentId observedAt)) s) :
    Inv apart (commit (Move.sql (.storeWebhookCursor environmentId observedAt)) s) where
  kept k hk := by
    replace hk : k ∈ s.history.recorded := (recorded_noteSql _ s).1 ▸ hk
    have haged' := (recorded_noteSql (.storeWebhookCursor environmentId observedAt) s).2
    cases h.kept k hk with
    | delivered hd => exact .delivered (delivered_storeCursor hd)
    | waiting hl hheld => exact .waiting hl (hheld.imp_right fun ha ↦ haged'.symm ▸ ha)
    | aged ha habove =>
      by_cases hpassed : k.1 = environmentId ∧ k.2.1 ≤ observedAt
      · rcases h.aged k ha p hp with hd | hstale
        · exact .delivered (delivered_storeCursor hd)
        · exact .delivered (delivered_of_passed hp hk hpassed.1 habove hpassed.2 hstale)
      · refine .aged (haged'.symm ▸ ha) (aboveCursor_storeCursor habove fun hid ↦ ?_)
        exact not_le.mp fun hle ↦ hpassed ⟨hid, hle⟩
    | stored hs hbeyond =>
      exact .stored hs { hbeyond with
        cursor := aboveCursor_storeCursor hbeyond.cursor (hbelow k hk hbeyond) }
  seeded k hk := by
    replace hk : k ∈ s.history.recorded := (recorded_noteSql _ s).1 ▸ hk
    simp only [commit, Relay.commit, Db.commit]
    by_cases hid : k.1 = environmentId
    · rw [hid, Function.update_self]
      rfl
    · rw [Function.update_of_ne hid]
      exact h.seeded k hk
  aged k hk p hp :=
    (h.aged k ((recorded_noteSql _ s).2 ▸ hk) p hp).imp_left delivered_storeCursor
  apart hapart k hk hl := by
    replace hk : k ∈ s.history.recorded := (recorded_noteSql _ s).1 ▸ hk
    rcases h.apart hapart k hk hl with hd | habove
    · exact Or.inl (delivered_storeCursor hd)
    · rcases hallowed hapart k hl hk with hd | hlt | ⟨q, hq, hstale⟩
      · exact Or.inl (delivered_storeCursor hd)
      · exact Or.inr (aboveCursor_storeCursor habove fun _ ↦ hlt)
      · -- The event is too old by now: if the cursor passes it, it passes it as stale.
        obtain rfl := Option.some.inj (hp.symm.trans hq)
        by_cases hpassed : k.1 = environmentId ∧ k.2.1 ≤ observedAt
        · exact Or.inl (delivered_of_passed hp hk hpassed.1 habove hpassed.2 hstale)
        · refine Or.inr (aboveCursor_storeCursor habove fun hid ↦ ?_)
          exact not_le.mp fun hle ↦ hpassed ⟨hid, hle⟩

/-- A pass starts with nothing loaded. -/
theorem inv_begin {now : Int} (h : Inv apart s) (hpass : s.pass = none)
    (hallowed : Admits apart (.begin now) s) : Inv apart (commit (Move.begin now) s) where
  kept k hk := by
    cases h.kept k hk with
    | delivered hd => exact .delivered hd
    | waiting hl => simp [loaded_none hpass] at hl
    | aged ha habove => exact .aged ha habove
    | stored hs hbeyond =>
      refine .stored hs ⟨hbeyond.cursor, hbeyond.memory, ?_, ?_⟩
      · simp [commit, Relay.commit]
      · simp [commit, Relay.commit, Relay.loaded]
  seeded := h.seeded
  aged k hk p hp := by
    obtain rfl : ({ now, turn := none, events := [] } : Pass) = p := Option.some.inj hp
    exact hallowed k hk
  apart _ k _ hl := by simp [commit, Relay.commit, Relay.loaded] at hl

/-- A turn starts once everything the turn before it loaded is delivered. -/
theorem inv_readMark {p : Pass} (h : Inv apart s) (hp : s.pass = some p)
    (hdone : ∀ k ∈ s.loaded, k ∈ s.history.recorded → Delivered s k) :
    Inv apart (commit (Move.readMark environmentId) s) where
  kept k hk := by
    cases h.kept k hk with
    | delivered hd => exact .delivered hd
    | waiting hl => exact .delivered (hdone k hl hk)
    | aged ha habove => exact .aged ha habove
    | stored hs hbeyond =>
      refine .stored hs ⟨hbeyond.cursor, hbeyond.memory, ?_, ?_⟩
      · simp only [commit, Relay.commit, hp, Option.map_some, Option.mem_some_iff, forall_eq',
          loadWebhookCursor]
        rintro rfl
        cases hmark : relayMark (s.lastSent k.1) (s.db.webhookCursor k.1) with
        | none =>
          -- The turn seeds the cursor, so nothing of its Environment has been recorded.
          have hseeded := h.seeded k hk
          rw [stored_eq_none_of_relayMark hmark] at hseeded
          cases hseeded
        | some mark => exact lt_of_relayMark hmark hbeyond.memory hbeyond.cursor
      · simp [commit, Relay.commit, Relay.loaded, hp]
  seeded := h.seeded
  aged k hk q hq := by
    simp only [commit, Relay.commit, hp, Option.map_some, Option.mem_some_iff] at hq
    subst hq
    exact h.aged k hk p hp
  apart _ k _ hl := by simp [commit, Relay.commit, Relay.loaded, hp] at hl

/-- A turn loads everything above its mark that is still to be delivered. -/
theorem inv_loadEvents {p : Pass} {mark : Int} (h : Inv apart s) (hp : s.pass = some p)
    (hturn : p.turn = some (environmentId, some mark)) (hnone : p.events = [])
    (hmark : ∀ k ∈ s.history.recorded, k.1 = environmentId → mark < k.2.1 →
      AboveCursor s k ∨ Delivered s k)
    (hallowed : Admits apart (.loadEvents environmentId mark) s) :
    Inv apart (commit (Move.loadEvents environmentId mark) s) where
  kept k hk := by
    have hloaded : (commit (Move.loadEvents environmentId mark) s).loaded =
        (pendingEvents environmentId mark s.db).map HealthEvent.key := by
      simp [commit, Relay.commit, Relay.loaded, hp]
    cases h.kept k hk with
    | delivered hd => exact .delivered hd
    | waiting hl => simp [loaded_some hp, hnone] at hl
    | aged ha habove => exact .aged ha habove
    | stored hs hbeyond =>
      obtain ⟨e, he, rfl⟩ := hs
      by_cases hid : e.environmentId = environmentId
      · have habove : mark < e.observedAt := hbeyond.turn p hp _ hturn hid.symm
        rcases hallowed e he hid habove hk with hd | hload
        · exact .delivered hd
        · refine .waiting ?_ (Or.inl ⟨e, he, rfl⟩)
          rw [hloaded]
          exact List.mem_map_of_mem (mem_pendingEvents.mpr ⟨hload, habove⟩)
      · refine .stored ⟨e, he, rfl⟩ ⟨hbeyond.cursor, hbeyond.memory, ?_, ?_⟩
        · simp only [commit, Relay.commit, hp, Option.map_some, Option.mem_some_iff, forall_eq']
          exact hbeyond.turn p hp
        · intro l hl hsame
          rw [hloaded] at hl
          obtain ⟨e', he', rfl⟩ := List.mem_map.mp hl
          have henv := (mem_of_mem_loadHealthEvents (mem_pendingEvents.mp he').1).2
          exact absurd (hsame.symm.trans henv) hid
  seeded := h.seeded
  aged k hk q hq := by
    simp only [commit, Relay.commit, hp, Option.map_some, Option.mem_some_iff] at hq
    subst hq
    exact h.aged k hk p hp
  apart _ k hk hl := by
    simp only [commit, Relay.commit, Relay.loaded, hp, Option.map_some, Option.getD_some] at hl
    obtain ⟨e, he, rfl⟩ := List.mem_map.mp hl
    obtain ⟨hload, habove⟩ := mem_pendingEvents.mp he
    exact (hmark _ hk (mem_of_mem_loadHealthEvents hload).2 habove).symm

/-- A POST only delivers. -/
theorem delivered_post (e : HealthEvent) (h : Delivered s k) :
    Delivered (commit (Move.post e) s) k := by
  have hhistory : s.history.posted ⊆ (commit (Move.post e) s).history.posted ∧
      (commit (Move.post e) s).history.requeued = s.history.requeued ∧
      (commit (Move.post e) s).history.stale = s.history.stale := by
    simp only [commit, Relay.commit]
    split <;> simp
  apply h.mono hhistory.1
  · exact fun hl ↦ delivered_of_letter hl
  · rw [hhistory.2.1]
    exact fun _ hk ↦ hk
  · rw [hhistory.2.2]
    exact fun _ hk ↦ hk

theorem inv_post (e : HealthEvent) (h : Inv apart s) : Inv apart (commit (Move.post e) s) := by
  refine h.of_delivering rfl rfl rfl rfl ?_ ?_ fun _ ↦ delivered_post e
  · simp only [commit, Relay.commit]
    split <;> rfl
  · simp only [commit, Relay.commit]
    split <;> rfl

theorem delivered_insertLetter (l : WebhookDeadLetter) (h : Delivered s k) :
    Delivered (commit (Move.sql (.insertWebhookDeadLetter l)) s) k := by
  refine h.mono (fun _ hk ↦ hk) (fun hl ↦ delivered_of_letter ?_) (fun _ hk ↦ hk) fun _ hk ↦ hk
  obtain ⟨l', hl', rfl⟩ := List.mem_map.mp hl
  exact List.mem_map_of_mem (mem_insertNew_of_mem hl')

theorem delivered_keepLetters
    (hallowed : Admits apart (.sql (.keepNewestWebhookDeadLetters environmentId)) s)
    (h : Delivered s k) :
    Delivered (commit (Move.sql (.keepNewestWebhookDeadLetters environmentId)) s) k := by
  refine h.mono (fun _ hk ↦ hk) (fun hl ↦ ?_) (fun _ hk ↦ hk) fun _ hk ↦ hk
  obtain ⟨l, hmem, rfl⟩ := List.mem_map.mp hl
  have hkept : l.environmentId ≠ environmentId ∨
      l ∈ newestDeadLetters environmentId s.db.webhookDeadLetters →
        Delivered (commit (Move.sql (.keepNewestWebhookDeadLetters environmentId)) s) l.key :=
    fun h ↦ delivered_of_letter
      (List.mem_map_of_mem (List.mem_filter.mpr ⟨hmem, decide_eq_true h⟩))
  by_cases hid : l.environmentId = environmentId
  · rcases hallowed l hmem hid with hnewest | hposted | hother
    · exact hkept (Or.inr hnewest)
    · exact Or.inl hposted
    · exact Or.inr (Or.inr hother)
  · exact hkept (Or.inl hid)

end Moves

/-- The setting of a pass among others. -/
def interference (apart : Bool) : Interference Relay Move where
  rely := Rely
  rely_refl := Rely.refl
  rely_trans := Rely.trans
  inv := Inv apart
  allowed := Admits apart

/-- Between two turns everything the pass has loaded is delivered. -/
structure Settled (now : Int) (s : Relay) : Prop where
  pass : ∃ p, s.pass = some p ∧ p.now = now
  done : ∀ k ∈ s.loaded, k ∈ s.history.recorded → Delivered s k

/-- The turn of an Environment has set its mark and loaded nothing yet. -/
structure Marked (now : Int) (environmentId : String) (mark : Option Int) (s : Relay) : Prop where
  pass : s.pass = some { now, turn := some (environmentId, mark), events := [] }
  seeds : mark = none → s.db.webhookCursor environmentId = none
  above : ∀ m ∈ mark, ∀ k ∈ s.history.recorded, k.1 = environmentId → m < k.2.1 →
    AboveCursor s k ∨ Delivered s k

/-- The turn of an Environment has loaded events above its mark, and `rest` is still to come. -/
structure Relaying (now : Int) (environmentId : String) (mark : Int) (rest : List HealthEvent)
    (s : Relay) : Prop where
  pass : ∃ p, s.pass = some p ∧ p.now = now ∧ rest ⊆ p.events ∧
    ∀ e ∈ p.events, e.environmentId = environmentId ∧ mark < e.observedAt
  done : ∀ k ∈ s.loaded, k ∈ s.history.recorded → Delivered s k ∨ k ∈ rest.map HealthEvent.key
  stale : ∀ k ∈ s.loaded, k ∈ s.history.recorded → backfillSecs < satSub now k.2.1 →
    AboveCursor s k ∨ Delivered s k

section Stability

variable {now : Int} {environmentId : String} {s t : Relay}

theorem Rely.recorded_of_loaded (h : Rely s t) {k : EventKey} (hk : k ∈ t.history.recorded)
    (hl : k ∈ s.loaded) : k ∈ s.history.recorded := by
  rcases h.recorded k hk with hk | hk
  · exact hk
  · exact absurd hl hk

/-- While others act, an event above the cursor stays there or gets delivered. -/
theorem Rely.aboveCursor (h : Rely s t) {k : EventKey} (hk : k ∈ t.history.recorded)
    (hs : k ∈ s.history.recorded → AboveCursor s k ∨ Delivered s k) :
    AboveCursor t k ∨ Delivered t k := by
  by_cases hd : Delivered s k
  · exact Or.inr (h.delivered k hd)
  · exact h.cursor k hk fun hks ↦ (hs hks).resolve_right hd

theorem Settled.of_rely (hs : Settled now s) (h : Rely s t) : Settled now t where
  pass := h.pass ▸ hs.pass
  done k hl hk := by
    rw [loaded_congr h.pass] at hl
    exact h.delivered k (hs.done k hl (h.recorded_of_loaded hk hl))

theorem Marked.of_rely {mark : Option Int} (hs : Marked now environmentId mark s)
    (h : Rely s t) : Marked now environmentId mark t where
  pass := h.pass ▸ hs.pass
  seeds hmark := by
    have hseeded := h.seeded environmentId
    rw [hs.seeds hmark] at hseeded
    exact Option.not_isSome_iff_eq_none.mp (by simp [hseeded])
  above m hm k hk hid hlt := h.aboveCursor hk fun hks ↦ hs.above m hm k hks hid hlt

theorem Relaying.of_rely {mark : Int} {rest : List HealthEvent}
    (hs : Relaying now environmentId mark rest s) (h : Rely s t) :
    Relaying now environmentId mark rest t where
  pass := h.pass ▸ hs.pass
  done k hl hk := by
    rw [loaded_congr h.pass] at hl
    exact (hs.done k hl (h.recorded_of_loaded hk hl)).imp_left (h.delivered k)
  stale k hl hk hstale := by
    rw [loaded_congr h.pass] at hl
    exact h.aboveCursor hk fun hks ↦ hs.stale k hl hks hstale

theorem Relaying.of_delivering {mark : Int} {rest : List HealthEvent}
    (hs : Relaying now environmentId mark rest s) (hpass : t.pass = s.pass)
    (hrecorded : t.history.recorded = s.history.recorded)
    (hcursor : t.db.webhookCursor = s.db.webhookCursor)
    (hdelivered : ∀ k, Delivered s k → Delivered t k) :
    Relaying now environmentId mark rest t where
  pass := hpass ▸ hs.pass
  done k hl hk := by
    rw [loaded_congr hpass] at hl
    rw [hrecorded] at hk
    exact (hs.done k hl hk).imp_left (hdelivered k)
  stale k hl hk hstale := by
    rw [loaded_congr hpass] at hl
    rw [hrecorded] at hk
    exact (hs.stale k hl hk hstale).imp (fun h ↦ h.of_eq (by rw [hcursor])) (hdelivered k)

end Stability

section Pass

variable {apart : Bool} {now mark : Int} {environmentId : String} {rest : List HealthEvent}
  {e : HealthEvent} {s : Relay}

/-- A successful POST delivers. -/
theorem safe_post (hs : Relaying now environmentId mark rest s) :
    Safe (interference apart) (post e)
      (fun sent t ↦ Relaying now environmentId mark rest t ∧ (sent = true → Delivered t e.key))
      s := by
  unfold post
  apply safe_bind
  apply safe_issue
  intro t hrely hinv _
  have hrecorded : (commit (Move.post e) t).history.recorded = t.history.recorded := by
    simp only [commit, Relay.commit]
    split <;> rfl
  refine ⟨inv_post e hinv, safe_query fun u hrely' _ ↦ ?_⟩
  have hposted : Relaying now environmentId mark rest (commit (Move.post e) t) :=
    (hs.of_rely hrely).of_delivering rfl hrecorded rfl fun _ ↦ delivered_post e
  refine ⟨hposted.of_rely hrely', fun hsent ↦ hrely'.delivered _ (Or.inl ?_)⟩
  -- The answer that is read is the one to the POST just made.
  rw [hrely'.script, hrely'.attempts] at hsent
  have hanswer : t.script t.attempts = true := hsent
  simp [commit, Relay.commit, hanswer]

theorem safe_postWithRetry (hs : Relaying now environmentId mark rest s) :
    Safe (interference apart) (postWithRetry e)
      (fun sent t ↦ Relaying now environmentId mark rest t ∧ (sent = true → Delivered t e.key))
      s := by
  unfold postWithRetry
  apply safe_bind
  apply safe_mono (safe_post hs)
  rintro sent t ⟨hs, hdelivered⟩
  split
  · next hsent => exact ⟨hs, fun _ ↦ hdelivered hsent⟩
  · exact safe_post hs

/-- Keeping a dead letter delivers. -/
theorem safe_recordWebhookDeadLetter {error : String} (he : e.environmentId = environmentId)
    (hs : Relaying now environmentId mark rest s) :
    Safe (interference apart) (recordWebhookDeadLetter environmentId e.observedAt e.kind error)
      (fun _ t ↦ Relaying now environmentId mark rest t ∧ Delivered t e.key) s := by
  unfold recordWebhookDeadLetter
  apply safe_bind
  apply safe_issue
  intro t hrely hinv _
  let letter : WebhookDeadLetter :=
    { environmentId, observedAt := e.observedAt, kind := e.kind, error }
  have hinv' : Inv apart (commit (Move.sql (.insertWebhookDeadLetter letter)) t) :=
    hinv.of_delivering rfl rfl rfl rfl rfl rfl fun _ ↦ delivered_insertLetter letter
  have hs' : Relaying now environmentId mark rest
      (commit (Move.sql (.insertWebhookDeadLetter letter)) t) :=
    (hs.of_rely hrely).of_delivering rfl rfl rfl fun _ ↦ delivered_insertLetter letter
  have hletter : Delivered (commit (Move.sql (.insertWebhookDeadLetter letter)) t) e.key := by
    subst he
    exact delivered_of_letter (key_mem_insertNew letter)
  refine ⟨hinv', safe_issue fun u hrely' hinv'' hallowed ↦ ?_⟩
  have hkeep : ∀ k, Delivered u k →
      Delivered (commit (Move.sql (.keepNewestWebhookDeadLetters environmentId)) u) k :=
    fun _ ↦ delivered_keepLetters (show Admits apart _ u from hallowed)
  exact ⟨hinv''.of_delivering rfl rfl rfl rfl rfl rfl hkeep,
    (hs'.of_rely hrely').of_delivering rfl rfl rfl hkeep, hkeep _ (hrely'.delivered _ hletter)⟩

theorem safe_deliver (he : e.environmentId = environmentId)
    (hs : Relaying now environmentId mark rest s) :
    Safe (interference apart) (deliver environmentId e)
      (fun _ t ↦ Relaying now environmentId mark rest t ∧ Delivered t e.key) s := by
  unfold deliver
  apply safe_bind
  apply safe_mono (safe_postWithRetry hs)
  rintro sent t ⟨hs, hdelivered⟩
  split
  · next hsent => exact ⟨hs, hdelivered hsent⟩
  · exact safe_recordWebhookDeadLetter he hs

/-- Moving the mark and the cursor to an event that is delivered, or that has become too old,
leaves nothing of it to do. -/
theorem safe_advance (hs : Relaying now environmentId mark (e :: rest) s)
    (he : Delivered s e.key ∨ backfillSecs < satSub now e.observedAt) :
    Safe (interference apart) (advance environmentId e.observedAt)
      (fun _ ↦ Relaying now environmentId mark rest) s := by
  obtain ⟨p, hp, hnow, hrest, hevents⟩ := hs.pass
  have hmem : e ∈ p.events := hrest List.mem_cons_self
  have henv : e.environmentId = environmentId := (hevents e hmem).1
  -- What is still ahead of the relay is later than the event: it is later than all loaded ones.
  have hbelow : ∀ t : Relay, t.pass = s.pass → ∀ k, Beyond t k → k.1 = environmentId →
      e.observedAt < k.2.1 := by
    intro t hpass k hbeyond hid
    refine hbeyond.loaded e.key ?_ (henv.trans hid.symm)
    rw [loaded_congr hpass, loaded_some hp]
    exact List.mem_map_of_mem hmem
  unfold advance
  apply safe_bind
  apply safe_issue
  intro t hrely hinv _
  refine ⟨inv_remember hinv fun k _ ↦ hbelow t hrely.pass k, ?_⟩
  have hs' : Relaying now environmentId mark (e :: rest)
      (commit (Move.remember environmentId e.observedAt) t) :=
    (hs.of_rely hrely).of_delivering rfl rfl rfl fun _ h ↦ h
  have he' : Delivered (commit (Move.remember environmentId e.observedAt) t) e.key ∨
      backfillSecs < satSub now e.observedAt := he.imp_left (hrely.delivered _)
  apply safe_issue
  intro u hrely' hinv' hallowed
  have hs'' := hs'.of_rely hrely'
  have hpass : u.pass = s.pass := hrely'.pass.trans hrely.pass
  have hpu : u.pass = some p := hpass.trans hp
  refine ⟨inv_storeCursor hinv' hpu (fun k _ ↦ hbelow u hpass k) hallowed, ?_⟩
  have hstale : ∀ k ∈ u.loaded, k ∈ u.history.recorded → backfillSecs < satSub now k.2.1 →
      AboveCursor (commit (Move.sql (.storeWebhookCursor environmentId e.observedAt)) u) k ∨
        Delivered (commit (Move.sql (.storeWebhookCursor environmentId e.observedAt)) u) k := by
    intro k hl hk hold
    rcases hs''.stale k hl hk hold with habove | hd
    · by_cases hpassed : k.1 = environmentId ∧ k.2.1 ≤ e.observedAt
      · exact Or.inr
          (delivered_of_passed hpu hk hpassed.1 habove hpassed.2 (hnow.symm ▸ hold))
      · refine Or.inl (aboveCursor_storeCursor habove fun hid ↦ ?_)
        exact not_le.mp fun hle ↦ hpassed ⟨hid, hle⟩
    · exact Or.inr (delivered_storeCursor hd)
  refine ⟨⟨p, hpu, hnow, fun e' he' ↦ hrest (List.mem_cons_of_mem _ he'), hevents⟩, ?_, ?_⟩
  · intro k hl hk
    replace hk : k ∈ u.history.recorded := (recorded_noteSql _ u).1 ▸ hk
    rcases hs''.done k hl hk with hd | hwait
    · exact Or.inl (delivered_storeCursor hd)
    · rcases List.mem_cons.mp hwait with rfl | hwait
      · rcases he' with hd | hold
        · exact Or.inl (delivered_storeCursor (hrely'.delivered _ hd))
        · -- The cursor now stands at the event, so it has passed it too late.
          rcases hstale e.key hl hk hold with habove | hd
          · have hlt := habove e.observedAt (by
              simp [commit, Relay.commit, Db.commit, HealthEvent.key, henv])
            exact absurd hlt (lt_irrefl _)
          · exact Or.inl hd
      · exact Or.inr hwait
  · intro k hl hk
    exact hstale k hl ((recorded_noteSql _ u).1 ▸ hk)

theorem safe_relayEvent (hs : Relaying now environmentId mark (e :: rest) s) :
    Safe (interference apart) (relayEvent environmentId now mark e)
      (fun _ ↦ Relaying now environmentId mark rest) s := by
  obtain ⟨p, hp, hnow, hrest, hevents⟩ := hs.pass
  obtain ⟨henv, habove⟩ := hevents e (hrest List.mem_cons_self)
  unfold relayEvent
  split
  · apply safe_bind
    apply safe_mono (safe_deliver henv hs)
    rintro _ t ⟨hs, hdelivered⟩
    exact safe_advance hs (Or.inl hdelivered)
  · next hrelay =>
    -- The event is above the mark, so only its age keeps it from being relayed.
    have hstale : backfillSecs < satSub now e.observedAt := by
      simpa [shouldRelayEvent, habove] using hrelay
    exact safe_advance hs (Or.inr hstale)

/-- A turn without a cursor seeds it: nothing of its Environment has been recorded yet. -/
theorem safe_seed (hs : Marked now environmentId none s) :
    Safe (interference apart)
      (do issue (.sql (.storeWebhookCursor environmentId now))
          issue (.remember environmentId now))
      (fun _ ↦ Settled now) s := by
  apply safe_bind
  apply safe_issue
  intro t hrely hinv hallowed
  have ht := hs.of_rely hrely
  refine ⟨inv_storeCursor hinv ht.pass (fun k hk _ hid ↦ ?_) hallowed, ?_⟩
  · have hseeded := hinv.seeded k hk
    rw [hid, ht.seeds rfl] at hseeded
    cases hseeded
  apply safe_issue
  intro u hrely' hinv' _
  have hpass : u.pass = some { now, turn := some (environmentId, none), events := [] } :=
    hrely'.pass.trans ht.pass
  refine ⟨inv_remember hinv' fun k _ hbeyond hid ↦ ?_, ⟨_, hpass, rfl⟩, fun k hl ↦ ?_⟩
  · exact hbeyond.turn _ hpass _ rfl hid.symm
  · have hnone : u.loaded = [] := loaded_some hpass
    rw [show (commit (Move.remember environmentId now) u).loaded = u.loaded from rfl, hnone] at hl
    cases hl

/-- What a turn has loaded is above its mark, and so above the cursor unless it got delivered. -/
theorem relaying_loadEvents (hs : Marked now environmentId (some mark) s) :
    Relaying now environmentId mark (pendingEvents environmentId mark s.db)
      (commit (Move.loadEvents environmentId mark) s) := by
  have hpass : (commit (Move.loadEvents environmentId mark) s).pass = some {
      now, turn := some (environmentId, some mark)
      events := pendingEvents environmentId mark s.db } := by
    simp [commit, Relay.commit, hs.pass]
  have hloaded := loaded_some hpass
  refine ⟨⟨_, hpass, rfl, fun _ he ↦ he, fun e he ↦ ?_⟩, fun k hl _ ↦ ?_, fun k hl hk _ ↦ ?_⟩
  · obtain ⟨hload, habove⟩ := mem_pendingEvents.mp he
    exact ⟨(mem_of_mem_loadHealthEvents hload).2, habove⟩
  · exact Or.inr (hloaded ▸ hl)
  · rw [hloaded] at hl
    obtain ⟨e, he, rfl⟩ := List.mem_map.mp hl
    obtain ⟨hload, habove⟩ := mem_pendingEvents.mp he
    exact hs.above mark rfl _ hk (mem_of_mem_loadHealthEvents hload).2 habove

/-- A turn with a mark delivers what it loads. -/
theorem safe_relayEvents (hs : Marked now environmentId (some mark) s) :
    Safe (interference apart)
      (do issue (.loadEvents environmentId mark)
          let events ← query fun s ↦ (s.pass.map Pass.events).getD []
          each events (relayEvent environmentId now mark))
      (fun _ ↦ Settled now) s := by
  apply safe_bind
  apply safe_issue
  intro t hrely hinv hallowed
  have ht := hs.of_rely hrely
  refine ⟨inv_loadEvents hinv ht.pass rfl rfl (ht.above mark rfl) hallowed, ?_⟩
  apply safe_bind
  apply safe_query
  intro u hrely' _
  have hevents : (u.pass.map Pass.events).getD [] = pendingEvents environmentId mark t.db := by
    rw [hrely'.pass]
    simp [commit, Relay.commit, ht.pass]
  rw [hevents]
  apply safe_mono (safe_each (Relaying now environmentId mark)
    (fun e rest _ hs ↦ safe_relayEvent hs) _ ((relaying_loadEvents ht).of_rely hrely'))
  rintro _ v hv
  obtain ⟨q, hq, hnow, -⟩ := hv.pass
  refine ⟨⟨q, hq, hnow⟩, fun k hl hk ↦ ?_⟩
  rcases hv.done k hl hk with hd | hwait
  · exact hd
  · cases hwait

theorem safe_relayEnvironment (hs : Settled now s) :
    Safe (interference apart) (relayEnvironment now environmentId) (fun _ ↦ Settled now) s := by
  unfold relayEnvironment
  apply safe_bind
  apply safe_issue
  intro t hrely hinv _
  have ht := hs.of_rely hrely
  obtain ⟨p, hp, rfl⟩ := ht.pass
  refine ⟨inv_readMark hinv hp ht.done, ?_⟩
  have hmarked : Marked p.now environmentId
      (relayMark (t.lastSent environmentId) (t.db.webhookCursor environmentId))
      (commit (Move.readMark environmentId) t) := by
    refine ⟨?_, stored_eq_none_of_relayMark, ?_⟩
    · simp [commit, Relay.commit, hp, loadWebhookCursor]
    · rintro m hm k _ rfl hlt
      exact Or.inl fun c hc ↦ (le_relayMark hm hc).trans_lt hlt
  apply safe_bind
  apply safe_query
  intro u hrely' _
  have hmarked' := hmarked.of_rely hrely'
  rw [hmarked'.pass]
  simp only [Option.bind_some]
  split
  · next hmark =>
    rw [hmark] at hmarked'
    exact safe_seed hmarked'
  · next mark hmark =>
    rw [hmark] at hmarked'
    exact safe_relayEvents hmarked'

/-- A pass that starts while none is running keeps the invariant at every step, whatever
others do in between, and ends with everything it loaded delivered. -/
theorem safe_relayTo (hpass : s.pass = none) :
    Safe (interference apart) (relayTo now) (fun _ ↦ Settled now) s := by
  unfold relayTo
  apply safe_bind
  apply safe_issue
  intro t hrely hinv hallowed
  refine ⟨inv_begin hinv (hrely.pass.trans hpass) hallowed, ?_⟩
  have hsettled : Settled now (commit (Move.begin now) t) :=
    ⟨⟨_, rfl, rfl⟩, fun k hl ↦ by simp [commit, Relay.commit, Relay.loaded] at hl⟩
  apply safe_bind
  apply safe_query
  intro u hrely' _
  exact safe_each (fun _ ↦ Settled now) (fun _ _ _ hs ↦ safe_relayEnvironment hs) _
    (hsettled.of_rely hrely')

end Pass

end Daku.Webhook
