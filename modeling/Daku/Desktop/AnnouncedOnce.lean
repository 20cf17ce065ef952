import Daku.Desktop.Notifications

/-!
# Each health event is announced at most once

Deduplication rests on a set that loses the keys of removed Environments and, past a global cap,
its oldest keys (`src/app.rs:248–259`). While the cap never reaches a key from the window's boot
on, an event that was in a batch is not offered again as long as its Environment stays
configured. A key that was evicted is offered again with the next publish that repeats it.
-/

namespace Daku.Desktop

open Daku.Base Daku.Protocol Daku.Wire
open Daku.Health (EnvironmentSummary HealthEventDto)

section Announced

variable (fromStr : FromStr) (w : NotifyWindow)

/-- The Environment is listed from the end of `pre` to the end of `stretch`. -/
def StaysConfigured (pre stretch : List Delivery) (id : String) : Prop :=
  ∀ part, part <+: stretch → (w.after fromStr (pre ++ part)).listed id

/-- A batch of the Environment with that key. -/
def HasKey (d : Delivery) (id : String) (key : SeenKey) : Prop :=
  ∃ events, d.message = .healthEventsUpdated id events ∧ key ∈ events.map (seenKey id)

/-- The key was in no batch since the Environment was configured. -/
def NewKey (pre : List Delivery) (id : String) (key : SeenKey) : Prop :=
  ∀ before d stretch, pre = before ++ d :: stretch → HasKey d id key →
    ¬StaysConfigured fromStr w before (d :: stretch) id

/-- What the window promises about its notifications over a sequence of messages. -/
structure AnnouncedOnce (ds : List Delivery) : Prop where
  /-- No event is offered twice while its Environment stays configured. -/
  once : ∀ pre d mid d' post id e e', ds = pre ++ d :: (mid ++ d' :: post) →
    w.offered fromStr pre d = some (id, e) →
    w.offered fromStr (pre ++ d :: mid) d' = some (id, e') →
    e.observedAt = e'.observedAt → ¬StaysConfigured fromStr w pre (d :: mid) id
  /-- Only health transitions from the boot on are offered. -/
  fireable : ∀ pre d post id e, ds = pre ++ d :: post → w.offered fromStr pre d = some (id, e) →
    e.kind = .health ∧ w.bootNow ≤ e.observedAt
  /-- An event that appears for the first time is offered or followed by a new one that is. -/
  noticed : ∀ pre d post id events e, ds = pre ++ d :: post →
    d.message = .healthEventsUpdated id events → e ∈ events → e.kind = .health →
    w.bootNow ≤ e.observedAt → (∀ d' ∈ pre, ¬HasKey d' id (seenKey id e)) →
    ∃ e', w.offered fromStr pre d = some (id, e') ∧ NewKey fromStr w pre id (seenKey id e') ∧
      (e' = e ∨ ∃ before after, events = before ++ e' :: after ∧ e ∈ before)

/-- At every batch at most the cap of keys from the boot on are to be remembered. -/
def WithinCap (ds : List Delivery) : Prop :=
  ∀ pre d post id events, ds = pre ++ d :: post → d.message = .healthEventsUpdated id events →
    (((w.after fromStr pre).remembered id events).filter
      fun key ↦ w.bootNow ≤ key.2.1).card ≤ notifySeenCap

end Announced

section Deliver

variable {fromStr : FromStr} {w : NotifyWindow} {d : Delivery} {id : String}
  {events : List HealthEventDto}

private theorem state_deliver (w : NotifyWindow) (d : Delivery) :
    (w.deliver fromStr d).1.state = w.state.apply fromStr d.message := by
  rw [NotifyWindow.deliver]
  split <;> rfl

private theorem bootNow_deliver (w : NotifyWindow) (d : Delivery) :
    (w.deliver fromStr d).1.bootNow = w.bootNow := by
  rw [NotifyWindow.deliver]
  split <;> rfl

private theorem notifySeen_deliver_batch (hd : d.message = .healthEventsUpdated id events) :
    (w.deliver fromStr d).1.notifySeen = evict d.visit (w.remembered id events) := by
  have hkeys : w.notifySeen ∪ (selectNotification id events w.notifySeen w.bootNow).1.toFinset =
      w.notifySeen ∪ (events.map (seenKey id)).toFinset := by
    rw [selectNotification_eq]
    ext key
    simp only [Finset.mem_union, List.mem_toFinset, List.mem_filter, decide_eq_true_eq]
    tauto
  simp only [NotifyWindow.deliver, hd, NotifyWindow.noteHealthEvents, hkeys]
  rfl

private theorem notifySeen_deliver_other
    (hd : ∀ id events, d.message ≠ .healthEventsUpdated id events) :
    (w.deliver fromStr d).1.notifySeen = w.notifySeen := by
  rw [NotifyWindow.deliver]
  split
  · next hm => exact absurd hm (hd _ _)
  · rfl

private theorem offer_deliver (hd : d.message = .healthEventsUpdated id events) :
    (w.deliver fromStr d).2 =
      (selectNotification id events w.notifySeen w.bootNow).2.map fun event ↦ (id, event) := by
  simp only [NotifyWindow.deliver, hd, NotifyWindow.noteHealthEvents]

/-- Only batches of the Environment offer its events. -/
private theorem batch_of_offer {e : HealthEventDto} (h : (w.deliver fromStr d).2 = some (id, e)) :
    ∃ events, d.message = .healthEventsUpdated id events ∧
      (selectNotification id events w.notifySeen w.bootNow).2 = some e := by
  rw [NotifyWindow.deliver] at h
  split at h
  · next envId events hm =>
    obtain ⟨event, hevent, heq⟩ := Option.map_eq_some_iff.mp h
    obtain ⟨rfl, rfl⟩ := Prod.mk.inj heq
    exact ⟨events, hm, hevent⟩
  · cases h

private theorem after_append (ds es : List Delivery) :
    w.after fromStr (ds ++ es) = (w.after fromStr ds).after fromStr es := by
  rw [NotifyWindow.after, NotifyWindow.after, NotifyWindow.after, List.foldl_append]

private theorem after_concat (ds : List Delivery) (d : Delivery) :
    w.after fromStr (ds ++ [d]) = ((w.after fromStr ds).deliver fromStr d).1 := by
  rw [after_append]
  rfl

private theorem bootNow_after (fromStr : FromStr) (w : NotifyWindow) (ds : List Delivery) :
    (w.after fromStr ds).bootNow = w.bootNow := by
  induction ds using List.reverseRecOn with
  | nil => rfl
  | append_singleton ds d ih => rw [after_concat, bootNow_deliver, ih]

/-- A batch does not change which Environments are listed. -/
private theorem listed_deliver_batch (hd : d.message = .healthEventsUpdated id events)
    (id' : String) : (w.deliver fromStr d).1.listed id' = w.listed id' := by
  rw [NotifyWindow.listed, state_deliver, hd]
  rfl

end Deliver

section Run

variable {fromStr : FromStr} {w : NotifyWindow}

/-- Every remembered key was in a batch of its Environment. -/
private theorem hasKey_of_mem (hstart : w.notifySeen = ∅) (ds : List Delivery) :
    ∀ key ∈ (w.after fromStr ds).notifySeen, ∃ d ∈ ds, HasKey d key.1 key := by
  induction ds using List.reverseRecOn with
  | nil =>
    intro key hkey
    rw [NotifyWindow.after, List.foldl_nil, hstart] at hkey
    cases hkey
  | append_singleton ds d ih =>
    intro key hkey
    rw [after_concat] at hkey
    have hearlier : key ∈ (w.after fromStr ds).notifySeen →
        ∃ d' ∈ ds ++ [d], HasKey d' key.1 key := by
      intro hmem
      obtain ⟨d', hd', hhas⟩ := ih key hmem
      exact ⟨d', List.mem_append_left _ hd', hhas⟩
    by_cases hbatch : ∃ id events, d.message = .healthEventsUpdated id events
    · obtain ⟨id, events, hd⟩ := hbatch
      rw [notifySeen_deliver_batch hd] at hkey
      have hmem := (Finset.mem_filter.mp (evict_subset hkey)).1
      rcases Finset.mem_union.mp hmem with hmem | hmem
      · exact hearlier hmem
      · have hkeys := List.mem_toFinset.mp hmem
        obtain ⟨e, -, rfl⟩ := List.mem_map.mp hkeys
        exact ⟨d, by simp, events, hd, hkeys⟩
    · push Not at hbatch
      rw [notifySeen_deliver_other hbatch] at hkey
      exact hearlier hkey

/-- Within the cap, a key from the boot on stays remembered while its Environment stays
configured. -/
private theorem mem_notifySeen (pre stretch : List Delivery) (d : Delivery) {id : String}
    {key : SeenKey} (hcap : WithinCap fromStr w (pre ++ d :: stretch)) (hhas : HasKey d id key)
    (hboot : w.bootNow ≤ key.2.1) (hstays : StaysConfigured fromStr w pre (d :: stretch) id) :
    key ∈ (w.after fromStr (pre ++ d :: stretch)).notifySeen := by
  have hid : key.1 = id := by
    obtain ⟨events, -, hkey⟩ := hhas
    obtain ⟨e, -, rfl⟩ := List.mem_map.mp hkey
    rfl
  induction stretch using List.reverseRecOn with
  | nil =>
    obtain ⟨events, hd, hkey⟩ := hhas
    rw [after_concat, notifySeen_deliver_batch hd]
    refine mem_evict (Finset.mem_filter.mpr ⟨?_, ?_⟩) hboot (hcap pre d [] id events rfl hd)
    · exact Finset.mem_union_right _ (List.mem_toFinset.mpr hkey)
    · have hlisted := hstays [] List.nil_prefix
      rwa [List.append_nil, ← hid] at hlisted
  | append_singleton stretch d' ih =>
    have hsplit : pre ++ d :: (stretch ++ [d']) = (pre ++ d :: stretch) ++ [d'] := by simp
    have hmem := ih
      (fun pre' d'' post id events heq ↦ hcap pre' d'' (post ++ [d']) id events (by
        rw [hsplit, heq]
        simp))
      fun part hpart ↦ hstays part (hpart.trans ⟨[d'], by simp⟩)
    rw [hsplit, after_concat]
    by_cases hbatch : ∃ id' events, d'.message = .healthEventsUpdated id' events
    · obtain ⟨id', events, hd'⟩ := hbatch
      rw [notifySeen_deliver_batch hd']
      refine mem_evict (Finset.mem_filter.mpr ⟨Finset.mem_union_left _ hmem, ?_⟩) hboot
        (hcap (pre ++ d :: stretch) d' [] id' events hsplit hd')
      have hlisted := hstays (d :: stretch) ⟨[d'], by simp⟩
      rwa [← hid] at hlisted
    · push Not at hbatch
      rw [notifySeen_deliver_other hbatch]
      exact hmem

/-- Within the cap, what is offered is new since its Environment was configured. -/
private theorem newKey_of_offered {pre : List Delivery} {d : Delivery} {id : String}
    {e : HealthEventDto} (hcap : WithinCap fromStr w pre)
    (hoffer : w.offered fromStr pre d = some (id, e)) : NewKey fromStr w pre id (seenKey id e) := by
  intro before d' stretch hpre hhas hstays
  obtain ⟨events, hd, hfire⟩ := batch_of_offer hoffer
  obtain ⟨-, -, -, hunseen, hfireable, -⟩ := exists_split_of_fire hfire
  have hboot : w.bootNow ≤ e.observedAt := by
    have hboth : e.kind = .health ∧ (w.after fromStr pre).bootNow ≤ e.observedAt := by
      simpa [Desktop.fireable] using hfireable
    rw [← bootNow_after fromStr w pre]
    exact hboth.2
  subst hpre
  exact hunseen (mem_notifySeen before stretch d' hcap hhas hboot hstays)

end Run

/-- Over every sequence of messages delivered to the main window in which at most 2000 keys from
its boot on are ever to be remembered at once, each health event is announced at most once while
its Environment stays configured, none from before the boot and no build event is, and every
event that first appears is offered or followed by a new one that is. -/
theorem announcedOnce_of_withinCap (fromStr : FromStr) (bootNow : Int) (ds : List Delivery)
    (hcap : WithinCap fromStr (.boot bootNow) ds) :
    AnnouncedOnce fromStr (.boot bootNow) ds := by
  have hfirstPart : ∀ pre post, ds = pre ++ post → WithinCap fromStr (.boot bootNow) pre := by
    rintro pre post rfl pre' d post' id events rfl hd
    exact hcap pre' d (post' ++ post) id events (by simp) hd
  refine ⟨?_, ?_, ?_⟩
  · rintro pre d mid d' post id e e' hds hoffer hoffer' hat hstays
    have hnew :=
      newKey_of_offered (hfirstPart (pre ++ d :: mid) (d' :: post) (by simp [hds])) hoffer'
    obtain ⟨events, hd, hfire⟩ := batch_of_offer hoffer
    obtain ⟨events', -, hfire'⟩ := batch_of_offer hoffer'
    obtain ⟨before, after, hsplit, -, hfireable, -⟩ := exists_split_of_fire hfire
    obtain ⟨-, -, -, -, hfireable', -⟩ := exists_split_of_fire hfire'
    have hkey : seenKey id e' = seenKey id e := by
      have hkind : e.kind = .health := (by simpa [Desktop.fireable] using hfireable : _ ∧ _).1
      have hkind' : e'.kind = .health := (by simpa [Desktop.fireable] using hfireable' : _ ∧ _).1
      simp [seenKey, hat, hkind, hkind']
    refine hnew pre d mid rfl ⟨events, hd, ?_⟩ hstays
    rw [hkey, hsplit]
    exact List.mem_map_of_mem (by simp)
  · rintro pre d post id e - hoffer
    obtain ⟨events, -, hfire⟩ := batch_of_offer hoffer
    obtain ⟨-, -, -, -, hfireable, -⟩ := exists_split_of_fire hfire
    rw [bootNow_after] at hfireable
    simpa [Desktop.fireable] using hfireable
  · rintro pre d post id events e hds hd hmem hkind hboot hfirst
    let seen := ((NotifyWindow.boot bootNow).after fromStr pre).notifySeen
    have hunseen : seenKey id e ∉ seen := by
      intro hseen
      obtain ⟨d', hd', hhas⟩ := hasKey_of_mem rfl pre _ hseen
      exact hfirst d' hd' hhas
    have hfireable :
        Desktop.fireable ((NotifyWindow.boot bootNow).after fromStr pre).bootNow e := by
      rw [bootNow_after]
      simpa [Desktop.fireable] using ⟨hkind, hboot⟩
    obtain ⟨e', hfire⟩ := exists_fire hmem hunseen hfireable
    have hoffer : (NotifyWindow.boot bootNow).offered fromStr pre d = some (id, e') := by
      rw [NotifyWindow.offered, offer_deliver hd, hfire]
      rfl
    refine ⟨e', hoffer, newKey_of_offered (hfirstPart pre (d :: post) hds) hoffer, ?_⟩
    obtain ⟨before, after, hsplit, -, -, hlast⟩ := exists_split_of_fire hfire
    rw [hsplit, List.mem_append, List.mem_cons] at hmem
    rcases hmem with hmem | hmem | hmem
    · exact Or.inr ⟨before, after, hsplit, hmem⟩
    · exact Or.inl hmem.symm
    · exact absurd ⟨hunseen, hfireable⟩ (hlast e hmem)

/-- The keys of all batches of a sequence. -/
def batchKeys (ds : List Delivery) : List SeenKey :=
  ds.flatMap fun d ↦
    match d.message with
    | .healthEventsUpdated id events => events.map (seenKey id)
    | _ => []

private theorem mem_batchKeys {ds : List Delivery} {d : Delivery} {id : String} {key : SeenKey}
    (hd : d ∈ ds) (hhas : HasKey d id key) : key ∈ batchKeys ds := by
  obtain ⟨events, hm, hkey⟩ := hhas
  refine List.mem_flatMap.mpr ⟨d, hd, ?_⟩
  rw [hm]
  exact hkey

/-- A session with at most 2000 published events stays within the cap. -/
theorem withinCap_of_length_le (fromStr : FromStr) (bootNow : Int) (ds : List Delivery)
    (h : (batchKeys ds).length ≤ notifySeenCap) : WithinCap fromStr (.boot bootNow) ds := by
  rintro pre d post id events rfl hd
  refine le_trans (le_trans (Finset.card_le_card fun key hkey ↦ ?_)
    (List.toFinset_card_le (batchKeys (pre ++ d :: post)))) h
  rw [List.mem_toFinset]
  rcases Finset.mem_union.mp (Finset.mem_filter.mp (Finset.mem_filter.mp hkey).1).1 with
    hseen | hnew
  · obtain ⟨d', hd', hhas⟩ := hasKey_of_mem rfl pre key hseen
    exact mem_batchKeys (List.mem_append_left _ hd') hhas
  · exact mem_batchKeys (List.mem_append_right _ List.mem_cons_self)
      ⟨events, hd, List.mem_toFinset.mp hnew⟩

/-- A turn of an Environment to degraded. -/
def turn (observedAt : Int) : HealthEventDto :=
  ⟨observedAt, .health, some .healthy, .degraded, none, none⟩

/-- A published batch of such turns. -/
def batch (id : String) (times : List Nat) : Delivery :=
  ⟨.healthEventsUpdated id (times.map fun t : Nat ↦ turn t), .sorted⟩

/-- The published list of two Environments. -/
def lists2 : Delivery :=
  ⟨.environmentsUpdated [waitingSummary "prod", waitingSummary "test"], .sorted⟩

/-- A repeated batch with one new event announces each event once. -/
theorem announcedOnce_of_repeated_batch :
    AnnouncedOnce (fun _ ↦ none) (.boot 0) [lists2, batch "prod" [1], batch "prod" [1, 60]] :=
  announcedOnce_of_withinCap (fun _ ↦ none) 0 _
    (withinCap_of_length_le _ _ _ (by decide))

section Eviction

/-- Twenty later batches of a hundred turns of the other Environment. -/
def laterBatches (n : Nat) : List Delivery :=
  (List.range n).map fun i ↦ batch "test" ((List.range' (2 + 100 * i) 100))

/-- The key of one later turn. -/
private def laterKey (i : Nat) : SeenKey := ("test", (2 + i : Nat), "health")

/-- The key of the first Environment's turn and those of the later turns. -/
private def keysAfter (n : Nat) : Finset SeenKey :=
  insert ("prod", 1, "health") ((Finset.range n).image laterKey)

private theorem card_keysAfter (n : Nat) : (keysAfter n).card = n + 1 := by
  have hinj : Function.Injective laterKey := by
    intro i j hij
    simpa [laterKey] using hij
  rw [keysAfter, Finset.card_insert_of_notMem, Finset.card_image_of_injective _ hinj,
    Finset.card_range]
  simp [laterKey]

/-- The window after the first Environment's turn. -/
private def opened : NotifyWindow :=
  (NotifyWindow.boot 0).after (fun _ ↦ none) [lists2, batch "prod" [1]]

private theorem listed_opened : opened.listed "prod" = true ∧ opened.listed "test" = true := by
  decide +kernel

private theorem laterBatches_succ (n : Nat) :
    laterBatches (n + 1) = laterBatches n ++ [batch "test" (List.range' (2 + 100 * n) 100)] := by
  rw [laterBatches, List.range_succ, List.map_append]
  rfl

private theorem listed_after_batches (w : NotifyWindow) (ds : List Delivery)
    (hds : ∀ d ∈ ds, ∃ id events, d.message = .healthEventsUpdated id events) (id : String) :
    (w.after (fun _ ↦ none) ds).listed id = w.listed id := by
  induction ds using List.reverseRecOn with
  | nil => rfl
  | append_singleton ds d ih =>
    obtain ⟨id', events, hd⟩ := hds d (by simp)
    rw [after_concat, listed_deliver_batch hd]
    exact ih fun d' hd' ↦ hds d' (List.mem_append_left _ hd')

private theorem batch_of_mem_laterBatches {n : Nat} {d : Delivery} (h : d ∈ laterBatches n) :
    ∃ id events, d.message = .healthEventsUpdated id events := by
  obtain ⟨i, -, rfl⟩ := List.mem_map.mp h
  exact ⟨_, _, rfl⟩

private theorem notifySeen_opened : opened.notifySeen = keysAfter 0 := by
  have hremembered : ((NotifyWindow.boot 0).after (fun _ ↦ none) [lists2]).remembered "prod"
      [turn 1] = keysAfter 0 := by
    have hlisted : ((NotifyWindow.boot 0).after (fun _ ↦ none) [lists2]).listed "prod" = true := by
      decide +kernel
    ext key
    simp only [NotifyWindow.remembered, keysAfter, Finset.range_zero, Finset.image_empty,
      Finset.mem_filter, Finset.mem_union, List.map_cons, List.map_nil, List.mem_toFinset,
      List.mem_singleton, Finset.mem_insert, Finset.notMem_empty, or_false]
    constructor
    · rintro ⟨hseen | rfl, -⟩
      · cases hseen
      · rfl
    · rintro rfl
      exact ⟨Or.inr rfl, hlisted⟩
  have hseen : opened.notifySeen = evict .sorted (((NotifyWindow.boot 0).after (fun _ ↦ none)
      [lists2]).remembered "prod" [turn 1]) := notifySeen_deliver_batch rfl
  rw [hseen, hremembered, evict, if_neg (by rw [card_keysAfter]; decide)]

/-- What a later batch adds. -/
private theorem remembered_laterBatch {n : Nat}
    (hseen : (opened.after (fun _ ↦ none) (laterBatches n)).notifySeen = keysAfter (100 * n)) :
    (opened.after (fun _ ↦ none) (laterBatches n)).remembered "test"
        ((List.range' (2 + 100 * n) 100).map fun t : Nat ↦ turn t) = keysAfter (100 * (n + 1)) := by
  have hlisted := listed_after_batches opened (laterBatches n) fun d ↦ batch_of_mem_laterBatches
  ext key
  simp only [NotifyWindow.remembered, hseen, keysAfter, Finset.mem_filter, Finset.mem_union,
    List.mem_toFinset, List.map_map, List.mem_map, Finset.mem_insert, Finset.mem_image,
    Finset.mem_range, hlisted, List.mem_range'_1]
  constructor
  · rintro ⟨(rfl | ⟨i, hi, rfl⟩) | ⟨t, ht, rfl⟩, -⟩
    · exact Or.inl rfl
    · exact Or.inr ⟨i, by omega, rfl⟩
    · refine Or.inr ⟨t - 2, by omega, ?_⟩
      rw [laterKey, show 2 + (t - 2) = t by omega]
      rfl
  · rintro (rfl | ⟨i, hi, rfl⟩)
    · exact ⟨Or.inl (Or.inl rfl), listed_opened.1⟩
    · refine ⟨?_, listed_opened.2⟩
      by_cases hold : i < 100 * n
      · exact Or.inl (Or.inr ⟨i, hold, rfl⟩)
      · exact Or.inr ⟨2 + i, by omega, rfl⟩

/-- Up to nineteen later batches everything is remembered. -/
private theorem notifySeen_laterBatches {n : Nat} (hn : n ≤ 19) :
    (opened.after (fun _ ↦ none) (laterBatches n)).notifySeen = keysAfter (100 * n) := by
  induction n with
  | zero => exact notifySeen_opened
  | succ n ih =>
    have hseen := ih (by omega)
    rw [laterBatches_succ, after_concat, notifySeen_deliver_batch rfl, remembered_laterBatch hseen,
      evict, if_neg]
    rw [card_keysAfter, notifySeenCap]
    omega

/-- The twentieth evicts the turn of the first Environment. -/
private theorem evicted_laterBatches :
    ("prod", 1, "health") ∉ (opened.after (fun _ ↦ none) (laterBatches 20)).notifySeen := by
  have hseen := notifySeen_laterBatches (le_refl 19)
  rw [laterBatches_succ, after_concat, notifySeen_deliver_batch rfl, remembered_laterBatch hseen]
  refine notMem_evict (by rw [card_keysAfter]; rfl) ?_
  intro k hk hne
  rcases Finset.mem_insert.mp hk with rfl | hk
  · exact absurd rfl hne
  · obtain ⟨i, -, rfl⟩ := Finset.mem_image.mp hk
    simp only [laterKey]
    omega

/-- A turn is announced, two thousand later turns of another Environment evict its key, and the
next publish of the same events announces it again. -/
theorem announced_again_after_eviction :
    ¬AnnouncedOnce (fun _ ↦ none) (.boot 0)
      (lists2 :: batch "prod" [1] :: (laterBatches 20 ++ [batch "prod" [1]])) := by
  intro h
  have hbatches : ∀ d ∈ batch "prod" [1] :: laterBatches 20,
      ∃ id events, d.message = .healthEventsUpdated id events := by
    intro d hd
    rcases List.mem_cons.mp hd with rfl | hd
    · exact ⟨_, _, rfl⟩
    · exact batch_of_mem_laterBatches hd
  refine h.once [lists2] (batch "prod" [1]) (laterBatches 20) (batch "prod" [1]) [] "prod" (turn 1)
    (turn 1) rfl (by rfl) ?_ rfl ?_
  · have hunseen : seenKey "prod" (turn 1) ∉
        (opened.after (fun _ ↦ none) (laterBatches 20)).notifySeen := evicted_laterBatches
    have hboot : (opened.after (fun _ ↦ none) (laterBatches 20)).bootNow = 0 := by
      rw [bootNow_after]
      rfl
    have hfires : fireable 0 (turn 1) = true := by decide
    have hafter : (NotifyWindow.boot 0).after (fun _ ↦ none)
        ([lists2] ++ batch "prod" [1] :: laterBatches 20) =
          opened.after (fun _ ↦ none) (laterBatches 20) :=
      after_append [lists2, batch "prod" [1]] (laterBatches 20)
    have hoffer : ∀ w : NotifyWindow, seenKey "prod" (turn 1) ∉ w.notifySeen → w.bootNow = 0 →
        (w.deliver (fun _ ↦ none) (batch "prod" [1])).2 = some ("prod", turn 1) := by
      intro w hseen hnow
      have hone : (batch "prod" [1]).message = .healthEventsUpdated "prod" [turn 1] := rfl
      rw [offer_deliver hone, selectNotification_eq, hnow]
      simp [hseen, hfires]
    rw [NotifyWindow.offered, hafter]
    exact hoffer _ hunseen hboot
  · intro part hpart
    have hlisted : ((NotifyWindow.boot 0).after (fun _ ↦ none) [lists2]).listed "prod" = true := by
      decide +kernel
    rw [after_append, listed_after_batches _ part fun d hd ↦ hbatches d (hpart.subset hd)]
    exact hlisted

end Eviction

end Daku.Desktop
