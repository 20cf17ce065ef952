import Daku.Base.Newest
import Daku.Desktop.DashboardState
import Mathlib.Data.Finset.Sort
import Mathlib.Data.Prod.Lex
import Mathlib.Data.String.Basic

/-!
# Health notifications of the main window

`select_notification` of `src/notifications.rs:24–51` and `note_health_events` of
`src/app.rs:237–259`, with the listener that calls it (`src/app.rs:1134–1145`). What passes here
is offered to the notification gate; settings, mutes and quiet hours only silence it further.
-/

namespace Daku.Desktop

open Daku.Base Daku.Protocol Daku.Wire
open Daku.Health (EnvironmentSummary HealthEventDto)

/-- Seen key: Environment id, event time, kind (`notifications.rs:25`). -/
abbrev SeenKey := String × Int × String

/-- Bound on remembered notification decisions (`app.rs:116`). -/
def notifySeenCap : Nat := 2000

/-- The key of an event (`notifications.rs:38–42`). -/
def seenKey (envId : String) (event : HealthEventDto) : SeenKey :=
  (envId, event.observedAt, event.kind.asStr)

/-- A health transition from the boot of the window on (`notifications.rs:47`). -/
def fireable (bootNow : Int) (event : HealthEventDto) : Bool :=
  event.kind = .health ∧ bootNow ≤ event.observedAt

/-- Keys to record and the latest fireable transition of a batch (`notifications.rs:29–51`). -/
def selectNotification (envId : String) (events : List HealthEventDto) (seen : Finset SeenKey)
    (bootNow : Int) : List SeenKey × Option HealthEventDto :=
  events.foldl (fun acc event ↦
    if seenKey envId event ∈ seen then acc
    else (acc.1 ++ [seenKey envId event],
      if fireable bootNow event then some event else acc.2)) ([], none)

/-- An order in which a hash set is visited: every element once, in no particular order. -/
structure Visit where
  order : Finset SeenKey → List SeenKey
  nodup : ∀ seen, (order seen).Nodup
  mem_order : ∀ {seen key}, key ∈ order seen ↔ key ∈ seen

/-- Keys by their three parts in turn. -/
private def keyLe (a b : SeenKey) : Prop :=
  toLex (a.1, toLex a.2) ≤ toLex (b.1, toLex b.2)

private instance : DecidableRel keyLe := fun a b ↦
  inferInstanceAs (Decidable (toLex (a.1, toLex a.2) ≤ toLex (b.1, toLex b.2)))

private instance : IsTrans SeenKey keyLe :=
  ⟨fun _ _ _ h h' ↦ @le_trans (String ×ₗ Int ×ₗ String) _ _ _ _ h h'⟩

private instance : Std.Total keyLe := ⟨fun _ _ ↦ @le_total (String ×ₗ Int ×ₗ String) _ _ _⟩

private instance : Std.Antisymm keyLe := ⟨fun a b h h' ↦ by
  have heq : toLex (a.1, toLex a.2) = toLex (b.1, toLex b.2) := le_antisymm h h'
  simpa [Prod.ext_iff] using heq⟩

/-- A visit in the order of the keys. -/
def Visit.sorted : Visit where
  order seen := seen.sort keyLe
  nodup seen := seen.sort_nodup keyLe
  mem_order := Finset.mem_sort keyLe

/-- Past the cap the oldest keys go (`app.rs:252–259`). -/
def evict (visit : Visit) (seen : Finset SeenKey) : Finset SeenKey :=
  if notifySeenCap < seen.card then
    ((oldestFirst (fun key ↦ key.2.1) (visit.order seen)).drop
      (seen.card - notifySeenCap)).toFinset
  else seen

/-- The main window, as far as notifications go (`app.rs:70–88`). -/
structure NotifyWindow where
  state : DashboardState
  bootNow : Int
  notifySeen : Finset SeenKey

/-- A dashboard message as it reaches the window, and how the hash set is visited then. -/
structure Delivery where
  message : ServerMessage
  visit : Visit

namespace NotifyWindow

/-- The window at boot (`app.rs:153–170`). -/
def boot (bootNow : Int) : NotifyWindow := ⟨.new, bootNow, ∅⟩

/-- The window lists the Environment. -/
def listed (w : NotifyWindow) (id : String) : Bool := DashboardState.lists w.state.environments id

/-- One batch of health events: what it leaves, and the event offered to the gate
(`app.rs:242–260`). -/
def noteHealthEvents (w : NotifyWindow) (visit : Visit) (envId : String)
    (events : List HealthEventDto) : NotifyWindow × Option HealthEventDto :=
  let (record, fire) := selectNotification envId events w.notifySeen w.bootNow
  let known := (w.notifySeen ∪ record.toFinset).filter fun key ↦ w.listed key.1
  ({ w with notifySeen := evict visit known }, fire)

/-- One message of the listener: events are noted, then the message is applied
(`app.rs:1137–1145`). -/
def deliver (fromStr : FromStr) (w : NotifyWindow) (d : Delivery) :
    NotifyWindow × Option (String × HealthEventDto) :=
  match d.message with
  | .healthEventsUpdated envId events =>
    let (w', fire) := w.noteHealthEvents d.visit envId events
    ({ w' with state := w'.state.apply fromStr d.message }, fire.map fun event ↦ (envId, event))
  | m => ({ w with state := w.state.apply fromStr m }, none)

/-- The window after a sequence of messages. -/
def after (fromStr : FromStr) (w : NotifyWindow) (ds : List Delivery) : NotifyWindow :=
  ds.foldl (fun w d ↦ (w.deliver fromStr d).1) w

/-- The event a message offers after others. -/
def offered (fromStr : FromStr) (w : NotifyWindow) (pre : List Delivery) (d : Delivery) :
    Option (String × HealthEventDto) :=
  ((w.after fromStr pre).deliver fromStr d).2

/-- What is remembered of a batch before the cap: the keys seen so far and the batch's, of
listed Environments. -/
def remembered (w : NotifyWindow) (envId : String) (events : List HealthEventDto) :
    Finset SeenKey :=
  (w.notifySeen ∪ (events.map (seenKey envId)).toFinset).filter fun key ↦ w.listed key.1

end NotifyWindow

section Select

variable {envId : String} {events : List HealthEventDto} {seen : Finset SeenKey} {bootNow : Int}

/-- What a batch selects: the unseen keys and the last unseen fireable event. -/
theorem selectNotification_eq (envId : String) (events : List HealthEventDto)
    (seen : Finset SeenKey) (bootNow : Int) :
    selectNotification envId events seen bootNow =
      ((events.map (seenKey envId)).filter (· ∉ seen),
        (events.filter fun e ↦ seenKey envId e ∉ seen ∧ fireable bootNow e).getLast?) := by
  rw [selectNotification]
  induction events using List.reverseRecOn with
  | nil => rfl
  | append_singleton events e ih =>
    rw [List.foldl_append, ih, List.foldl_cons, List.foldl_nil, List.map_append, List.filter_append,
      List.filter_append]
    by_cases hseen : seenKey envId e ∈ seen
    · simp [hseen]
    · by_cases hfire : fireable bootNow e
      · simp [hseen, hfire]
      · simp [hseen, hfire]

/-- The selected event is an unseen fireable one, and none such follows it in the batch. -/
theorem exists_split_of_fire {event : HealthEventDto}
    (h : (selectNotification envId events seen bootNow).2 = some event) :
    ∃ before after, events = before ++ event :: after ∧ seenKey envId event ∉ seen ∧
      fireable bootNow event ∧
      ∀ e ∈ after, ¬(seenKey envId e ∉ seen ∧ fireable bootNow e) := by
  rw [selectNotification_eq] at h
  obtain ⟨init, hinit⟩ := List.getLast?_eq_some_iff.mp h
  obtain ⟨before, after, hsplit, hbefore, hafter⟩ := List.filter_eq_append_iff.mp hinit
  obtain ⟨skipped, tail, htail, hskipped, hevent, hrest⟩ := List.filter_eq_cons_iff.mp hafter
  refine ⟨before ++ skipped, tail, by rw [hsplit, htail, List.append_assoc], ?_, ?_, ?_⟩
  · exact (by simpa using hevent : _ ∧ _).1
  · exact (by simpa using hevent : _ ∧ _).2
  · intro e he
    simpa using List.filter_eq_nil_iff.mp hrest e he

/-- A batch with an unseen fireable event offers one. -/
theorem exists_fire {event : HealthEventDto} (hmem : event ∈ events)
    (hseen : seenKey envId event ∉ seen) (hfire : fireable bootNow event) :
    ∃ e, (selectNotification envId events seen bootNow).2 = some e := by
  have hmem' : event ∈ events.filter fun e ↦ seenKey envId e ∉ seen ∧ fireable bootNow e :=
    List.mem_filter.mpr ⟨hmem, by simpa using ⟨hseen, hfire⟩⟩
  rw [selectNotification_eq]
  exact ⟨_, List.getLast?_eq_some_getLast (List.ne_nil_of_mem hmem')⟩

end Select

section Evict

variable {visit : Visit} {seen : Finset SeenKey} {key : SeenKey} {bound : Int}

theorem evict_subset : evict visit seen ⊆ seen := by
  intro key hkey
  rw [evict] at hkey
  split at hkey
  · exact visit.mem_order.mp (mem_oldestFirst.mp (List.mem_of_mem_drop (List.mem_toFinset.mp hkey)))
  · exact hkey

/-- The list of a visit is as long as the set is large. -/
theorem Visit.length_order (visit : Visit) (seen : Finset SeenKey) :
    (visit.order seen).length = seen.card := by
  have hset : (visit.order seen).toFinset = seen := by
    ext key
    rw [List.mem_toFinset, visit.mem_order]
  rw [← List.toFinset_card_of_nodup (visit.nodup seen), hset]

/-- One key past the cap, the strictly oldest one goes. -/
theorem notMem_evict (hcard : seen.card = notifySeenCap + 1)
    (holdest : ∀ k ∈ seen, k ≠ key → key.2.1 < k.2.1) : key ∉ evict visit seen := by
  rw [evict, if_pos (by omega), List.mem_toFinset, hcard, Nat.add_sub_cancel_left,
    List.drop_one]
  let rows := oldestFirst (fun k : SeenKey ↦ k.2.1) (visit.order seen)
  change key ∉ rows.tail
  have hnodup : rows.Nodup :=
    (perm_oldestFirst (fun k : SeenKey ↦ k.2.1) _).nodup_iff.mpr (visit.nodup seen)
  have hsorted : rows.Pairwise fun a b ↦ a.2.1 ≤ b.2.1 := pairwise_oldestFirst _ _
  have hmem : ∀ k ∈ rows, k ∈ seen := fun k hk ↦ visit.mem_order.mp (mem_oldestFirst.mp hk)
  cases hrows : rows with
  | nil => exact List.not_mem_nil
  | cons first rest =>
    rw [hrows] at hnodup hsorted hmem
    intro hkey
    have hle := (List.pairwise_cons.mp hsorted).1 key hkey
    have hne : first ≠ key := fun heq ↦ (List.nodup_cons.mp hnodup).1 (heq ▸ hkey)
    have hlt := holdest first (hmem first List.mem_cons_self) hne
    omega

/-- Keys from a bound on survive while at most the cap of them are remembered. -/
theorem mem_evict (hkey : key ∈ seen) (hbound : bound ≤ key.2.1)
    (hcount : (seen.filter fun k ↦ bound ≤ k.2.1).card ≤ notifySeenCap) :
    key ∈ evict visit seen := by
  rw [evict]
  split
  · rw [List.mem_toFinset, ← visit.length_order]
    refine mem_drop_oldestFirst (visit.mem_order.mpr hkey) hbound ?_
    have hnodup := (visit.nodup seen).filter (fun k ↦ decide (bound ≤ k.2.1))
    rw [← List.toFinset_card_of_nodup hnodup]
    refine le_trans (Finset.card_le_card fun k hk ↦ ?_) hcount
    have hk' := List.mem_filter.mp (List.mem_toFinset.mp hk)
    exact Finset.mem_filter.mpr ⟨visit.mem_order.mp hk'.1, by simpa using hk'.2⟩
  · exact hkey

end Evict

end Daku.Desktop
