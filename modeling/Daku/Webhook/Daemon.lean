import Daku.Base.Interference
import Daku.Webhook.Requeue
import Mathlib.Data.Fintype.Basic

/-!
# The relay among other threads and processes

A daemon runs at most one relay pass at a time (`webhook.rs:218–233`). Between two steps of a
pass the collector records and prunes events, a requeue resets a cursor and clears dead letters
in a process of its own, and a crash may end the pass and with it everything kept in memory.
-/

namespace Daku.Webhook

open Daku.Base Daku.Base.Prog Daku.Store

/-- Statements that others issue: all but those that keep dead letters. -/
def External : Statement → Bool
  | .insertWebhookDeadLetter _ => false
  | .keepNewestWebhookDeadLetters _ => false
  | _ => true

namespace Relay

/-- Recorded events whose rows an age bound removes. -/
def agedOut (environmentId : String) (cutoff : Int) (s : Relay) : List EventKey :=
  s.history.recorded.filter fun k ↦ s.db.healthEvents.any fun e ↦
    e.key = k ∧ e.environmentId = environmentId ∧ e.observedAt < cutoff

/-- Effect of another process's statement on the ledger. -/
def noteExternal (c : Statement) (s : Relay) : History :=
  match c with
  | .recordHealthEvent event =>
    if (s.db.webhookCursor event.environmentId).isSome ∧
        ∀ e ∈ s.db.healthEvents, e.key ≠ event.key then
      { s.history with recorded := s.history.recorded ++ [event.key] }
    else s.history
  | .deleteHealthEventsBefore environmentId cutoff =>
    { s.history with aged := s.history.aged ++ s.agedOut environmentId cutoff }
  | .deleteWebhookDeadLetters environmentId =>
    { s.history with requeued := s.history.requeued ++
        ((s.db.webhookDeadLetters.filter fun l ↦ l.environmentId = environmentId).map
          WebhookDeadLetter.key) }
  | _ => s.history

/-- A statement of another process. -/
def external (c : Statement) (s : Relay) : Relay :=
  { s with db := Db.commit c s.db, history := s.noteExternal c }

/-- Events the running pass has loaded, by key. -/
def loaded (s : Relay) : List EventKey :=
  (s.pass.map fun p ↦ p.events.map HealthEvent.key).getD []

end Relay

/-- A daemon with its relay and the rest of the running pass. -/
structure Daemon where
  relay : Relay
  running : Option (RelayProg Unit)

/-- What can happen next. -/
inductive Action where
  /-- A relay tick finds no pass in flight and starts one. -/
  | begin (now : Int)
  /-- The running pass takes its next step. -/
  | proceed
  /-- Another thread or process issues a statement. -/
  | external (c : Statement)
  /-- The daemon dies, to be restarted with empty marks. -/
  | crash
  deriving DecidableEq

namespace Daemon

/-- A daemon that has just started over a database. -/
def started (db : Db) (script : Nat → Bool) : Daemon := ⟨.started db script, none⟩

/-- One step; an action that is not possible changes nothing. -/
def step (d : Daemon) : Action → Daemon
  | .begin now =>
    match d.running with
    | none => { d with running := some (relayTo now) }
    | some _ => d
  | .proceed =>
    match d.running with
    | none => d
    | some (.done _) => ⟨{ d.relay with pass := none }, none⟩
    | some p => ⟨(p.next d.relay).2, some (p.next d.relay).1⟩
  | .external c => if External c then { d with relay := d.relay.external c } else d
  | .crash => ⟨{ d.relay with lastSent := fun _ ↦ none, pass := none }, none⟩

/-- The daemon after a list of actions. -/
def after (d : Daemon) (actions : List Action) : Daemon := actions.foldl step d

/-- Single steps of a pass that nobody disturbs are steps of its program. -/
theorem after_proceed (p : RelayProg Unit) (s : Relay) (n : Nat) {a : Unit} {t : Relay}
    (h : (fun c : RelayProg Unit × Relay ↦ c.1.next c.2)^[n] (p, s) = (.done a, t)) :
    ∃ m, (⟨s, some p⟩ : Daemon).after (List.replicate m .proceed) =
      ⟨{ t with pass := none }, none⟩ := by
  induction n generalizing p s with
  | zero =>
    cases h
    exact ⟨1, rfl⟩
  | succ n ih =>
    rw [Function.iterate_succ_apply] at h
    cases p with
    | done b =>
      exact ih (.done b) s h
    | read k =>
      obtain ⟨m, hm⟩ := ih (k s) s h
      exact ⟨m + 1, hm⟩
    | exec c p =>
      obtain ⟨m, hm⟩ := ih p (commit c s) h
      exact ⟨m + 1, hm⟩

/-- An undisturbed pass leaves what a run of `relay_to` leaves. -/
theorem after_undisturbed (d : Daemon) (now : Int) (h : d.running = none) :
    ∃ m, d.after (.begin now :: List.replicate m .proceed) =
      ⟨{ (relayTo now).run d.relay with pass := none }, none⟩ := by
  obtain ⟨n, hn⟩ := next_iterate (relayTo now) d.relay
  obtain ⟨m, hm⟩ := after_proceed (relayTo now) d.relay n hn
  refine ⟨m, ?_⟩
  rw [← hm]
  simp only [after, List.foldl_cons, step, h]

end Daemon

/-- Every statement of a requeue is one of another process. -/
theorem external_requeue (environmentId : String) :
    Only (fun c ↦ External c = true) (requeueWebhookDeadLetters environmentId) := by
  unfold requeueWebhookDeadLetters
  refine only_bind (only_query _ _) fun dead ↦ ?_
  split
  · exact only_bind (only_query _ _) fun _ ↦ only_done _ _
  · refine only_bind (only_collect _ fun _ _ ↦ only_query _ _) fun _ ↦ ?_
    exact only_bind (only_issue rfl) fun _ ↦ only_bind (only_issue rfl) fun _ ↦ only_done _ _

/-- The event has reached the endpoint, is kept as a dead letter or was requeued from there, or
was beyond the backfill bound when the relay passed it. -/
def Delivered (s : Relay) (k : EventKey) : Prop :=
  k ∈ s.history.posted ∨ k ∈ s.db.webhookDeadLetters.map WebhookDeadLetter.key ∨
    k ∈ s.history.requeued ∨ k ∈ s.history.stale

instance (s : Relay) (k : EventKey) : Decidable (Delivered s k) :=
  inferInstanceAs (Decidable (_ ∨ _))

/-- The event is later than the persisted cursor of its Environment. -/
def AboveCursor (s : Relay) (k : EventKey) : Prop :=
  ∀ c ∈ s.db.webhookCursor k.1, c < k.2.1

instance (s : Relay) (k : EventKey) : Decidable (AboveCursor s k) :=
  inferInstanceAs (Decidable (∀ c ∈ s.db.webhookCursor k.1, c < k.2.1))

/-- Every event recorded since its Environment has a cursor, and at or below that cursor, is
delivered. -/
def CursorSound (s : Relay) : Prop :=
  ∀ k ∈ s.history.recorded, ∀ c ∈ s.db.webhookCursor k.1, k.2.1 ≤ c → Delivered s k

instance (s : Relay) : Decidable (CursorSound s) :=
  inferInstanceAs (Decidable (∀ k ∈ s.history.recorded,
    ∀ c ∈ s.db.webhookCursor k.1, k.2.1 ≤ c → Delivered s k))

/-- The event is later than everything the relay has passed or is about to pass: the cursor,
the mark in memory, the mark of the running turn, and the events the turn has loaded. -/
structure Beyond (s : Relay) (k : EventKey) : Prop where
  cursor : AboveCursor s k
  memory : ∀ m ∈ s.lastSent k.1, m < k.2.1
  turn : ∀ p ∈ s.pass, ∀ turn ∈ p.turn, turn.1 = k.1 → turn.2.getD p.now < k.2.1
  loaded : ∀ l ∈ s.loaded, l.1 = k.1 → l.2.1 < k.2.1

instance (s : Relay) (k : EventKey) : Decidable (Beyond s k) :=
  decidable_of_iff (AboveCursor s k ∧ (∀ m ∈ s.lastSent k.1, m < k.2.1) ∧
      (∀ p ∈ s.pass, ∀ turn ∈ p.turn, turn.1 = k.1 → turn.2.getD p.now < k.2.1) ∧
      ∀ l ∈ s.loaded, l.1 = k.1 → l.2.1 < k.2.1)
    ⟨fun ⟨h₁, h₂, h₃, h₄⟩ ↦ ⟨h₁, h₂, h₃, h₄⟩, fun h ↦ ⟨h.cursor, h.memory, h.turn, h.loaded⟩⟩

/-- What a step of a pass must meet. With `apart` the cursor is never stored over a loaded event
that still waits for its turn and is not beyond the backfill bound. -/
def Admits (apart : Bool) : Move → Relay → Prop
  -- The clock has not gone back to where an aged event would be fresh.
  | .begin now, s =>
    ∀ k ∈ s.history.aged, Delivered s k ∨ backfillSecs < satSub now k.2.1
  -- The bound on loaded events leaves out nothing that is still to be delivered.
  | .loadEvents environmentId mark, s =>
    ∀ e ∈ s.db.healthEvents, e.environmentId = environmentId → mark < e.observedAt →
      e.key ∈ s.history.recorded → Delivered s e.key ∨
        e ∈ loadHealthEvents environmentId relayEventLimit s.db
  -- The bound on dead letters drops none, unless its event is delivered otherwise.
  | .sql (.keepNewestWebhookDeadLetters environmentId), s =>
    ∀ l ∈ s.db.webhookDeadLetters, l.environmentId = environmentId →
      l ∈ newestDeadLetters environmentId s.db.webhookDeadLetters ∨
        l.key ∈ s.history.posted ∨ l.key ∈ s.history.requeued ∨ l.key ∈ s.history.stale
  | .sql (.storeWebhookCursor _ observedAt), s =>
    apart = true → ∀ k ∈ s.loaded, k ∈ s.history.recorded →
      Delivered s k ∨ observedAt < k.2.1 ∨ ∃ p ∈ s.pass, backfillSecs < satSub p.now k.2.1
  | _, _ => True

/-- What a statement of another process must meet. -/
def AdmitsExternal : Statement → Relay → Prop
  -- A new event is later than everything passed or loaded.
  | .recordHealthEvent event, s =>
    (s.db.webhookCursor event.environmentId).isSome →
      (∀ e ∈ s.db.healthEvents, e.key ≠ event.key) → Beyond s event.key
  -- The count bound of the log drops nothing that is still to be delivered.
  | .keepNewestHealthEvents environmentId, s =>
    ∀ e ∈ s.db.healthEvents,
      e ∉ keepNewest HealthEvent.environmentId HealthEvent.observedAt environmentId
        s.db.healthEvents → e.key ∈ s.history.recorded → Delivered s e.key
  -- What the age bound drops is beyond the backfill bound of the running pass.
  | .deleteHealthEventsBefore environmentId cutoff, s =>
    ∀ k ∈ s.agedOut environmentId cutoff, ∀ p ∈ s.pass,
      Delivered s k ∨ backfillSecs < satSub p.now k.2.1
  -- A requeue finds a cursor and moves it over nothing that is still to be delivered.
  | .storeWebhookCursor environmentId resetTo, s =>
    (s.db.webhookCursor environmentId).isSome ∧
      ∀ k ∈ s.history.recorded, k.1 = environmentId → AboveCursor s k → k.2.1 ≤ resetTo →
        Delivered s k
  | _, _ => True

/-- What one action must meet. Without `apart` it is a crash that must not come while a loaded
event at or below the cursor still waits for its turn. -/
def AdmitsAction (apart : Bool) (d : Daemon) : Action → Prop
  | .begin _ => True
  | .proceed => ∀ p ∈ d.running, NextAllowed (Admits apart) p d.relay
  | .external c => AdmitsExternal c d.relay
  | .crash => apart = false → ∀ k ∈ d.relay.loaded, k ∈ d.relay.history.recorded →
      Delivered d.relay k ∨ AboveCursor d.relay k

/-- Every action of a run meets the condition in the state it is taken in. -/
def AdmitsRun (apart : Bool) (d : Daemon) : List Action → Prop
  | [] => True
  | action :: actions => AdmitsAction apart d action ∧ AdmitsRun apart (d.step action) actions

section Decidability

instance decidableAdmits (apart : Bool) (c : Move) (s : Relay) : Decidable (Admits apart c s) := by
  unfold Admits
  split <;> infer_instance

instance decidableAdmitsExternal (c : Statement) (s : Relay) :
    Decidable (AdmitsExternal c s) := by
  unfold AdmitsExternal
  split <;> infer_instance

instance decidableAdmitsAction (apart : Bool) (d : Daemon) (action : Action) :
    Decidable (AdmitsAction apart d action) := by
  unfold AdmitsAction
  split <;> infer_instance

instance decidableAdmitsRun (apart : Bool) :
    (d : Daemon) → (actions : List Action) → Decidable (AdmitsRun apart d actions)
  | _, [] => instDecidableTrue
  | d, action :: actions =>
    have := decidableAdmitsRun apart (d.step action) actions
    inferInstanceAs (Decidable (_ ∧ _))

end Decidability

end Daku.Webhook
