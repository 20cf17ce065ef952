import Daku.Health.Events
import Mathlib.Data.List.Dedup

/-!
# The webhook relay

`WebhookRelay::relay_to` of `crates/daku-core/src/webhook.rs:248–341`. The relay owns more than
the database: the marks it keeps in memory, the endpoint it posts to, and the variables of the
pass that is running, which decide what a crash or a late insert loses. All of them form the
store of its program. `History` is a ledger for statements about runs; no program reads it.
-/

namespace Daku.Webhook

open Daku.Base Daku.Base.Prog Daku.Store

/-- Backfill bound (`webhook.rs:29`). -/
def backfillSecs : Int := 24 * 3600

/-- Whether one event is relayed (`webhook.rs:40–42`). -/
def shouldRelayEvent (observedAt mark now : Int) : Bool :=
  observedAt > mark && satSub now observedAt ≤ backfillSecs

/-- Primary key of an event or of its dead letter: Environment, second and kind. -/
abbrev EventKey : Type := String × Int × String

/-- Variables of a running `relay_to`. -/
structure Pass where
  now : Int
  /-- The Environment whose turn it is, with its mark; none while the turn seeds the cursor. -/
  turn : Option (String × Option Int)
  /-- The events the turn has loaded. -/
  events : List HealthEvent
  deriving DecidableEq

/-- What has happened to events, by key. -/
structure History where
  /-- Recorded once their Environment had a cursor. -/
  recorded : List EventKey
  /-- POSTed with success. -/
  posted : List EventKey
  /-- Dead letters that a requeue cleared. -/
  requeued : List EventKey
  /-- Beyond the backfill bound when a pass moved the cursor over them. -/
  stale : List EventKey
  /-- Rows that the age bound of the event log removed. -/
  aged : List EventKey
  deriving DecidableEq

/-- Everything a relay pass reads or writes. -/
structure Relay where
  db : Db
  /-- `WebhookRelay::last_sent`, kept in memory. -/
  lastSent : String → Option Int
  /-- Whether the endpoint accepts the n-th POST. -/
  script : Nat → Bool
  attempts : Nat
  /-- The running pass. -/
  pass : Option Pass
  history : History

/-- One step of a pass: a local assignment with the query it needs, a POST, or a write. -/
inductive Move where
  /-- `let now = unix_now()` (`webhook.rs:255`). -/
  | begin (now : Int)
  /-- `let mark = match …` with its cursor query (`webhook.rs:269–278`). -/
  | readMark (environmentId : String)
  /-- `let mut events = …` with retain and sort (`webhook.rs:279–285`). -/
  | loadEvents (environmentId : String) (mark : Int)
  /-- One call of `post` with the body of an event (`webhook.rs:296–307`). -/
  | post (event : HealthEvent)
  /-- `last_sent.insert` (`webhook.rs:275, 288, 324, 332`). -/
  | remember (environmentId : String) (observedAt : Int)
  /-- One statement. -/
  | sql (c : Statement)
  deriving DecidableEq

/-- The mark of a turn: the larger of memory and cursor, none where both are missing
(`webhook.rs:270–273`). -/
def relayMark : Option Int → Option Int → Option Int
  | some memory, some stored => some (max memory stored)
  | some memory, none => some memory
  | none, stored => stored

/-- `a.observed_at.cmp(&b.observed_at).then(a.kind.cmp(&b.kind))` is not greater. -/
def eventLe (a b : HealthEvent) : Prop :=
  a.observedAt < b.observedAt ∨ (a.observedAt = b.observedAt ∧ a.kind ≤ b.kind)

instance (a b : HealthEvent) : Decidable (eventLe a b) := by
  unfold eventLe
  infer_instance

/-- Most events one turn loads (`webhook.rs:280`). -/
def relayEventLimit : Nat := 500

/-- What a turn has to deliver: the loaded events above the mark, in order
(`webhook.rs:279–285`). -/
def pendingEvents (environmentId : String) (mark : Int) (db : Db) : List HealthEvent :=
  ((loadHealthEvents environmentId relayEventLimit db).filter fun e ↦
    e.observedAt > mark).insertionSort eventLe

/-- Environments that a snapshot mentions (`webhook.rs:259–264`). -/
def relayEnvironments (db : Db) : List String :=
  (db.signalSnapshots.map SignalSnapshot.environmentId).dedup.insertionSort (· ≤ ·)

namespace History

/-- An empty ledger. -/
def empty : History where
  recorded := []
  posted := []
  requeued := []
  stale := []
  aged := []

/-- Recorded events that a cursor moving from `old` to `new` passes too late. -/
def passedStale (environmentId : String) (old : Option Int) (new now : Int) (h : History) :
    List EventKey :=
  h.recorded.filter fun k ↦
    k.1 = environmentId ∧ (∀ c ∈ old, c < k.2.1) ∧ k.2.1 ≤ new ∧ backfillSecs < satSub now k.2.1

end History

namespace Relay

/-- The relay of a daemon that has just started: no marks and nothing in flight. -/
def started (db : Db) (script : Nat → Bool) : Relay where
  db := db
  lastSent := fun _ ↦ none
  script := script
  attempts := 0
  pass := none
  history := .empty

/-- Effect of a pass's statement on the ledger: moving the cursor passes events. -/
def noteSql (c : Statement) (s : Relay) : History :=
  match c, s.pass with
  | .storeWebhookCursor environmentId observedAt, some p =>
    { s.history with stale := s.history.stale ++
        s.history.passedStale environmentId (s.db.webhookCursor environmentId) observedAt p.now }
  | _, _ => s.history

/-- What one step of a pass does. -/
def commit : Move → Relay → Relay
  | .begin now, s => { s with pass := some { now, turn := none, events := [] } }
  | .readMark environmentId, s =>
    let mark := relayMark (s.lastSent environmentId) (loadWebhookCursor environmentId s.db)
    { s with pass := s.pass.map fun p ↦
        { p with turn := some (environmentId, mark), events := [] } }
  | .loadEvents environmentId mark, s =>
    { s with pass := s.pass.map fun p ↦
        { p with events := pendingEvents environmentId mark s.db } }
  | .post event, s =>
    { s with
      attempts := s.attempts + 1
      history := if s.script s.attempts then
          { s.history with posted := s.history.posted ++ [event.key] }
        else s.history }
  | .remember environmentId observedAt, s =>
    { s with lastSent := Function.update s.lastSent environmentId (some observedAt) }
  | .sql c, s => { s with db := Db.commit c s.db, history := s.noteSql c }

end Relay

instance : Commits Move Relay := ⟨Relay.commit⟩

/-- Programs over the relay's store. -/
abbrev RelayProg (α : Type) : Type := Prog Relay Move α

/-- One call of `post` and its result. -/
def post (event : HealthEvent) : RelayProg Bool := do
  issue (.post event)
  query fun s ↦ s.script (s.attempts - 1)

/-- `post(url, &body)`, and once more if it fails (`webhook.rs:306–309`). -/
def postWithRetry (event : HealthEvent) : RelayProg Bool := do
  if ← post event then pure true else post event

/-- Text of a dead letter (`webhook.rs:310`). -/
def deadLetterError : String := "webhook post failed after 1 retry"

/-- Keep an undeliverable event (`persistence.rs:950–979`). -/
def recordWebhookDeadLetter (environmentId : String) (observedAt : Int) (kind error : String) :
    RelayProg Unit := do
  issue (.sql (.insertWebhookDeadLetter { environmentId, observedAt, kind, error }))
  issue (.sql (.keepNewestWebhookDeadLetters environmentId))

/-- Move the mark in memory, then the cursor (`webhook.rs:288–293, 324–329, 332–337`). -/
def advance (environmentId : String) (observedAt : Int) : RelayProg Unit := do
  issue (.remember environmentId observedAt)
  issue (.sql (.storeWebhookCursor environmentId observedAt))

/-- Attempt an event and keep it as a dead letter if both attempts fail (`webhook.rs:306–323`). -/
def deliver (environmentId : String) (event : HealthEvent) : RelayProg Unit := do
  -- Poison head must not starve newer events: dead-letter it and advance past it.
  if ← postWithRetry event then pure ()
  else recordWebhookDeadLetter environmentId event.observedAt event.kind deadLetterError

/-- One event of a turn (`webhook.rs:286–338`). -/
def relayEvent (environmentId : String) (now mark : Int) (event : HealthEvent) :
    RelayProg Unit := do
  if shouldRelayEvent event.observedAt mark now then do
    deliver environmentId event
    advance environmentId event.observedAt
  else
    advance environmentId event.observedAt

/-- The turn of one Environment (`webhook.rs:266–339`). -/
def relayEnvironment (now : Int) (environmentId : String) : RelayProg Unit := do
  issue (.readMark environmentId)
  match ← query fun s ↦ (s.pass.bind Pass.turn).bind Prod.snd with
  | none =>
    issue (.sql (.storeWebhookCursor environmentId now))
    issue (.remember environmentId now)
  | some mark =>
    issue (.loadEvents environmentId mark)
    let events ← query fun s ↦ (s.pass.map Pass.events).getD []
    each events (relayEvent environmentId now mark)

/-- One pass over every Environment (`webhook.rs:248–341`). -/
def relayTo (now : Int) : RelayProg Unit := do
  issue (.begin now)
  let environments ← query fun s ↦ relayEnvironments s.db
  each environments (relayEnvironment now)

section Posts

variable {environmentId : String} {now mark : Int} {event e : HealthEvent}

@[simp] theorem post_mem_trace_postWithRetry (s : Relay) :
    .post e ∈ (postWithRetry event).trace s ↔ e = event := by
  simp only [postWithRetry, trace_bind, post]
  split <;> simp

@[simp] theorem post_notMem_trace_recordWebhookDeadLetter (environmentId kind error : String)
    (observedAt : Int) (s : Relay) :
    .post e ∉ (recordWebhookDeadLetter environmentId observedAt kind error).trace s := by
  simp [recordWebhookDeadLetter]

@[simp] theorem post_mem_trace_deliver (s : Relay) :
    .post e ∈ (deliver environmentId event).trace s ↔ e = event := by
  simp only [deliver, trace_bind, List.mem_append, post_mem_trace_postWithRetry]
  split <;> simp

@[simp] theorem post_notMem_trace_advance (environmentId : String) (observedAt : Int) (s : Relay) :
    .post e ∉ (advance environmentId observedAt).trace s := by
  simp [advance]

/-- An event is attempted exactly when it is to be relayed. -/
theorem post_mem_trace_relayEvent (s : Relay) :
    .post e ∈ (relayEvent environmentId now mark event).trace s ↔
      e = event ∧ shouldRelayEvent event.observedAt mark now := by
  unfold relayEvent
  split
  · next h => simp [trace_bind, h]
  · next h => simp [h]

/-- A turn attempts the loaded events that are to be relayed, whatever happens to each. -/
theorem post_mem_trace_relayEvents (events : List HealthEvent) (s : Relay) :
    .post e ∈ (each events (relayEvent environmentId now mark)).trace s ↔
      e ∈ events ∧ shouldRelayEvent e.observedAt mark now := by
  induction events generalizing s with
  | nil => simp
  | cons event events ih =>
    rw [trace_each_cons, List.mem_append, post_mem_trace_relayEvent, ih, List.mem_cons]
    constructor
    · rintro (⟨rfl, h⟩ | ⟨h, hrelay⟩)
      · exact ⟨Or.inl rfl, h⟩
      · exact ⟨Or.inr h, hrelay⟩
    · rintro ⟨rfl | h, hrelay⟩
      · exact Or.inl ⟨rfl, hrelay⟩
      · exact Or.inr ⟨h, hrelay⟩

/-- What a turn attempts: nothing while it seeds the cursor, else what is pending. -/
theorem post_mem_trace_relayEnvironment {s : Relay} (hpass : s.pass.isSome) :
    .post e ∈ (relayEnvironment now environmentId).trace s ↔
      ∃ mark ∈ relayMark (s.lastSent environmentId) (s.db.webhookCursor environmentId),
        e ∈ pendingEvents environmentId mark s.db ∧ shouldRelayEvent e.observedAt mark now := by
  obtain ⟨p, hp⟩ := Option.isSome_iff_exists.mp hpass
  unfold relayEnvironment
  rw [trace_issue_bind, trace_query_bind, List.mem_cons]
  have hturn : ((commit (Move.readMark environmentId) s).pass.bind Pass.turn).bind Prod.snd =
      relayMark (s.lastSent environmentId) (s.db.webhookCursor environmentId) := by
    simp [commit, Relay.commit, hp, loadWebhookCursor]
  simp only [reduceCtorEq, false_or, hturn]
  split
  · next hmark => simp [hmark]
  · next mark hmark =>
    rw [trace_issue_bind, trace_query_bind, List.mem_cons, post_mem_trace_relayEvents]
    simp [commit, Relay.commit, hp, hmark]

end Posts

section Turns

variable {environmentId : String}

/-- What the turn of one Environment may do: move its mark and its cursor, keep dead letters,
post and set its own variables. -/
def InTurn (environmentId : String) : Move → Prop
  | .begin _ => False
  | .remember id _ => id = environmentId
  | .sql (.storeWebhookCursor id _) => id = environmentId
  | .sql (.insertWebhookDeadLetter _) => True
  | .sql (.keepNewestWebhookDeadLetters _) => True
  | .sql _ => False
  | _ => True

theorem only_deliver (event : HealthEvent) :
    Only (InTurn environmentId) (deliver environmentId event) := by
  have hpost : Only (InTurn environmentId) (post event) :=
    only_bind (only_issue trivial) fun _ ↦ only_query _ _
  have hretry : Only (InTurn environmentId) (postWithRetry event) := by
    apply only_bind hpost
    intro sent
    split
    · exact only_done _ _
    · exact hpost
  apply only_bind hretry
  intro sent
  split
  · exact only_done _ _
  · exact only_bind (only_issue trivial) fun _ ↦ only_issue trivial

theorem only_advance (observedAt : Int) :
    Only (InTurn environmentId) (advance environmentId observedAt) :=
  only_bind (only_issue rfl) fun _ ↦ only_issue rfl

theorem only_relayEvent (now mark : Int) (event : HealthEvent) :
    Only (InTurn environmentId) (relayEvent environmentId now mark event) := by
  unfold relayEvent
  split
  · exact only_bind (only_deliver event) fun _ ↦ only_advance _
  · exact only_advance _

theorem only_relayEnvironment (now : Int) :
    Only (InTurn environmentId) (relayEnvironment now environmentId) := by
  unfold relayEnvironment
  refine only_bind (only_issue trivial) fun _ ↦ only_bind (only_query _ _) fun mark ↦ ?_
  split
  · exact only_bind (only_issue rfl) fun _ ↦ only_issue rfl
  · exact only_bind (only_issue trivial) fun _ ↦
      only_bind (only_query _ _) fun _ ↦ only_each _ fun event _ ↦ only_relayEvent now _ event

/-- What the turn of an Environment reads. -/
def seenBy (id : String) (s : Relay) : Option Int × Option Int × List HealthEvent :=
  (s.lastSent id, s.db.webhookCursor id, s.db.healthEvents)

theorem seenBy_commit {id : String} (hne : id ≠ environmentId) (c : Move)
    (h : InTurn environmentId c) (s : Relay) : seenBy id (commit c s) = seenBy id s := by
  cases c with
  | begin => exact False.elim h
  | remember other observedAt =>
    obtain rfl : other = environmentId := h
    simp [seenBy, commit, Relay.commit, Function.update_of_ne hne]
  | sql c =>
    cases c with
    | storeWebhookCursor other observedAt =>
      obtain rfl : other = environmentId := h
      simp [seenBy, commit, Relay.commit, Db.commit, Function.update_of_ne hne]
    | insertWebhookDeadLetter => rfl
    | keepNewestWebhookDeadLetters => rfl
    | _ => exact False.elim h
  | _ => rfl

/-- A turn leaves what the turns of other Environments read. -/
theorem seenBy_run {id : String} (hne : id ≠ environmentId) (now : Int) (s : Relay) :
    seenBy id ((relayEnvironment now environmentId).run s) = seenBy id s :=
  (only_relayEnvironment now).frame (seenBy id) (seenBy_commit hne) s

/-- A turn does not end the pass. -/
theorem isSome_pass_run (now : Int) (s : Relay) :
    ((relayEnvironment now environmentId).run s).pass.isSome = s.pass.isSome := by
  apply (only_relayEnvironment now).frame fun s ↦ s.pass.isSome
  intro c h s
  cases c with
  | begin => exact False.elim h
  | readMark => simp [commit, Relay.commit]
  | loadEvents => simp [commit, Relay.commit]
  | _ => rfl

end Turns

section Passes

variable {now : Int} {e : HealthEvent}

theorem mem_pendingEvents {environmentId : String} {mark : Int} {db : Db} :
    e ∈ pendingEvents environmentId mark db ↔
      e ∈ loadHealthEvents environmentId relayEventLimit db ∧ mark < e.observedAt := by
  simp [pendingEvents, List.mem_insertionSort]

theorem nodup_relayEnvironments (db : Db) : (relayEnvironments db).Nodup :=
  (List.perm_insertionSort _ _).nodup_iff.mpr (List.nodup_dedup _)

/-- The turn of an event's Environment takes it up and finds it fresh. -/
def TakenUp (now : Int) (s : Relay) (e : HealthEvent) : Prop :=
  ∃ mark ∈ relayMark (s.lastSent e.environmentId) (s.db.webhookCursor e.environmentId),
    mark < e.observedAt ∧ e ∈ loadHealthEvents e.environmentId relayEventLimit s.db ∧
      satSub now e.observedAt ≤ backfillSecs

/-- Whether an event is taken up depends on what its Environment's turn reads. -/
theorem takenUp_congr {s t : Relay} (h : seenBy e.environmentId s = seenBy e.environmentId t) :
    TakenUp now s e ↔ TakenUp now t e := by
  simp only [seenBy, Prod.mk.injEq] at h
  simp only [TakenUp, loadHealthEvents, h]

theorem post_mem_trace_turn {environmentId : String} {s : Relay} (hpass : s.pass.isSome) :
    .post e ∈ (relayEnvironment now environmentId).trace s ↔
      e.environmentId = environmentId ∧ TakenUp now s e := by
  rw [post_mem_trace_relayEnvironment hpass]
  simp only [mem_pendingEvents, shouldRelayEvent, Bool.and_eq_true, decide_eq_true_eq, TakenUp]
  constructor
  · rintro ⟨mark, hmark, ⟨hload, habove⟩, -, hfresh⟩
    obtain rfl := (mem_of_mem_loadHealthEvents hload).2
    exact ⟨rfl, mark, hmark, habove, hload, hfresh⟩
  · rintro ⟨rfl, mark, hmark, habove, hload, hfresh⟩
    exact ⟨mark, hmark, ⟨hload, habove⟩, habove, hfresh⟩

theorem post_mem_trace_turns {environments : List String} (hnodup : environments.Nodup)
    {s : Relay} (hpass : s.pass.isSome) :
    .post e ∈ (each environments (relayEnvironment now)).trace s ↔
      e.environmentId ∈ environments ∧ TakenUp now s e := by
  induction environments generalizing s with
  | nil => simp
  | cons environmentId environments ih =>
    obtain ⟨hnew, hnodup⟩ := List.nodup_cons.mp hnodup
    have hseen : ∀ other, other ≠ environmentId →
        seenBy other ((relayEnvironment now environmentId).run s) = seenBy other s :=
      fun other hne ↦ seenBy_run hne now s
    rw [trace_each_cons, List.mem_append, post_mem_trace_turn hpass,
      ih hnodup (by rw [isSome_pass_run, hpass]), List.mem_cons]
    constructor
    · rintro (⟨h, htaken⟩ | ⟨h, htaken⟩)
      · exact ⟨Or.inl h, htaken⟩
      · have hne : e.environmentId ≠ environmentId := fun he ↦ hnew (he ▸ h)
        exact ⟨Or.inr h, (takenUp_congr (hseen _ hne)).mp htaken⟩
    · rintro ⟨h | h, htaken⟩
      · exact Or.inl ⟨h, htaken⟩
      · have hne : e.environmentId ≠ environmentId := fun he ↦ hnew (he ▸ h)
        exact Or.inr ⟨h, (takenUp_congr (hseen _ hne)).mpr htaken⟩

/-- An undisturbed pass attempts an event exactly when a snapshot mentions its Environment and
the turn takes it up: no earlier turn and no answer of the endpoint changes that. -/
theorem post_mem_trace_relayTo (s : Relay) :
    .post e ∈ (relayTo now).trace s ↔
      e.environmentId ∈ relayEnvironments s.db ∧ TakenUp now s e := by
  unfold relayTo
  rw [trace_issue_bind, trace_query_bind, List.mem_cons,
    post_mem_trace_turns (nodup_relayEnvironments _) (by simp [commit, Relay.commit])]
  simp [commit, Relay.commit, TakenUp]

end Passes

section Letters

/-- Every dead letter a run of statements inserts is of an event it has posted. -/
def LettersPosted (moves : List Move) : Prop :=
  ∀ letter, .sql (.insertWebhookDeadLetter letter) ∈ moves →
    ∃ e : HealthEvent, e.key = letter.key ∧ .post e ∈ moves

theorem lettersPosted_append {moves moves' : List Move} (h : LettersPosted moves)
    (h' : LettersPosted moves') : LettersPosted (moves ++ moves') := by
  intro letter hmem
  rcases List.mem_append.mp hmem with hmem | hmem
  · obtain ⟨e, hkey, hpost⟩ := h letter hmem
    exact ⟨e, hkey, List.mem_append_left _ hpost⟩
  · obtain ⟨e, hkey, hpost⟩ := h' letter hmem
    exact ⟨e, hkey, List.mem_append_right _ hpost⟩

theorem lettersPosted_each {β : Type} {f : β → RelayProg Unit} (bs : List β)
    (h : ∀ b ∈ bs, ∀ s, LettersPosted ((f b).trace s)) (s : Relay) :
    LettersPosted ((each bs f).trace s) := by
  induction bs generalizing s with
  | nil => exact fun _ hmem ↦ by cases hmem
  | cons b bs ih =>
    rw [trace_each_cons]
    exact lettersPosted_append (h b List.mem_cons_self s)
      (ih (fun c hc ↦ h c (List.mem_cons_of_mem _ hc)) _)

/-- Statements that insert no dead letter need no post. -/
theorem lettersPosted_of_not {moves : List Move}
    (h : ∀ letter, .sql (.insertWebhookDeadLetter letter) ∉ moves) : LettersPosted moves :=
  fun letter hmem ↦ absurd hmem (h letter)

theorem lettersPosted_cons {c : Move} {moves : List Move}
    (hc : ∀ letter, c ≠ .sql (.insertWebhookDeadLetter letter)) (h : LettersPosted moves) :
    LettersPosted (c :: moves) := by
  intro letter hmem
  rcases List.mem_cons.mp hmem with hmem | hmem
  · exact absurd hmem.symm (hc letter)
  · obtain ⟨e, hkey, hpost⟩ := h letter hmem
    exact ⟨e, hkey, List.mem_cons_of_mem _ hpost⟩

theorem letter_notMem_trace_postWithRetry (event : HealthEvent) (letter : WebhookDeadLetter)
    (s : Relay) : .sql (.insertWebhookDeadLetter letter) ∉ (postWithRetry event).trace s := by
  simp only [postWithRetry, trace_bind, post]
  split <;> simp

theorem lettersPosted_deliver (event : HealthEvent) (s : Relay) :
    LettersPosted ((deliver event.environmentId event).trace s) := by
  intro letter hmem
  refine ⟨event, ?_, (post_mem_trace_deliver s).mpr rfl⟩
  rw [deliver, trace_bind, List.mem_append] at hmem
  rcases hmem with hmem | hmem
  · exact absurd hmem (letter_notMem_trace_postWithRetry event letter s)
  · split at hmem
    · cases hmem
    · simp only [recordWebhookDeadLetter, trace_issue_bind, trace_issue, List.mem_cons,
        Move.sql.injEq, Statement.insertWebhookDeadLetter.injEq, reduceCtorEq, List.not_mem_nil,
        or_false] at hmem
      rw [hmem]
      rfl

theorem lettersPosted_relayEvent (now mark : Int) (event : HealthEvent) (s : Relay) :
    LettersPosted ((relayEvent event.environmentId now mark event).trace s) := by
  have hadvance : ∀ t, LettersPosted
      ((advance event.environmentId event.observedAt).trace t) :=
    fun t ↦ lettersPosted_of_not fun letter ↦ by simp [advance]
  unfold relayEvent
  split
  · rw [trace_bind]
    exact lettersPosted_append (lettersPosted_deliver event s) (hadvance _)
  · exact hadvance s

theorem lettersPosted_relayEnvironment (now : Int) (environmentId : String) (s : Relay) :
    LettersPosted ((relayEnvironment now environmentId).trace s) := by
  unfold relayEnvironment
  rw [trace_issue_bind, trace_query_bind]
  refine lettersPosted_cons (fun _ ↦ by simp) ?_
  split
  · exact lettersPosted_of_not fun _ ↦ by simp
  · next mark _ =>
    rw [trace_issue_bind, trace_query_bind]
    refine lettersPosted_cons (fun _ ↦ by simp) ?_
    apply lettersPosted_each
    intro event hevent t
    -- The events of a turn are rows of its Environment.
    have henv : event.environmentId = environmentId := by
      cases hpass : s.pass with
      | none => simp [commit, Relay.commit, hpass] at hevent
      | some p =>
        simp only [commit, Relay.commit, hpass, Option.map_some, Option.getD_some] at hevent
        exact (mem_of_mem_loadHealthEvents (mem_pendingEvents.mp hevent).1).2
    subst henv
    exact lettersPosted_relayEvent now mark event t

theorem lettersPosted_relayTo (now : Int) (s : Relay) :
    LettersPosted ((relayTo now).trace s) := by
  unfold relayTo
  rw [trace_issue_bind, trace_query_bind]
  refine lettersPosted_cons (fun _ ↦ by simp) ?_
  exact lettersPosted_each _ (fun environmentId _ t ↦
    lettersPosted_relayEnvironment now environmentId t) _

end Letters

end Daku.Webhook
