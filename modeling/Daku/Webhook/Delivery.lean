import Daku.Webhook.Cursor

/-!
# Cursor soundness over runs

What the statements of other threads and processes keep, and with it the invariant over every
run of a daemon: any interleaving of relay passes with recording, pruning and requeueing, any
answers of the endpoint and any crashes.
-/

namespace Daku.Webhook

open Daku.Base Daku.Base.Prog Daku.Store

section External

variable {apart : Bool} {s : Relay} {environmentId : String}

/-- A statement on other tables changes nothing the relay depends on. -/
theorem external_of_untouched {c : Statement} (h : Inv apart s)
    (hevents : (Db.commit c s.db).healthEvents = s.db.healthEvents)
    (hcursor : (Db.commit c s.db).webhookCursor = s.db.webhookCursor)
    (hletters : (Db.commit c s.db).webhookDeadLetters = s.db.webhookDeadLetters)
    (hhistory : s.noteExternal c = s.history) :
    Inv apart (s.external c) ∧ Rely s (s.external c) := by
  have hdelivered : ∀ k, Delivered s k → Delivered (s.external c) k := by
    intro k hk
    simp only [Delivered, Relay.external, hletters, hhistory]
    exact hk
  refine ⟨h.of_delivering hevents hcursor rfl rfl (congrArg _ hhistory) (congrArg _ hhistory)
    hdelivered, rfl, rfl, rfl, rfl, fun id ↦ ?_, hdelivered, fun k hk ↦ ?_, fun k hk habove ↦ ?_⟩
  · simp only [Relay.external, hcursor]
  · simp only [Relay.external, hhistory] at hk
    exact Or.inl hk
  · simp only [Relay.external, hhistory] at hk
    exact Or.inl ((habove hk).of_eq (by simp only [Relay.external, hcursor]))

/-- Recording an event later than everything passed keeps it within reach. -/
theorem external_recordHealthEvent {event : HealthEvent} (h : Inv apart s)
    (hadmits : AdmitsExternal (.recordHealthEvent event) s) :
    Inv apart (s.external (.recordHealthEvent event)) ∧
      Rely s (s.external (.recordHealthEvent event)) := by
  have hdelivered : ∀ k, Delivered s k → Delivered (s.external (.recordHealthEvent event)) k := by
    intro k hk
    simp only [Delivered, Relay.external, Relay.noteExternal]
    split <;> exact hk
  have haged : (s.external (.recordHealthEvent event)).history.aged = s.history.aged := by
    simp only [Relay.external, Relay.noteExternal]
    split <;> rfl
  have hstored : ∀ k, Stored s k → Stored (s.external (.recordHealthEvent event)) k := by
    rintro k ⟨e, he, rfl⟩
    exact ⟨e, mem_insertNew_of_mem he, rfl⟩
  have hrecorded : ∀ k ∈ (s.external (.recordHealthEvent event)).history.recorded,
      k ∈ s.history.recorded ∨ k = event.key ∧
        (s.db.webhookCursor event.environmentId).isSome ∧ Beyond s event.key := by
    intro k hk
    simp only [Relay.external, Relay.noteExternal] at hk
    split at hk
    · next hnew =>
      rcases List.mem_append.mp hk with hk | hk
      · exact Or.inl hk
      · exact Or.inr ⟨List.mem_singleton.mp hk, hnew.1, hadmits hnew.1 hnew.2⟩
    · exact Or.inl hk
  have hnew : Stored (s.external (.recordHealthEvent event)) event.key :=
    List.mem_map.mp (key_mem_insertNew { event with note := none })
  constructor
  · refine ⟨fun k hk ↦ ?_, fun k hk ↦ ?_, fun k hk p hp ↦ ?_, fun hapart k hk hl ↦ ?_⟩
    · rcases hrecorded k hk with hk | ⟨rfl, -, hbeyond⟩
      · cases h.kept k hk with
        | delivered hd => exact .delivered (hdelivered k hd)
        | waiting hl hheld => exact .waiting hl (hheld.imp (hstored k) fun ha ↦ haged.symm ▸ ha)
        | aged ha habove => exact .aged (haged.symm ▸ ha) habove
        | stored hs hbeyond => exact .stored (hstored k hs) (hbeyond.of_eq rfl rfl rfl)
      · exact .stored hnew (hbeyond.of_eq rfl rfl rfl)
    · rcases hrecorded k hk with hk | ⟨rfl, hseeded, -⟩
      · exact h.seeded k hk
      · exact hseeded
    · rw [haged] at hk
      exact (h.aged k hk p hp).imp_left (hdelivered k)
    · rcases hrecorded k hk with hk | ⟨rfl, -, hbeyond⟩
      · exact (h.apart hapart k hk hl).imp (hdelivered k) fun habove ↦ habove
      · exact absurd (hbeyond.loaded _ hl rfl) (lt_irrefl _)
  · refine ⟨rfl, rfl, rfl, rfl, fun _ ↦ rfl, hdelivered, fun k hk ↦ ?_, fun k hk habove ↦ ?_⟩
    · rcases hrecorded k hk with hk | ⟨rfl, -, hbeyond⟩
      · exact Or.inl hk
      · exact Or.inr fun hl ↦ absurd (hbeyond.loaded _ hl rfl) (lt_irrefl _)
    · rcases hrecorded k hk with hk | ⟨rfl, -, hbeyond⟩
      · exact Or.inl (habove hk)
      · exact Or.inl hbeyond.cursor

/-- The age bound moves rows to where only the cursor matters. -/
theorem external_deleteHealthEventsBefore {cutoff : Int} (h : Inv apart s)
    (hadmits : AdmitsExternal (.deleteHealthEventsBefore environmentId cutoff) s) :
    Inv apart (s.external (.deleteHealthEventsBefore environmentId cutoff)) ∧
      Rely s (s.external (.deleteHealthEventsBefore environmentId cutoff)) := by
  have hkeeps : ∀ k ∈ s.history.recorded, Stored s k →
      Stored (s.external (.deleteHealthEventsBefore environmentId cutoff)) k ∨
        k ∈ s.agedOut environmentId cutoff := by
    rintro k hk ⟨e, he, rfl⟩
    by_cases hold : e.environmentId = environmentId ∧ e.observedAt < cutoff
    · refine Or.inr (List.mem_filter.mpr ⟨hk, List.any_eq_true.mpr ⟨e, he, ?_⟩⟩)
      exact decide_eq_true ⟨rfl, hold⟩
    · refine Or.inl ⟨e, List.mem_filter.mpr ⟨he, decide_eq_true ?_⟩, rfl⟩
      by_cases hid : e.environmentId = environmentId
      · exact Or.inr (not_lt.mp fun hlt ↦ hold ⟨hid, hlt⟩)
      · exact Or.inl hid
  constructor
  · refine ⟨fun k hk ↦ ?_, h.seeded, fun k hk p hp ↦ ?_, h.apart⟩
    · cases h.kept k hk with
      | delivered hd => exact .delivered hd
      | waiting hl hheld =>
        refine .waiting hl ?_
        rcases hheld with hs | ha
        · exact (hkeeps k hk hs).imp_right (List.mem_append_right _)
        · exact Or.inr (List.mem_append_left _ ha)
      | aged ha habove => exact .aged (List.mem_append_left _ ha) habove
      | stored hs hbeyond =>
        rcases hkeeps k hk hs with hs | ha
        · exact .stored hs (hbeyond.of_eq rfl rfl rfl)
        · exact .aged (List.mem_append_right _ ha) hbeyond.cursor
    · rcases List.mem_append.mp hk with hk | hk
      · exact h.aged k hk p hp
      · exact hadmits k hk p hp
  · exact ⟨rfl, rfl, rfl, rfl, fun _ ↦ rfl, fun _ hd ↦ hd, fun _ hk ↦ Or.inl hk,
      fun _ hk habove ↦ Or.inl (habove hk)⟩

/-- The count bound drops only what is delivered. -/
theorem external_keepNewestHealthEvents (h : Inv apart s)
    (hadmits : AdmitsExternal (.keepNewestHealthEvents environmentId) s) :
    Inv apart (s.external (.keepNewestHealthEvents environmentId)) ∧
      Rely s (s.external (.keepNewestHealthEvents environmentId)) := by
  have hkeeps : ∀ k ∈ s.history.recorded, Stored s k →
      Stored (s.external (.keepNewestHealthEvents environmentId)) k ∨ Delivered s k := by
    rintro k hk ⟨e, he, rfl⟩
    by_cases hkept : e ∈ keepNewest HealthEvent.environmentId HealthEvent.observedAt
        environmentId s.db.healthEvents
    · exact Or.inl ⟨e, hkept, rfl⟩
    · exact Or.inr (hadmits e he hkept hk)
  constructor
  · refine ⟨fun k hk ↦ ?_, h.seeded, h.aged, h.apart⟩
    cases h.kept k hk with
    | delivered hd => exact .delivered hd
    | waiting hl hheld =>
      rcases hheld with hs | ha
      · rcases hkeeps k hk hs with hs | hd
        · exact .waiting hl (Or.inl hs)
        · exact .delivered hd
      · exact .waiting hl (Or.inr ha)
    | aged ha habove => exact .aged ha habove
    | stored hs hbeyond =>
      rcases hkeeps k hk hs with hs | hd
      · exact .stored hs (hbeyond.of_eq rfl rfl rfl)
      · exact .delivered hd
  · exact ⟨rfl, rfl, rfl, rfl, fun _ ↦ rfl, fun _ hd ↦ hd, fun _ hk ↦ Or.inl hk,
      fun _ hk habove ↦ Or.inl (habove hk)⟩

/-- A requeue moves the cursor down, or up over what is delivered. -/
theorem external_storeWebhookCursor {resetTo : Int} (h : Inv apart s)
    (hadmits : AdmitsExternal (.storeWebhookCursor environmentId resetTo) s) :
    Inv apart (s.external (.storeWebhookCursor environmentId resetTo)) ∧
      Rely s (s.external (.storeWebhookCursor environmentId resetTo)) := by
  have habove : ∀ k ∈ s.history.recorded, AboveCursor s k →
      AboveCursor (s.external (.storeWebhookCursor environmentId resetTo)) k ∨ Delivered s k := by
    intro k hk habove
    by_cases hpassed : k.1 = environmentId ∧ k.2.1 ≤ resetTo
    · exact Or.inr (hadmits.2 k hk hpassed.1 habove hpassed.2)
    · refine Or.inl fun c hc ↦ ?_
      simp only [Relay.external, Db.commit] at hc
      by_cases hid : k.1 = environmentId
      · rw [hid, Function.update_self, Option.mem_def, Option.some.injEq] at hc
        exact hc ▸ not_le.mp fun hle ↦ hpassed ⟨hid, hle⟩
      · rw [Function.update_of_ne hid] at hc
        exact habove c hc
  have hseeded : ∀ id, ((s.external (.storeWebhookCursor environmentId resetTo)).db.webhookCursor
      id).isSome = (s.db.webhookCursor id).isSome := by
    intro id
    simp only [Relay.external, Db.commit]
    by_cases hid : id = environmentId
    · rw [hid, Function.update_self, hadmits.1]
      rfl
    · rw [Function.update_of_ne hid]
  constructor
  · refine ⟨fun k hk ↦ ?_, fun k hk ↦ ?_, h.aged, fun hapart k hk hl ↦ ?_⟩
    · cases h.kept k hk with
      | delivered hd => exact .delivered hd
      | waiting hl hheld => exact .waiting hl hheld
      | aged ha hk' =>
        rcases habove k hk hk' with habove | hd
        · exact .aged ha habove
        · exact .delivered hd
      | stored hs hbeyond =>
        rcases habove k hk hbeyond.cursor with habove | hd
        · exact .stored hs { hbeyond with cursor := habove }
        · exact .delivered hd
    · rw [hseeded]
      exact h.seeded k hk
    · rcases h.apart hapart k hk hl with hd | hk'
      · exact Or.inl hd
      · exact (habove k hk hk').symm
  · exact ⟨rfl, rfl, rfl, rfl, hseeded, fun _ hd ↦ hd, fun _ hk ↦ Or.inl hk,
      fun k hk hk' ↦ habove k hk (hk' hk)⟩

/-- What a requeue clears counts as requeued. -/
theorem external_deleteWebhookDeadLetters (h : Inv apart s) :
    Inv apart (s.external (.deleteWebhookDeadLetters environmentId)) ∧
      Rely s (s.external (.deleteWebhookDeadLetters environmentId)) := by
  have hdelivered : ∀ k, Delivered s k →
      Delivered (s.external (.deleteWebhookDeadLetters environmentId)) k := by
    intro k hk
    refine hk.mono (fun _ hp ↦ hp) (fun hl ↦ ?_) (List.subset_append_left _ _) fun _ hs ↦ hs
    obtain ⟨l, hmem, rfl⟩ := List.mem_map.mp hl
    by_cases hid : l.environmentId = environmentId
    · refine Or.inr (Or.inr (Or.inl (List.mem_append_right _ (List.mem_map_of_mem ?_))))
      exact List.mem_filter.mpr ⟨hmem, decide_eq_true hid⟩
    · refine delivered_of_letter (List.mem_map_of_mem ?_)
      exact List.mem_filter.mpr ⟨hmem, decide_eq_true hid⟩
  exact ⟨h.of_delivering rfl rfl rfl rfl rfl rfl hdelivered, rfl, rfl, rfl, rfl, fun _ ↦ rfl,
    hdelivered, fun _ hk ↦ Or.inl hk, fun _ hk habove ↦ Or.inl (habove hk)⟩

/-- Every statement of others keeps the invariant and what a running pass counts on. -/
theorem external_keeps {c : Statement} (h : Inv apart s) (hc : External c = true)
    (hadmits : AdmitsExternal c s) : Inv apart (s.external c) ∧ Rely s (s.external c) := by
  cases c with
  | recordHealthEvent => exact external_recordHealthEvent h hadmits
  | deleteHealthEventsBefore => exact external_deleteHealthEventsBefore h hadmits
  | keepNewestHealthEvents => exact external_keepNewestHealthEvents h hadmits
  | storeWebhookCursor => exact external_storeWebhookCursor h hadmits
  | deleteWebhookDeadLetters => exact external_deleteWebhookDeadLetters h
  | insertWebhookDeadLetter => cases hc
  | keepNewestWebhookDeadLetters => cases hc
  | recordHourRollup =>
    refine external_of_untouched h ?_ ?_ ?_ rfl <;>
      · simp only [Db.commit]
        split <;> rfl
  | _ => exact external_of_untouched h rfl rfl rfl rfl

end External

section Runs

variable {apart : Bool} {s : Relay} {d : Daemon}

/-- A pass may end, and marks in memory be lost, if what it has loaded is delivered or can be
loaded again. -/
theorem inv_endPass (h : Inv apart s) {memory : String → Option Int}
    (hmemory : ∀ id, memory id = none ∨ memory id = s.lastSent id)
    (hloaded : ∀ k ∈ s.history.recorded, k ∈ s.loaded →
      Delivered s k ∨ (AboveCursor s k ∧ memory k.1 = none)) :
    Inv apart { s with lastSent := memory, pass := none } where
  kept k hk := by
    have hbeyond : AboveCursor s k → (∀ m ∈ memory k.1, m < k.2.1) →
        Beyond { s with lastSent := memory, pass := none } k :=
      fun habove hm ↦ ⟨habove, hm, by simp, by simp [Relay.loaded]⟩
    cases h.kept k hk with
    | delivered hd => exact .delivered hd
    | waiting hl hheld =>
      rcases hloaded k hk hl with hd | ⟨habove, hnone⟩
      · exact .delivered hd
      · rcases hheld with hs | ha
        · exact .stored hs (hbeyond habove (by simp [hnone]))
        · exact .aged ha habove
    | aged ha habove => exact .aged ha habove
    | stored hs hb =>
      refine .stored hs (hbeyond hb.cursor ?_)
      rcases hmemory k.1 with hm | hm
      · simp [hm]
      · rw [hm]
        exact hb.memory
  seeded := h.seeded
  aged _ _ _ hp := by cases hp
  apart _ k _ hl := by simp [Relay.loaded] at hl

/-- The invariant of a daemon: what every step keeps, and that the rest of a running pass goes
on to keep it. -/
structure DaemonInv (apart : Bool) (d : Daemon) : Prop where
  inv : Inv apart d.relay
  idle : d.running = none → d.relay.pass = none
  safe : ∀ p, d.running = some p →
    ∃ now, Safe (interference apart) p (fun _ ↦ Settled now) d.relay

theorem daemonInv_started (apart : Bool) (db : Db) (script : Nat → Bool) :
    DaemonInv apart (.started db script) where
  inv := ⟨fun _ hk ↦ absurd hk List.not_mem_nil, fun _ hk ↦ absurd hk List.not_mem_nil,
    fun _ hk ↦ absurd hk List.not_mem_nil, fun _ _ hk ↦ absurd hk List.not_mem_nil⟩
  idle _ := rfl
  safe _ hp := by cases hp

theorem daemonInv_begin {now : Int} (h : DaemonInv apart d) :
    DaemonInv apart (d.step (.begin now)) := by
  simp only [Daemon.step]
  split
  · next hnone =>
    refine ⟨h.inv, fun hsome ↦ absurd hsome (by simp), fun p hp ↦ ⟨now, ?_⟩⟩
    obtain rfl : relayTo now = p := Option.some.inj hp
    exact safe_relayTo (h.idle hnone)
  · exact h

theorem daemonInv_proceed (h : DaemonInv apart d) (hadmits : AdmitsAction apart d .proceed) :
    DaemonInv apart (d.step .proceed) := by
  simp only [Daemon.step]
  split
  · exact h
  · next a hp =>
    obtain ⟨now, hsettled⟩ := h.safe _ hp
    refine ⟨inv_endPass h.inv (fun _ ↦ Or.inr rfl) fun k hk hl ↦ Or.inl ?_, fun _ ↦ rfl,
      fun _ hp ↦ by cases hp⟩
    exact Settled.done hsettled k hl hk
  · next p _ hp =>
    obtain ⟨now, hsafe⟩ := h.safe p hp
    obtain ⟨hinv, hnext⟩ := safe_next hsafe h.inv (hadmits p hp)
    refine ⟨hinv, fun hnone ↦ absurd hnone (by simp), fun q hq ↦ ⟨now, ?_⟩⟩
    obtain rfl := Option.some.inj hq
    exact hnext

theorem daemonInv_external {c : Statement} (h : DaemonInv apart d)
    (hadmits : AdmitsExternal c d.relay) : DaemonInv apart (d.step (.external c)) := by
  simp only [Daemon.step]
  split
  · next hc =>
    obtain ⟨hinv, hrely⟩ := external_keeps h.inv hc hadmits
    refine ⟨hinv, h.idle, fun p hp ↦ ?_⟩
    obtain ⟨now, hsafe⟩ := h.safe p hp
    exact ⟨now, safe_of_rely hsafe hrely fun _ hs ↦ hs.of_rely hrely⟩
  · exact h

theorem daemonInv_crash (h : DaemonInv apart d) (hadmits : AdmitsAction apart d .crash) :
    DaemonInv apart (d.step .crash) := by
  refine ⟨inv_endPass h.inv (fun _ ↦ Or.inl rfl) fun k hk hl ↦ ?_, fun _ ↦ rfl,
    fun _ hp ↦ by cases hp⟩
  have hwaits : Delivered d.relay k ∨ AboveCursor d.relay k := by
    cases hapart : apart with
    | true => exact h.inv.apart hapart k hk hl
    | false => exact hadmits hapart k hl hk
  exact hwaits.imp_right fun habove ↦ ⟨habove, rfl⟩

/-- One admitted action keeps the invariant. -/
theorem daemonInv_step {action : Action} (h : DaemonInv apart d)
    (hadmits : AdmitsAction apart d action) : DaemonInv apart (d.step action) := by
  cases action with
  | begin => exact daemonInv_begin h
  | proceed => exact daemonInv_proceed h hadmits
  | external => exact daemonInv_external h hadmits
  | crash => exact daemonInv_crash h hadmits

/-- The invariant holds wherever an admitted run has got to. -/
theorem daemonInv_after {actions reached : List Action} (h : DaemonInv apart d)
    (hadmits : AdmitsRun apart d actions) (hreached : reached <+: actions) :
    DaemonInv apart (d.after reached) := by
  induction reached generalizing d actions with
  | nil => exact h
  | cons action reached ih =>
    obtain ⟨rest, rfl⟩ := hreached
    exact ih (daemonInv_step h hadmits.1) hadmits.2 (List.prefix_append _ _)

/-- An event at or below the cursor is delivered or still loaded. -/
theorem Inv.delivered_or_loaded (h : Inv apart s) {k : EventKey} (hk : k ∈ s.history.recorded)
    {c : Int} (hc : c ∈ s.db.webhookCursor k.1) (hle : k.2.1 ≤ c) :
    Delivered s k ∨ k ∈ s.loaded := by
  cases h.kept k hk with
  | delivered hd => exact Or.inl hd
  | waiting hl => exact Or.inr hl
  | aged _ habove => exact absurd (habove c hc) (not_lt.mpr hle)
  | stored _ hbeyond => exact absurd (hbeyond.cursor c hc) (not_lt.mpr hle)

/-- Where the cursor is never stored over a waiting event, an event at or below it is
delivered. -/
theorem Inv.cursorSound (h : Inv true s) : CursorSound s := by
  intro k hk c hc hle
  rcases h.delivered_or_loaded hk hc hle with hd | hl
  · exact hd
  · rcases h.apart rfl k hk hl with hd | habove
    · exact hd
    · exact absurd (habove c hc) (not_lt.mpr hle)

/-- The cursor is sound in every state of a run that records no event late, drops none that is
still to be delivered, and never stores the cursor over a loaded event of the same second that is
not too old by then. If instead only no crash comes while such an event waits, every event at or
below the cursor is delivered or still loaded by the running pass, and so delivered whenever no
pass runs. -/
theorem cursorSound_of_admitted (db : Db) (script : Nat → Bool) (actions : List Action) :
    (AdmitsRun true (.started db script) actions → ∀ reached, reached <+: actions →
      CursorSound ((Daemon.started db script).after reached).relay) ∧
    (AdmitsRun false (.started db script) actions → ∀ reached, reached <+: actions →
      ∀ k ∈ ((Daemon.started db script).after reached).relay.history.recorded,
      ∀ c ∈ ((Daemon.started db script).after reached).relay.db.webhookCursor k.1, k.2.1 ≤ c →
        Delivered ((Daemon.started db script).after reached).relay k ∨
          k ∈ ((Daemon.started db script).after reached).relay.loaded) := by
  constructor
  · intro hadmits reached hreached
    exact (daemonInv_after (daemonInv_started true db script) hadmits hreached).inv.cursorSound
  · intro hadmits reached hreached k hk c hc hle
    have h := daemonInv_after (daemonInv_started false db script) hadmits hreached
    exact h.inv.delivered_or_loaded hk hc hle

end Runs

section Samples

/-- One whole pass over a single watched Environment. -/
def wholePass (now : Int) : List Action := .begin now :: List.replicate 20 .proceed

/-- A build seen in the second in which a failure was confirmed. -/
def buildEvent : HealthEvent where
  environmentId := "prod"
  observedAt := 1060
  kind := "build"
  fromHealth := some "healthy"
  toHealth := "critical"
  build := some "glide-2"
  note := none

/-- The cursor is seeded, both events of one second are recorded, the build is posted and the
cursor stored, the daemon crashes, and its successor makes a whole pass. -/
def crashBetweenSiblings : List Action :=
  wholePass 1000 ++
    [.external (.recordHealthEvent failureEvent), .external (.recordHealthEvent buildEvent),
      .begin 1060] ++ List.replicate 10 .proceed ++ [.crash] ++ wholePass 1120

/-- After a crash between two events of one second the failure is never posted. -/
theorem cursor_skips_sibling :
    ¬CursorSound ((Daemon.started watchedDb fun _ ↦ true).after crashBetweenSiblings).relay := by
  decide +kernel

/-- Two events of different seconds, the first kept as a dead letter, the second posted after
a crash, and one that the relay gets to more than a day later. -/
def crashBetweenSeconds : List Action :=
  wholePass 1000 ++ [.external (.recordHealthEvent failureEvent)] ++ wholePass 1060 ++
    [.external (.recordHealthEvent { buildEvent with observedAt := 1061 }), .crash] ++
      wholePass 1120 ++ [.external (.recordHealthEvent { buildEvent with observedAt := 1180 })] ++
        wholePass 87581

/-- In a run without such a crash the cursor is sound throughout. -/
theorem cursorSound_crashBetweenSeconds :
    CursorSound ((Daemon.started watchedDb fun n ↦ 2 ≤ n).after crashBetweenSeconds).relay ∧
      ("prod", 1060, "health") ∈ ((Daemon.started watchedDb fun n ↦ 2 ≤ n).after
        crashBetweenSeconds).relay.history.recorded ∧
      ("prod", 1180, "build") ∈ ((Daemon.started watchedDb fun n ↦ 2 ≤ n).after
        crashBetweenSeconds).relay.history.stale ∧
      ∀ k ∈ ((Daemon.started watchedDb fun n ↦ 2 ≤ n).after
          crashBetweenSeconds).relay.history.recorded,
        ∀ c ∈ ((Daemon.started watchedDb fun n ↦ 2 ≤ n).after
          crashBetweenSeconds).relay.db.webhookCursor k.1, k.2.1 ≤ c →
          Delivered ((Daemon.started watchedDb fun n ↦ 2 ≤ n).after
              crashBetweenSeconds).relay k ∨
            k ∈ ((Daemon.started watchedDb fun n ↦ 2 ≤ n).after
              crashBetweenSeconds).relay.loaded := by
  have h := cursorSound_of_admitted watchedDb (fun n ↦ 2 ≤ n) crashBetweenSeconds
  exact ⟨h.1 (by decide +kernel) _ (List.prefix_refl _), by decide +kernel, by decide +kernel,
    h.2 (by decide +kernel) _ (List.prefix_refl _)⟩

end Samples

end Daku.Webhook
