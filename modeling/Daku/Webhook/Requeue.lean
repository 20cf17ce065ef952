import Daku.Webhook.Relay

/-!
# Requeueing dead letters

`requeue_webhook_dead_letters` of `crates/daku-core/src/persistence.rs:1062–1112`, which
`run_webhook_requeue_command` (`crates/daku-daemon/src/main.rs:305–344`) runs in a process of its
own. It moves the persisted cursor back below the oldest dead letter and clears the dead
letters; the relay of the running daemon starts from the larger of that cursor and the mark it
remembers.
-/

namespace Daku.Webhook

open Daku.Base Daku.Base.Prog Daku.Store Daku.Health

/-- Outcome of a requeue (`persistence.rs:1049–1056`). -/
structure RequeueReport where
  resetTo : Int
  cleared : Nat
  missing : Nat
  deriving DecidableEq, Repr

/-- Whether the event of a dead letter is still stored (`persistence.rs:1082–1092`). -/
def hasHealthEvent (letter : WebhookDeadLetter) (db : Db) : Bool :=
  db.healthEvents.any fun e ↦ e.key = letter.key

/-- Observation time of the oldest dead letter (`persistence.rs:1075–1079`). -/
def oldestDeadLetter (dead : List WebhookDeadLetter) : Int :=
  (dead.map WebhookDeadLetter.observedAt).min?.getD 0

/-- Which dead letters still have their event, one query for each (`persistence.rs:1081–1095`). -/
def findEvents (dead : List WebhookDeadLetter) : DbProg (List Bool) :=
  collect dead fun letter ↦ query (hasHealthEvent letter)

/-- Reset the cursor and clear the dead letters (`persistence.rs:1062–1112`). -/
def requeueWebhookDeadLetters (environmentId : String) : DbProg RequeueReport := do
  let dead ← query (loadWebhookDeadLetters environmentId)
  if dead = [] then do
    let cursor ← query (loadWebhookCursor environmentId)
    pure { resetTo := cursor.getD 0, cleared := 0, missing := 0 }
  else do
    let found ← findEvents dead
    let resetTo := satSub (oldestDeadLetter dead) 1
    issue (.storeWebhookCursor environmentId resetTo)
    issue (.deleteWebhookDeadLetters environmentId)
    pure { resetTo, cleared := dead.length, missing := (found.filter (!·)).length }

/-- Statements of the processes that neither relay nor requeue. -/
def OutsideWebhook : Statement → Prop
  | .storeWebhookCursor .. => False
  | .insertWebhookDeadLetter _ => False
  | .keepNewestWebhookDeadLetters _ => False
  | .deleteWebhookDeadLetters _ => False
  | _ => True

section Requeue

variable {environmentId : String} {db : Db}

@[simp] theorem trace_findEvents (dead : List WebhookDeadLetter) (db : Db) :
    (findEvents dead).trace db = [] := by
  have hnone : ∀ (letter : WebhookDeadLetter) (db : Db),
      (query (hasHealthEvent letter) : DbProg Bool).trace db = [] := fun _ _ ↦ rfl
  rw [findEvents, trace_collect_of_const hnone, List.flatMap_eq_nil_iff]
  exact fun _ _ ↦ rfl

@[simp] theorem result_findEvents (dead : List WebhookDeadLetter) (db : Db) :
    (findEvents dead).result db = dead.map fun letter ↦ hasHealthEvent letter db := by
  induction dead with
  | nil => rfl
  | cons letter dead ih =>
    change (query (hasHealthEvent letter) >>= fun a ↦ findEvents dead >>=
      fun as ↦ done (a :: as)).result db = _
    rw [result_bind, result_bind, run, trace_query, commitAll_nil, ih]
    rfl

/-- The two writes of a requeue that has something to requeue. -/
theorem trace_requeue (h : loadWebhookDeadLetters environmentId db ≠ []) :
    (requeueWebhookDeadLetters environmentId).trace db =
      [.storeWebhookCursor environmentId
          (satSub (oldestDeadLetter (loadWebhookDeadLetters environmentId db)) 1),
        .deleteWebhookDeadLetters environmentId] := by
  unfold requeueWebhookDeadLetters
  rw [trace_query_bind, if_neg h, trace_bind, trace_findEvents]
  rfl

/-- What a requeue reports: a dead letter is missing when its event has left the log. -/
theorem result_requeue (h : loadWebhookDeadLetters environmentId db ≠ []) :
    (requeueWebhookDeadLetters environmentId).result db = {
      resetTo := satSub (oldestDeadLetter (loadWebhookDeadLetters environmentId db)) 1
      cleared := (loadWebhookDeadLetters environmentId db).length
      missing := ((loadWebhookDeadLetters environmentId db).filter fun letter ↦
        !hasHealthEvent letter db).length } := by
  unfold requeueWebhookDeadLetters
  rw [result_bind, result_query]
  simp only [run, trace_query, commitAll_nil, if_neg h, result_bind, result_findEvents]
  simp [List.filter_map, Function.comp_def]

/-- The persisted cursor a requeue leaves. -/
theorem webhookCursor_requeue (h : loadWebhookDeadLetters environmentId db ≠ []) :
    ((requeueWebhookDeadLetters environmentId).run db).webhookCursor environmentId =
      some (satSub (oldestDeadLetter (loadWebhookDeadLetters environmentId db)) 1) := by
  rw [run, trace_requeue h]
  simp [Db.commit]

/-- Other processes leave the cursors alone. -/
theorem webhookCursor_commitAll {cs : List Statement} (hcs : ∀ c ∈ cs, OutsideWebhook c)
    (db : Db) : (commitAll cs db).webhookCursor = db.webhookCursor := by
  apply commitAll_frame
  intro c hc db
  cases c with
  | storeWebhookCursor => exact False.elim (hcs _ hc)
  | recordHourRollup =>
    simp only [commit_eq, Db.commit]
    split <;> rfl
  | _ => rfl

/-- No dead letter is older than the oldest. -/
theorem oldestDeadLetter_le {dead : List WebhookDeadLetter} {letter : WebhookDeadLetter}
    (h : letter ∈ dead) : oldestDeadLetter dead ≤ letter.observedAt := by
  have hmem : letter.observedAt ∈ dead.map WebhookDeadLetter.observedAt :=
    List.mem_map_of_mem h
  unfold oldestDeadLetter
  cases hmin : (dead.map WebhookDeadLetter.observedAt).min? with
  | none =>
    rw [List.min?_eq_none_iff] at hmin
    rw [hmin] at hmem
    cases hmem
  | some oldest => exact (List.min?_eq_some_iff.mp hmin).2 _ hmem

end Requeue

section Redelivery

/-- A running relay after a requeue has returned and other processes have issued `cs`. -/
def afterRequeue (environmentId : String) (cs : List Statement) (s : Relay) : Relay :=
  { s with db := commitAll cs ((requeueWebhookDeadLetters environmentId).run s.db) }

/-- The next pass redelivers what the requeue cleared: it attempts every letter whose event is
stored and fresh, and no letter is neither attempted, nor missing, nor kept again. -/
structure Redelivers (environmentId : String) (cs : List Statement) (now : Int) (s : Relay) :
    Prop where
  attempts : ∀ letter ∈ loadWebhookDeadLetters environmentId s.db,
    ∀ e ∈ (afterRequeue environmentId cs s).db.healthEvents, e.key = letter.key →
      satSub now e.observedAt ≤ backfillSecs →
        .post e ∈ (relayTo now).trace (afterRequeue environmentId cs s)
  accounts : ∀ letter ∈ loadWebhookDeadLetters environmentId s.db,
    (∃ e : HealthEvent, e.key = letter.key ∧
        .post e ∈ (relayTo now).trace (afterRequeue environmentId cs s)) ∨
      hasHealthEvent letter s.db = false ∨
      ∃ again : WebhookDeadLetter, again.key = letter.key ∧
        .sql (.insertWebhookDeadLetter again) ∈
          (relayTo now).trace (afterRequeue environmentId cs s)

/-- What it takes to redeliver one cleared letter. -/
structure Redeliverable (environmentId : String) (cs : List Statement) (now : Int) (s : Relay)
    (letter : WebhookDeadLetter) : Prop where
  /-- An event the requeue found is still stored and fresh when the pass runs. -/
  kept : hasHealthEvent letter s.db = true →
    ∃ e ∈ (afterRequeue environmentId cs s).db.healthEvents, e.key = letter.key ∧
      satSub now e.observedAt ≤ backfillSecs
  /-- A fresh event is above the mark the relay remembers, its Environment has a snapshot, and
  it is among the newest that one turn loads. -/
  reached : ∀ e ∈ (afterRequeue environmentId cs s).db.healthEvents, e.key = letter.key →
    satSub now e.observedAt ≤ backfillSecs →
      (∀ memory ∈ s.lastSent environmentId, memory < letter.observedAt) ∧
        i64Min < letter.observedAt ∧
        environmentId ∈ relayEnvironments (afterRequeue environmentId cs s).db ∧
        e ∈ loadHealthEvents environmentId relayEventLimit (afterRequeue environmentId cs s).db

variable {environmentId : String} {cs : List Statement} {now : Int} {s : Relay}

/-- The cursor below the oldest letter is below every letter that can have a smaller time. -/
private theorem resetTo_lt_iff {letter : WebhookDeadLetter} {dead : List WebhookDeadLetter}
    (h : letter ∈ dead) :
    satSub (oldestDeadLetter dead) 1 < letter.observedAt ↔ i64Min < letter.observedAt := by
  have hle := oldestDeadLetter_le h
  simp only [satSub, clampI64, max_lt_iff, min_lt_iff]
  constructor
  · exact And.left
  · intro hmin
    exact ⟨hmin, Or.inr (by omega)⟩

/-- The pass attempts the event of a cleared letter exactly when the letter's time is above
the mark the relay remembers and the turn loads it fresh. -/
theorem post_mem_trace_afterRequeue (hcs : ∀ c ∈ cs, OutsideWebhook c)
    {letter : WebhookDeadLetter} (hletter : letter ∈ loadWebhookDeadLetters environmentId s.db)
    {e : HealthEvent} (hkey : e.key = letter.key) :
    .post e ∈ (relayTo now).trace (afterRequeue environmentId cs s) ↔
      satSub now e.observedAt ≤ backfillSecs ∧
        (∀ memory ∈ s.lastSent environmentId, memory < letter.observedAt) ∧
        i64Min < letter.observedAt ∧
        environmentId ∈ relayEnvironments (afterRequeue environmentId cs s).db ∧
        e ∈ loadHealthEvents environmentId relayEventLimit
          (afterRequeue environmentId cs s).db := by
  have henv : letter.environmentId = environmentId := (mem_loadWebhookDeadLetters.mp hletter).2
  simp only [HealthEvent.key, WebhookDeadLetter.key, Prod.mk.injEq, henv] at hkey
  obtain ⟨he, hat, -⟩ := hkey
  have hcursor : (afterRequeue environmentId cs s).db.webhookCursor environmentId =
      some (satSub (oldestDeadLetter (loadWebhookDeadLetters environmentId s.db)) 1) := by
    rw [afterRequeue, webhookCursor_commitAll hcs,
      webhookCursor_requeue (List.ne_nil_of_mem hletter)]
  have hreset := resetTo_lt_iff hletter
  rw [post_mem_trace_relayTo, TakenUp, he, hat, hcursor]
  -- Memory is untouched: the requeue runs in another process.
  change _ ∧ (∃ mark ∈ relayMark (s.lastSent environmentId) _, _) ↔ _
  cases hmemory : s.lastSent environmentId with
  | none =>
    simp only [relayMark, Option.mem_def, Option.some.injEq, exists_eq_left', hreset]
    tauto
  | some memory =>
    simp only [relayMark, Option.mem_def, Option.some.injEq, exists_eq_left', max_lt_iff, hreset,
      forall_eq']
    tauto

/-- A requeue redelivers exactly when every letter it cleared is redeliverable. In particular
the relay that kept the letter remembers a mark at least as late as it, and never attempts it
before it is restarted. -/
theorem requeue_redelivers_iff (hcs : ∀ c ∈ cs, OutsideWebhook c) :
    Redelivers environmentId cs now s ↔
      ∀ letter ∈ loadWebhookDeadLetters environmentId s.db,
        Redeliverable environmentId cs now s letter := by
  constructor
  · intro h letter hletter
    refine ⟨fun hfound ↦ ?_, fun e he hkey hfresh ↦ ?_⟩
    · have hpost : ∃ e : HealthEvent, e.key = letter.key ∧
          .post e ∈ (relayTo now).trace (afterRequeue environmentId cs s) := by
        rcases h.accounts letter hletter with hpost | hmissing | ⟨again, hkey, hagain⟩
        · exact hpost
        · rw [hmissing] at hfound
          cases hfound
        · obtain ⟨e, he, hpost⟩ := lettersPosted_relayTo now _ again hagain
          exact ⟨e, he.trans hkey, hpost⟩
      obtain ⟨e, hkey, hpost⟩ := hpost
      obtain ⟨hfresh, -, -, -, hload⟩ := (post_mem_trace_afterRequeue hcs hletter hkey).mp hpost
      exact ⟨e, (mem_of_mem_loadHealthEvents hload).1, hkey, hfresh⟩
    · have hpost := h.attempts letter hletter e he hkey hfresh
      exact ((post_mem_trace_afterRequeue hcs hletter hkey).mp hpost).2
  · intro h
    have hattempts : ∀ letter ∈ loadWebhookDeadLetters environmentId s.db,
        ∀ e ∈ (afterRequeue environmentId cs s).db.healthEvents, e.key = letter.key →
          satSub now e.observedAt ≤ backfillSecs →
            .post e ∈ (relayTo now).trace (afterRequeue environmentId cs s) := by
      intro letter hletter e he hkey hfresh
      exact (post_mem_trace_afterRequeue hcs hletter hkey).mpr
        ⟨hfresh, (h letter hletter).reached e he hkey hfresh⟩
    refine ⟨hattempts, fun letter hletter ↦ ?_⟩
    cases hfound : hasHealthEvent letter s.db with
    | false => exact Or.inr (Or.inl rfl)
    | true =>
      obtain ⟨e, he, hkey, hfresh⟩ := (h letter hletter).kept hfound
      exact Or.inl ⟨e, hkey, hattempts letter hletter e he hkey hfresh⟩

end Redelivery

section Samples

/-- One Environment that a snapshot mentions. -/
def watchedDb : Db :=
  { Db.empty with signalSnapshots := [{
      environmentId := "prod", signalId := "availability", observedAt := 1000
      state := "ok", payloadJson := "" }] }

/-- A confirmed failure. -/
def failureEvent : HealthEvent where
  environmentId := "prod"
  observedAt := 1060
  kind := "health"
  fromHealth := some "healthy"
  toHealth := "critical"
  build := none
  note := none

/-- The first pass seeds the cursor; the second finds the endpoint down, fails twice and keeps
the event as a dead letter. -/
def afterOutage : Relay :=
  let seeded := (relayTo 1000).run (.started watchedDb fun n ↦ 2 ≤ n)
  (relayTo 1060).run { seeded with db := Db.commit (.recordHealthEvent failureEvent) seeded.db }

/-- The dead letter of the outage. -/
def outageLetter : WebhookDeadLetter where
  environmentId := "prod"
  observedAt := 1060
  kind := "health"
  error := deadLetterError

private theorem loadWebhookDeadLetters_afterOutage :
    loadWebhookDeadLetters "prod" afterOutage.db = [outageLetter] := by
  decide +kernel

/-- The daemon that kept a dead letter a minute ago does not attempt it after a requeue. -/
theorem requeue_ignored_by_running_relay : ¬Redelivers "prod" [] 1120 afterOutage := by
  intro h
  have hletter : outageLetter ∈ loadWebhookDeadLetters "prod" afterOutage.db := by
    rw [loadWebhookDeadLetters_afterOutage]
    exact List.mem_singleton_self _
  have hpost := h.attempts outageLetter hletter failureEvent (by decide +kernel) rfl (by decide)
  exact absurd hpost (by decide +kernel)

/-- A daemon that was restarted after the outage redelivers what a requeue clears. -/
theorem requeue_redelivers_after_restart :
    Redelivers "prod" [.deleteSignalSamplesBefore 0] 1120
      { afterOutage with lastSent := fun _ ↦ none } := by
  apply (requeue_redelivers_iff (by simp [OutsideWebhook])).mpr
  intro letter hletter
  rw [loadWebhookDeadLetters_afterOutage, List.mem_singleton] at hletter
  subst hletter
  have hrows : (afterRequeue "prod" [.deleteSignalSamplesBefore 0]
      { afterOutage with lastSent := fun _ ↦ none }).db.healthEvents = [failureEvent] := by
    decide +kernel
  refine ⟨fun _ ↦ ⟨failureEvent, ?_, rfl, by decide⟩, ?_⟩
  · rw [hrows]
    exact List.mem_singleton_self _
  · intro e he _ _
    rw [hrows, List.mem_singleton] at he
    subst he
    exact ⟨by simp, by decide, by decide +kernel, by decide +kernel⟩

end Samples

end Daku.Webhook
