import Daku.Base.Ledger
import Daku.Collector.Loop

/-!
# Hourly roll-ups

Samples carry the clock reading of their collector's start, and a publish recomputes the bucket
of its own clock reading (`crates/daku-core/src/health.rs:270–316`,
`persistence.rs:490–514`). Over a run the row of an hour follows a ledger: every tick logs the
hour's samples, and every publish in the hour copies the log into the row.
-/

namespace Daku.Health

open Daku.Base Daku.Base.Prog Daku.Protocol Daku.Store Daku.Collector

/-- Samples a statement stores. -/
def recordedSamples : Statement → Db → List SignalSample
  | .insertSignalSample row, _ => [row]
  | _, _ => []

/-- The stored row of one hour. -/
def rollupRow (environmentId signalId : String) (hour : Int) (db : Db) : Option SignalRollup :=
  db.signalRollupsHourly.find? fun r ↦ r.key = (environmentId, signalId, hour)

/-- A row accounts for the values of its hour: their number, maximum and exact mean; without
values there is no row. -/
def Accounts (values : List Rat) : Option SignalRollup → Prop
  | none => values = []
  | some row => values ≠ [] ∧ row.sampleCount = values.length ∧ row.maxReal = values.max? ∧
      row.avgReal = some (values.sum / values.length)

/-- The publish of a turn recomputes the Environment's bucket of that hour. -/
def PublishesIn (environmentId : String) (hour : Int) (turn : Turn) : Prop :=
  environmentId ∈ turn.environments.map EnvironmentConfig.id ∧ hour ≤ turn.now ∧
    turn.now < hour + rollupBucketSecs

instance (environmentId : String) (hour : Int) (turn : Turn) :
    Decidable (PublishesIn environmentId hour turn) := by
  unfold PublishesIn
  infer_instance

section Batches

variable (fromStr : FromStr) (toText : ToText) (poll : Nat) (environmentId signalId : String)
  (hour : Int)

/-- For each turn of a run, the values of the hour its tick stored and whether its publish
recomputed the hour. -/
def hourBatches : List Turn → Db → List (List Rat × Bool)
  | [], _ => []
  | turn :: turns, db =>
    (hourValues environmentId signalId hour
        (observed recordedSamples ((tick fromStr toText turn.runs).trace db) db),
      Decidable.decide (PublishesIn environmentId hour turn)) ::
    hourBatches turns ((turn.program fromStr toText poll).run db)

/-- Every sample stamped in the hour is stored before a publish whose clock is still in it. -/
def RolledUpInHour (turns : List Turn) (db : Db) : Prop :=
  Ledger.EveryBatchCopied (hourBatches fromStr toText poll environmentId signalId hour turns db)

instance (turns : List Turn) (db : Db) :
    Decidable (RolledUpInHour fromStr toText poll environmentId signalId hour turns db) :=
  Ledger.decidableEveryBatchCopied _

end Batches

section Rows

variable {environmentId signalId : String} {hour : Int} {db : Db}

theorem hourValues_append (samples more : List SignalSample) :
    hourValues environmentId signalId hour (samples ++ more) =
      hourValues environmentId signalId hour samples ++
        hourValues environmentId signalId hour more :=
  List.filterMap_append

/-- Pruning up to the hour keeps the values of the hour. -/
theorem hourValues_filter {cutoff : Int} (h : cutoff ≤ hour) (samples : List SignalSample) :
    hourValues environmentId signalId hour (samples.filter fun s ↦ cutoff ≤ s.observedAt) =
      hourValues environmentId signalId hour samples := by
  rw [hourValues, List.filterMap_filter]
  apply List.filterMap_congr
  intro s _
  by_cases hs : cutoff ≤ s.observedAt
  · simp [hs]
  · have hbefore : ¬hour ≤ s.observedAt := by omega
    simp [hs, hbefore]

/-- A copied beginning of the values accounts for all of them only if it is all of them. -/
theorem accounts_aggregateHour_iff {copied values : List Rat} (h : copied <+: values) :
    Accounts values (aggregateHour environmentId signalId hour copied) ↔ copied = values := by
  rw [aggregateHour]
  split
  · next hnil => rw [hnil, Accounts, eq_comm]
  · next hnil =>
    constructor
    · rintro ⟨-, hcount, -⟩
      exact h.eq_of_length (by simpa using hcount)
    · rintro rfl
      exact ⟨hnil, rfl, rfl, rfl⟩

/-- Recomputing a row over more values replaces it. -/
theorem or_aggregateHour {copied values : List Rat} (h : copied <+: values) :
    (aggregateHour environmentId signalId hour values).or
        (aggregateHour environmentId signalId hour copied) =
      aggregateHour environmentId signalId hour values := by
  by_cases hnil : values = []
  · subst hnil
    rw [List.prefix_nil.mp h, Option.or_self]
  · rw [aggregateHour, if_neg hnil, Option.some_or]

/-- A bucket without values keeps its row; one with values replaces it. -/
theorem rollupRow_recordHourRollup (e s : String) (h : Int) :
    rollupRow environmentId signalId hour (commit (Statement.recordHourRollup e s h) db) =
      if (e, s, h) = (environmentId, signalId, hour) then
        (aggregateHour environmentId signalId hour
          (hourValues environmentId signalId hour db.signalSamples)).or
          (rollupRow environmentId signalId hour db)
      else rollupRow environmentId signalId hour db := by
  cases hrow : aggregateHour e s h (hourValues e s h db.signalSamples) with
  | none =>
    simp only [commit_eq, Db.commit, hrow]
    split
    · next heq =>
      obtain ⟨rfl, rfl, rfl⟩ : e = environmentId ∧ s = signalId ∧ h = hour := by simpa using heq
      rw [hrow, Option.none_or]
    · rfl
  | some row =>
    have hkey : row.key = (e, s, h) := by
      rw [aggregateHour] at hrow
      split at hrow
      · cases hrow
      · rw [← Option.some.inj hrow]
        rfl
    simp only [commit_eq, Db.commit, hrow, rollupRow]
    rw [find?_upsert, hkey]
    split
    · next heq =>
      obtain ⟨rfl, rfl, rfl⟩ : e = environmentId ∧ s = signalId ∧ h = hour := by simpa using heq
      rw [hrow, Option.some_or]
    · rfl

/-- Retention leaves the rows of later hours alone. -/
theorem rollupRow_deleteSignalRollupsBefore {cutoff : Int} (h : cutoff ≤ hour) :
    rollupRow environmentId signalId hour (commit (Statement.deleteSignalRollupsBefore cutoff) db) =
      rollupRow environmentId signalId hour db := by
  simp only [commit_eq, Db.commit, rollupRow, List.find?_filter]
  congr 1
  funext r
  by_cases hr : r.key = (environmentId, signalId, hour)
  · have hat : r.hourStart = hour := congrArg (fun k ↦ k.2.2) hr
    simp [hr, hat, h]
  · simp [hr]

/-- The row after roll-up statements: recomputed if its own statement is among them. -/
theorem rollupRow_commitAll (cs : List Statement)
    (hcs : ∀ c ∈ cs, (∃ e s h, c = .recordHourRollup e s h) ∨
      ∃ cutoff, c = .deleteSignalRollupsBefore cutoff ∧ cutoff ≤ hour) (db : Db) :
    rollupRow environmentId signalId hour (commitAll cs db) =
      if .recordHourRollup environmentId signalId hour ∈ cs then
        (aggregateHour environmentId signalId hour
          (hourValues environmentId signalId hour db.signalSamples)).or
          (rollupRow environmentId signalId hour db)
      else rollupRow environmentId signalId hour db := by
  induction cs generalizing db with
  | nil => rfl
  | cons c cs ih =>
    have hrest := ih (fun d hd ↦ hcs d (List.mem_cons_of_mem _ hd)) (commit c db)
    rw [commitAll_cons, hrest]
    rcases hcs c List.mem_cons_self with ⟨e, s, h, rfl⟩ | ⟨cutoff, rfl, hcut⟩
    · have hsamples : (commit (Statement.recordHourRollup e s h) db).signalSamples =
          db.signalSamples := by
        simp only [commit_eq, Db.commit]
        split <;> rfl
      rw [hsamples, rollupRow_recordHourRollup]
      by_cases heq : (e, s, h) = (environmentId, signalId, hour)
      · obtain ⟨rfl, rfl, rfl⟩ : e = environmentId ∧ s = signalId ∧ h = hour := by simpa using heq
        rw [if_pos rfl, if_pos List.mem_cons_self]
        split
        · rw [← Option.or_assoc, Option.or_self]
        · rfl
      · have hne : Statement.recordHourRollup environmentId signalId hour ≠
            .recordHourRollup e s h := by
          rintro ⟨⟩
          exact heq rfl
        simp only [if_neg heq, List.mem_cons, hne, false_or]
    · rw [rollupRow_deleteSignalRollupsBefore hcut]
      simp only [List.mem_cons, reduceCtorEq, false_or]
      rfl

end Rows

/-- Statements of a tick that keep the samples of the hour. -/
private def KeepsHour (hour : Int) : Statement → Prop
  | .deleteSignalSamplesBefore cutoff => cutoff ≤ hour
  | c => WritesObservations c

section Ticks

variable {fromStr : FromStr} {toText : ToText} {poll : Nat} {environmentId signalId : String}
  {hour now : Int} {db : Db}

/-- Prunes of collectors that started up to a day after the hour began keep its samples. -/
private theorem only_tick_keepsHour (runs : List CollectorRun) (hhour : i64Min ≤ hour)
    (hruns : ∀ run ∈ runs, run.observedAt - sampleRetentionSecs ≤ hour) :
    Only (KeepsHour hour) (tick fromStr toText runs) :=
  only_each _ fun run hrun ↦ only_collect_run fromStr toText run (fun _ _ _ ↦ trivial)
    (fun _ ↦ trivial) (satSub_le (hruns run hrun) hhour)

/-- Values of the hour after the statements of a tick: the stored ones and the new ones. -/
private theorem hourValues_commitAll (cs : List Statement) (hcs : ∀ c ∈ cs, KeepsHour hour c)
    (db : Db) :
    hourValues environmentId signalId hour (commitAll cs db).signalSamples =
      hourValues environmentId signalId hour db.signalSamples ++
        hourValues environmentId signalId hour (observed recordedSamples cs db) := by
  induction cs generalizing db with
  | nil => exact (List.append_nil _).symm
  | cons c cs ih =>
    have hstep : hourValues environmentId signalId hour (commit c db).signalSamples =
        hourValues environmentId signalId hour db.signalSamples ++
          hourValues environmentId signalId hour (recordedSamples c db) := by
      have hc := hcs c List.mem_cons_self
      cases c with
      | insertSignalSample row => exact hourValues_append _ _
      | upsertSignalSnapshot row => exact (List.append_nil _).symm
      | deleteSignalSamplesBefore cutoff =>
        exact (hourValues_filter hc _).trans (List.append_nil _).symm
      | _ => exact hc.elim
    rw [commitAll_cons, ih fun d hd ↦ hcs d (List.mem_cons_of_mem _ hd), hstep, observed_cons,
      hourValues_append, List.append_assoc]

/-- The bucket a publish recomputes is that of its clock reading. -/
private theorem hourStart_eq_iff (hhour : rollupBucketSecs ∣ hour) (hnow : 0 ≤ now) :
    hourStart now = hour ↔ hour ≤ now ∧ now < hour + rollupBucketSecs := by
  rw [hourStart, Int.tmod_eq_emod_of_nonneg hnow]
  simp only [rollupBucketSecs] at hhour ⊢
  omega

/-- Publishing neither stores nor deletes samples. -/
private theorem keepsSamples_publish (environments : List EnvironmentConfig) (now : Int) (db : Db) :
    ∀ c ∈ (publish fromStr poll environments now).trace db, ∀ t : Db,
      (commit c t).signalSamples = t.signalSamples ∧ recordedSamples c t = [] := by
  intro c hc t
  rcases only_publish db c hc with htouch | htouch
  · refine ⟨(commit_recordsEvents htouch t).2.1, ?_⟩
    cases c <;> first | exact htouch.elim | rfl
  · cases c with
    | recordHourRollup =>
      refine ⟨?_, rfl⟩
      simp only [commit_eq, Db.commit]
      split <;> rfl
    | deleteSignalRollupsBefore => exact ⟨rfl, rfl⟩
    | _ => exact htouch.elim

/-- The messages of a publish recompute the buckets of its own hour. -/
private theorem rollupRow_publish (hsignal : signalId ∈ trendSignals)
    (hhour : rollupBucketSecs ∣ hour) (turn : Turn) (hnow : 0 ≤ turn.now)
    (hretained : turn.now - rollupRetentionSecs ≤ hour) (db : Db) :
    rollupRow environmentId signalId hour
        ((publish fromStr poll turn.environments turn.now).run db) =
      if PublishesIn environmentId hour turn then
        (aggregateHour environmentId signalId hour
          (hourValues environmentId signalId hour db.signalSamples)).or
          (rollupRow environmentId signalId hour db)
      else rollupRow environmentId signalId hour db := by
  obtain ⟨runs, environments, now⟩ := turn
  simp only at hnow hretained ⊢
  have hevents := only_collect environments fun e _ ↦
    only_publishEnvironment fromStr (loadAllSignalSnapshots db) now poll e
  have hsamples := hevents.frame Db.signalSamples (fun c hc t ↦ (commit_recordsEvents hc t).2.1) db
  have hrows := hevents.frame Db.signalRollupsHourly
    (fun c hc t ↦ (commit_recordsEvents hc t).2.2) db
  have hold : i64Min ≤ hour := by
    simp only [i64Min, rollupRetentionSecs] at hretained ⊢
    omega
  have hmem : Statement.recordHourRollup environmentId signalId hour ∈
      environments.flatMap (fun e ↦ trendSignals.map (fun id ↦
        Statement.recordHourRollup e.id id (hourStart now)) ++
        [.deleteSignalRollupsBefore (satSub now rollupRetentionSecs)]) ↔
      PublishesIn environmentId hour ⟨runs, environments, now⟩ := by
    rw [PublishesIn, ← hourStart_eq_iff hhour hnow]
    simp only [List.mem_flatMap, List.mem_append, List.mem_map, List.mem_singleton,
      reduceCtorEq, or_false, Statement.recordHourRollup.injEq]
    constructor
    · rintro ⟨e, he, id, -, rfl, -, hat⟩
      exact ⟨⟨e, he, rfl⟩, hat⟩
    · rintro ⟨⟨e, he, rfl⟩, hat⟩
      exact ⟨e, he, signalId, hsignal, rfl, rfl, hat⟩
  rw [run_publish, Prog.run, trace_publishDashboard, commitAll_append, trace_collect_of_const
    (trace_publishDetails (loadAllSignalSnapshots db) now) environments, rollupRow_commitAll]
  · simp only [hmem]
    change (if _ then (aggregateHour _ _ _ (hourValues _ _ _ (Prog.run _ db).signalSamples)).or
      (rollupRow _ _ _ (Prog.run _ db)) else rollupRow _ _ _ (Prog.run _ db)) = _
    simp only [rollupRow, hsamples, hrows]
  · intro c hc
    obtain ⟨e, -, hc⟩ := List.mem_flatMap.mp hc
    rcases List.mem_append.mp hc with hc | hc
    · obtain ⟨s, -, rfl⟩ := List.mem_map.mp hc
      exact Or.inl ⟨_, _, _, rfl⟩
    · exact Or.inr ⟨_, List.mem_singleton.mp hc, satSub_le hretained hold⟩

/-- The database shows the ledger of an hour: its row accounts for what was copied, and while
its samples cannot have been pruned they are what was logged. -/
private def Shows (environmentId signalId : String) (hour now : Int) (l : Ledger Rat) (db : Db) :
    Prop :=
  l.copied <+: l.logged ∧
  rollupRow environmentId signalId hour db = aggregateHour environmentId signalId hour l.copied ∧
  (now < hour + sampleRetentionSecs →
    hourValues environmentId signalId hour db.signalSamples = l.logged)

/-- One turn of the loop is one batch of the ledger. -/
private theorem shows_turn (hsignal : signalId ∈ trendSignals) (hhour : rollupBucketSecs ∣ hour)
    (turn : Turn) (hpast : now ≤ turn.now) (hnow : 0 ≤ turn.now)
    (hruns : ∀ run ∈ turn.runs, run.observedAt ≤ turn.now)
    (hretained : turn.now - rollupRetentionSecs ≤ hour) {l : Ledger Rat}
    (h : Shows environmentId signalId hour now l db) :
    Shows environmentId signalId hour turn.now
      (l.step (hourValues environmentId signalId hour
          (observed recordedSamples ((tick fromStr toText turn.runs).trace db) db),
        Decidable.decide (PublishesIn environmentId hour turn)))
      ((turn.program fromStr toText poll).run db) := by
  obtain ⟨hcopied, hrow, hlogged⟩ := h
  have htickrow : rollupRow environmentId signalId hour ((tick fromStr toText turn.runs).run db) =
      aggregateHour environmentId signalId hour l.copied := by
    rw [rollupRow, (only_tick fromStr toText turn.runs).frame Db.signalRollupsHourly
      fun c hc t ↦ (commit_writesObservations hc t).2.2.2.2]
    exact hrow
  have hticksamples : turn.now < hour + sampleRetentionSecs →
      hourValues environmentId signalId hour
        ((tick fromStr toText turn.runs).run db).signalSamples =
        l.logged ++ hourValues environmentId signalId hour
          (observed recordedSamples ((tick fromStr toText turn.runs).trace db) db) := by
    intro hlt
    rw [← hlogged (by omega)]
    refine hourValues_commitAll _ (only_tick_keepsHour turn.runs ?_ (fun run hrun ↦ ?_) db) db
    · simp only [i64Min, sampleRetentionSecs] at hlt ⊢
      omega
    · have := hruns run hrun
      omega
  refine ⟨Ledger.copied_prefix_step hcopied _, ?_, ?_⟩
  · rw [run_turn, rollupRow_publish hsignal hhour turn hnow hretained, htickrow]
    by_cases hin : PublishesIn environmentId hour turn
    · have hlt : turn.now < hour + sampleRetentionSecs := by
        have := hin.2.2
        simp only [rollupBucketSecs, sampleRetentionSecs] at this ⊢
        omega
      rw [if_pos hin, hticksamples hlt, or_aggregateHour (hcopied.trans (List.prefix_append _ _))]
      simp only [Ledger.step, decide_eq_true hin, if_true]
    · rw [if_neg hin]
      simp only [Ledger.step, decide_eq_false hin]
      rfl
  · intro hlt
    rw [run_turn, Prog.run, commitAll_frame Db.signalSamples _ _ fun c hc t ↦
      (keepsSamples_publish turn.environments turn.now _ c hc t).1]
    exact hticksamples hlt

/-- The values a run logs are those of the samples it stores. -/
private theorem flatMap_hourBatches (turns : List Turn) (db : Db) :
    (hourBatches fromStr toText poll environmentId signalId hour turns db).flatMap Prod.fst =
      hourValues environmentId signalId hour (observed recordedSamples
        ((each turns (Turn.program fromStr toText poll)).trace db) db) := by
  induction turns generalizing db with
  | nil => rfl
  | cons turn turns ih =>
    have hturn : observed recordedSamples ((turn.program fromStr toText poll).trace db) db =
        observed recordedSamples ((tick fromStr toText turn.runs).trace db) db := by
      rw [Turn.program, trace_bind, observed_append, observed_eq_nil _ _ _ fun c hc t ↦
        (keepsSamples_publish turn.environments turn.now _ c hc t).2, List.append_nil]
    rw [hourBatches, List.flatMap_cons, ih, trace_each_cons, observed_append, hturn,
      hourValues_append]
    rfl

/-- Over a run the database keeps showing the ledger. -/
private theorem shows_turns (hsignal : signalId ∈ trendSignals) (hhour : rollupBucketSecs ∣ hour)
    (turns : List Turn) (hclock : ∀ t ∈ turns, 0 ≤ t.now ∧ ∀ run ∈ t.runs, run.observedAt ≤ t.now)
    (hmono : (now :: turns.map Turn.now).Pairwise (· ≤ ·))
    (hretained : ∀ t ∈ turns, t.now - rollupRetentionSecs ≤ hour) {l : Ledger Rat}
    (h : Shows environmentId signalId hour now l db) :
    ∃ last, Shows environmentId signalId hour last
      (l.after (hourBatches fromStr toText poll environmentId signalId hour turns db))
      ((each turns (Turn.program fromStr toText poll)).run db) := by
  induction turns generalizing db l now with
  | nil => exact ⟨now, h⟩
  | cons turn turns ih =>
    obtain ⟨hpast, hmono⟩ := List.pairwise_cons.mp hmono
    obtain ⟨hnow, hruns⟩ := hclock turn List.mem_cons_self
    rw [run_each_cons]
    exact ih (fun t ht ↦ hclock t (List.mem_cons_of_mem _ ht)) hmono
      (fun t ht ↦ hretained t (List.mem_cons_of_mem _ ht))
      (shows_turn hsignal hhour turn (hpast turn.now List.mem_cons_self) hnow hruns
        (hretained turn List.mem_cons_self) h)

end Ticks

/-- In every run of collector ticks and publishes, for every Environment, trend Signal and hour
in retention, the row of the hour accounts for the hour's samples exactly when every sample of
the hour is stored before a publish of the Environment whose clock is still in the hour. -/
theorem rollup_accounts_iff (fromStr : FromStr) (toText : ToText) (poll : Nat)
    (environmentId signalId : String) (hsignal : signalId ∈ trendSignals) (hour : Int)
    (hhour : rollupBucketSecs ∣ hour) (turns : List Turn)
    (hclock : ∀ t ∈ turns, 0 ≤ t.now ∧ ∀ run ∈ t.runs, run.observedAt ≤ t.now)
    (hmono : (turns.map Turn.now).Pairwise (· ≤ ·))
    (hretained : ∀ t ∈ turns, t.now - rollupRetentionSecs ≤ hour) :
    let loop := each turns (Turn.program fromStr toText poll)
    Accounts
        (hourValues environmentId signalId hour
          (observed recordedSamples (loop.trace .empty) .empty))
        (rollupRow environmentId signalId hour (loop.run .empty)) ↔
      RolledUpInHour fromStr toText poll environmentId signalId hour turns .empty := by
  intro loop
  have hstart : Shows environmentId signalId hour 0 ⟨[], []⟩ Db.empty :=
    ⟨List.prefix_refl _, rfl, fun _ ↦ rfl⟩
  have hfrom : (0 :: turns.map Turn.now).Pairwise (· ≤ ·) :=
    List.pairwise_cons.mpr ⟨fun n hn ↦ by
      obtain ⟨t, ht, rfl⟩ := List.mem_map.mp hn
      exact (hclock t ht).1, hmono⟩
  let batches := hourBatches fromStr toText poll environmentId signalId hour turns .empty
  obtain ⟨last, hcopied, hrow, -⟩ : ∃ last, Shows environmentId signalId hour last
      (Ledger.after ⟨[], []⟩ batches) (loop.run .empty) :=
    shows_turns hsignal hhour turns hclock hfrom hretained hstart
  have hlogged := Ledger.logged_after batches ⟨[], []⟩
  rw [List.nil_append, flatMap_hourBatches] at hlogged
  rw [hrow, ← hlogged, accounts_aggregateHour_iff hcopied, RolledUpInHour,
    Ledger.copied_eq_logged_after _ _ (List.prefix_refl _)]
  exact and_iff_right (Or.inl rfl)

/-- An availability poll of the ServiceNow Environment and the publish that follows it. -/
def prodPoll (observedAt now : Int) (rtt : Rat) : Turn where
  runs := [.perEnvironment ⟨availabilitySignalId, false, true⟩ [prod] observedAt fun _ ↦
    .ok ⟨.healthy, .object [], some rtt⟩]
  environments := [prod]
  now := now

/-- A tick that ends behind the hour leaves its sample out of the hour's row. -/
theorem rollup_misses_last_tick :
    let loop := each [prodPoll 3530 3535 120, prodPoll 3590 3605 180]
      (Turn.program emptyObjectFromStr (fun _ ↦ "{}") 60)
    hourValues "prod" "availability" 0 (observed recordedSamples (loop.trace .empty) .empty) =
        [120, 180] ∧
      rollupRow "prod" "availability" 0 (loop.run .empty) =
        some ⟨"prod", "availability", 0, some 120, some 120, 1⟩ := by
  decide +kernel

/-- Ticks that end within their hour are all accounted for. -/
theorem rollup_of_ticks_within_hour :
    let loop := each [prodPoll 3530 3535 120, prodPoll 3590 3595 180, prodPoll 3650 3655 60]
      (Turn.program emptyObjectFromStr (fun _ ↦ "{}") 60)
    Accounts
      (hourValues "prod" "availability" 0 (observed recordedSamples (loop.trace .empty) .empty))
      (rollupRow "prod" "availability" 0 (loop.run .empty)) :=
  (rollup_accounts_iff emptyObjectFromStr (fun _ ↦ "{}") 60 "prod" "availability" (by decide) 0
    (by decide) _ (by decide) (by decide) (by decide)).mpr (by decide +kernel)

end Daku.Health
