import Daku.Collector.Stored
import Daku.Signals.Decided

/-!
# No false Healthy

A probe that cannot read an answer it decides from leaves its Signal down, by
`crates/daku-core/src/signal_eval.rs:48–60, 120–144` and `servicenow.rs:394–463`. Two readings are
too tolerant: the upgrade history is read with the parser for drill-in rows
(`upgrade.rs:53–75`), and an average may be any `f64` (`servicenow.rs:436–439`).
-/

namespace Daku.Signals

open Daku.Base Daku.Protocol Daku.Http Daku.Collector Daku.Store

/-- The body is JSON with an array under this key. -/
def HasArray (codec : Codec) (body key : String) : Prop :=
  ∃ value items, codec.fromStr body = some value ∧ value.get key = some (.array items)

/-- The body is JSON with a count, as a text or a number. -/
def HasCount (codec : Codec) (body : String) : Prop :=
  ∃ value count, codec.fromStr body = some value ∧
    pointer value ["result", "stats", "count"] = some count ∧
    ((∃ text n, count = .string text ∧ parseU64 text = some n) ∨ ∃ n, count = countValue n)

/-- The body is JSON with an average, as a text or a number, that is this value. -/
def HasAverage (codec : Codec) (body : String) (average : F64) : Prop :=
  ∃ value avg, codec.fromStr body = some value ∧
    pointer value ["result", "stats", "avg", transactionAvgField] = some avg ∧
    ((∃ text, avg = .string text ∧ parseF64 text = some average) ∨
      ∃ n q, avg = .number n ∧ avg.asF64 = some q ∧ toF64 q = average)

/-- The response has the status and the body that the shape asks for. -/
def Shape.Holds (codec : Codec) : Shape → HttpResponse → Prop
  | .count, response => response.status = 200 ∧ HasCount codec response.body
  | .average, response =>
    response.status = 200 ∧ ∃ q, HasAverage codec response.body (.finite q)
  | .result, response => response.status = 200 ∧ HasArray codec response.body "result"
  | .workflowRuns, response =>
    response.status = 200 ∧ HasArray codec response.body "workflow_runs"
  | .anything, response => 200 ≤ response.status ∧ response.status < 400

/-- The answer is a response that can be read. -/
def Readable (codec : Codec) (answer : Shape × Except String HttpResponse) : Prop :=
  ∃ response, answer.2 = .ok response ∧ answer.1.Holds codec response

/-- The state stored for a probe is healthy only if all answers it is decided from can be read;
if one cannot, it is down, or skipped for a scan whose table is missing. -/
def NoFalseHealthy (codec : Codec) (sig : VotingSignal)
    (answers : List (Shape × Except String HttpResponse)) (stored : Option String) : Prop :=
  (stored = some "healthy" → ∀ answer ∈ answers, Readable codec answer) ∧
  ((∃ answer ∈ answers, ¬ Readable codec answer) →
    stored = some "down" ∨
      (sig = .scan ∧ stored = some "skipped" ∧
        ∃ answer ∈ answers, ∃ response, answer.2 = .ok response ∧ tableMissing response = true))

/-- An upgrade history without its array, or an average that is no number. -/
def Misread (codec : Codec) : VotingSignal → List (Shape × Except String HttpResponse) → Prop
  | .upgrade, [(_, .ok response)] =>
    response.status = 200 ∧ ¬ HasArray codec response.body "result"
  | .slowTxn, [(_, .ok response)] => response.status = 200 ∧
    ∃ average, HasAverage codec response.body average ∧ average.toRat = none
  | _, _ => False

/-- Healthy or degraded. -/
def Votes (state : SignalState) : Prop := state = .healthy ∨ state = .degraded

section Votes

variable (thresholds : Thresholds)

theorem votes_evaluateGe (count degradedAt : Nat) : Votes (evaluateGe count degradedAt) := by
  rw [evaluateGe]
  split
  · exact Or.inr rfl
  · exact Or.inl rfl

theorem votes_jobsState (overdueReady error : Nat) :
    Votes (jobsState overdueReady error thresholds) := by
  rw [jobsState]
  split
  · exact Or.inr rfl
  · exact Or.inl rfl

theorem votes_midEccState (agents error ready : Nat) :
    Votes (midEccState agents error ready thresholds) := by
  rw [midEccState]
  split
  · exact Or.inl rfl
  · exact Or.inr rfl

theorem votes_transactionState (avgMs : F64) : Votes (transactionState avgMs thresholds) := by
  rw [transactionState]
  split
  · exact Or.inr rfl
  · exact Or.inl rfl

end Votes

section Reading

variable {codec : Codec} {texts : Texts} {response : HttpResponse} {body : String} {α : Type}

theorem bind_eq_ok {β : Type} {y : Except String α} {f : α → Except String β} {b : β} :
    y.bind f = .ok b ↔ ∃ a, y = .ok a ∧ f a = .ok b := by
  cases y with
  | error e => simp [Except.bind]
  | ok a => simp [Except.bind]

/-- An aggregate is read from a response with status 200 only. -/
theorem readAggregate_eq_ok {parse : String → Except String α} {a : α} :
    readAggregate parse response = .ok a ↔ response.status = 200 ∧ parse response.body = .ok a := by
  rw [readAggregate, isRateLimited]
  by_cases h : response.status = 200
  · simp [h]
  · by_cases h' : response.status = 429 <;> simp [h, h']

theorem parseAggregateCount_eq_ok :
    (∃ n, parseAggregateCount codec texts body = .ok n) ↔ HasCount codec body := by
  rw [parseAggregateCount, HasCount]
  cases codec.fromStr body with
  | none => simp
  | some value =>
    cases hcount : pointer value ["result", "stats", "count"] with
    | none => simp [hcount]
    | some count =>
      cases count with
      | string text => cases hparse : parseU64 text <;> simp [hcount, hparse, countValue]
      | number number => cases number <;> simp [hcount, Value.asU64, countValue]
      | null | bool | array | object => simp [hcount, countValue]

theorem parseAggregateAvg_eq_ok {average : F64} :
    parseAggregateAvg codec texts body transactionAvgField = .ok average ↔
      HasAverage codec body average := by
  rw [parseAggregateAvg, HasAverage]
  cases codec.fromStr body with
  | none => simp
  | some value =>
    cases havg : pointer value ["result", "stats", "avg", transactionAvgField] with
    | none => simp [havg]
    | some avg =>
      cases avg with
      | string text => cases hparse : parseF64 text <;> simp [havg, hparse]
      | number number => cases hq : (Value.number number).asF64 <;> simp [havg, hq]
      | null | bool | array | object => simp [havg]

theorem exists_asArray {key : String} :
    (∃ items, ((codec.fromStr body).bind fun v ↦ v.get key).bind Value.asArray = some items) ↔
      HasArray codec body key := by
  rw [HasArray]
  cases codec.fromStr body with
  | none => simp
  | some value =>
    cases hkey : value.get key with
    | none => simp [hkey]
    | some field => cases field <;> simp [hkey, Value.asArray]

theorem parseResultArrayRequired_eq_ok :
    (∃ items, parseResultArrayRequired codec body = .ok items) ↔ HasArray codec body "result" := by
  rw [← exists_asArray, parseResultArrayRequired]
  cases ((codec.fromStr body).bind fun v ↦ v.get "result").bind Value.asArray <;> simp

end Reading

section Answers

variable {codec : Codec} {answer : Except String HttpResponse} {α : Type}

/-- An answer is readable as a shape if a response with that shape is what is read. -/
theorem readable_iff_of_holds {shape : Shape} {read : HttpResponse → Except String α}
    (h : ∀ response, shape.Holds codec response ↔ ∃ a, read response = .ok a) :
    Readable codec (shape, answer) ↔ ∃ a, answer.bind read = .ok a := by
  constructor
  · rintro ⟨response, hanswer, hholds⟩
    obtain ⟨a, ha⟩ := (h response).mp hholds
    exact ⟨a, bind_eq_ok.mpr ⟨response, hanswer, ha⟩⟩
  · rintro ⟨a, ha⟩
    obtain ⟨response, hanswer, hread⟩ := bind_eq_ok.mp ha
    exact ⟨response, hanswer, (h response).mpr ⟨a, hread⟩⟩

theorem readable_count (texts : Texts) : Readable codec (.count, answer) ↔
    ∃ n, answer.bind (readAggregate (parseAggregateCount codec texts)) = .ok n := by
  apply readable_iff_of_holds
  intro response
  simp only [Shape.Holds, readAggregate_eq_ok, exists_and_left, parseAggregateCount_eq_ok]

theorem readable_average (texts : Texts) : Readable codec (.average, answer) ↔
    ∃ q, answer.bind (readAggregate (parseAggregateAvg codec texts · transactionAvgField)) =
      .ok (.finite q) := by
  constructor
  · rintro ⟨response, hanswer, hstatus, q, haverage⟩
    exact ⟨q, bind_eq_ok.mpr ⟨response, hanswer,
      readAggregate_eq_ok.mpr ⟨hstatus, parseAggregateAvg_eq_ok.mpr haverage⟩⟩⟩
  · rintro ⟨q, hq⟩
    obtain ⟨response, hanswer, hread⟩ := bind_eq_ok.mp hq
    obtain ⟨hstatus, haverage⟩ := readAggregate_eq_ok.mp hread
    exact ⟨response, hanswer, hstatus, q, parseAggregateAvg_eq_ok.mp haverage⟩

theorem readable_midAgents (texts : Texts) : Readable codec (.result, answer) ↔
    ∃ agents, answer.bind (readMidAgents codec texts) = .ok agents := by
  apply readable_iff_of_holds
  intro response
  rw [Shape.Holds, ← exists_asArray, readMidAgents, classifyMidAgents]
  by_cases hstatus : response.status = 200
  · cases codec.fromStr response.body with
    | none => simp [hstatus]
    | some value => cases h : (value.get "result").bind Value.asArray <;> simp [hstatus, h]
  · simp [hstatus]

theorem readable_tableRows {map : Value → Option α} : Readable codec (.result, answer) ↔
    ∃ rows, answer.bind (readTableRows codec map) = .ok rows := by
  apply readable_iff_of_holds
  intro response
  rw [Shape.Holds, ← parseResultArrayRequired_eq_ok, readTableRows, isRateLimited]
  by_cases hstatus : response.status = 200
  · rw [hstatus, if_neg (by decide), if_neg (by decide)]
    cases parseResultArrayRequired codec response.body with
    | error e => simp [bind, Except.bind]
    | ok items => exact iff_of_true ⟨rfl, items, rfl⟩ ⟨_, rfl⟩
  · by_cases hlimited : response.status = 429 <;> simp [hstatus, hlimited]

theorem readable_findings : Readable codec (.result, answer) ↔
    ∃ findings, answer.bind (readFindings codec) = .ok (some findings) := by
  constructor
  · rintro ⟨response, hanswer, hstatus, hresult⟩
    obtain ⟨items, hitems⟩ := parseResultArrayRequired_eq_ok.mpr hresult
    have hmissing : tableMissing response = false := by simp [tableMissing, hstatus]
    have hread : readFindings codec response =
        .ok (some ((items.filterMap (findingRow codec)).take rowListLimit)) := by
      rw [readFindings, hmissing, hstatus, hitems]
      rfl
    exact ⟨_, bind_eq_ok.mpr ⟨response, hanswer, hread⟩⟩
  · rintro ⟨findings, hfindings⟩
    obtain ⟨response, hanswer, hread⟩ := bind_eq_ok.mp hfindings
    refine ⟨response, hanswer, ?_⟩
    rw [Shape.Holds, ← parseResultArrayRequired_eq_ok]
    rw [readFindings] at hread
    split at hread
    · cases hread
    · split at hread
      · cases hread
      · rename_i hstatus
        cases h : parseResultArrayRequired codec response.body with
        | error e =>
          rw [h] at hread
          cases hread
        | ok items => exact ⟨not_not.mp hstatus, items, rfl⟩

theorem readable_failedRuns {unixNow : Int} : Readable codec (.workflowRuns, answer) ↔
    ∃ runs, answer.bind (readFailedRuns codec unixNow) = .ok runs := by
  apply readable_iff_of_holds
  intro response
  rw [Shape.Holds, ← exists_asArray, readFailedRuns]
  by_cases hstatus : response.status = 200
  · cases ((codec.fromStr response.body).bind fun v ↦ v.get "workflow_runs").bind
        Value.asArray <;> simp [hstatus]
  · by_cases hdenied : response.status = 401 ∨ response.status = 403 <;> simp [hstatus, hdenied]

end Answers

/-- The state that is stored for a decision: an error is stored as down. -/
def storedState : Except String SignalState → SignalState
  | .ok state => state
  | .error _ => .down

/-- The decision on these answers: it votes if all can be read, and also where one is misread; it
does not vote where one cannot be read otherwise. -/
def Judged (codec : Codec) (sig : VotingSignal)
    (answers : List (Shape × Except String HttpResponse)) (decision : Except String SignalState) :
    Prop :=
  ((∀ answer ∈ answers, Readable codec answer) ∧ ¬ Misread codec sig answers ∧
    Votes (storedState decision)) ∨
  ((∃ answer ∈ answers, ¬ Readable codec answer) ∧ Misread codec sig answers ∧
    Votes (storedState decision)) ∨
  ((∃ answer ∈ answers, ¬ Readable codec answer) ∧ ¬ Misread codec sig answers ∧
    (storedState decision = .down ∨ (sig = .scan ∧ storedState decision = .skipped ∧
      ∃ answer ∈ answers, ∃ response, answer.2 = .ok response ∧ tableMissing response = true)))

section Judge

variable {codec : Codec} {sig : VotingSignal}
  {answers : List (Shape × Except String HttpResponse)} {decision : Except String SignalState}

/-- The decision is a vote exactly if all answers can be read. -/
def Decides (codec : Codec) (answers : List (Shape × Except String HttpResponse))
    (decision : Except String SignalState) : Prop :=
  ((∀ answer ∈ answers, Readable codec answer) ↔ ∃ state, decision = .ok state) ∧
    ∀ state, decision = .ok state → Votes state

theorem decides_pure {state : SignalState} (h : Votes state) :
    Decides codec [] (pure state) := by
  refine ⟨iff_of_true (fun _ hmem ↦ by cases hmem) ⟨state, rfl⟩, fun state' heq ↦ ?_⟩
  cases heq
  exact h

/-- One more answer is read first. -/
theorem decides_bind {α : Type} {answer : Shape × Except String HttpResponse}
    {y : Except String α} {g : α → Except String SignalState}
    (h : Readable codec answer ↔ ∃ a, y = .ok a) (hg : ∀ a, Decides codec answers (g a)) :
    Decides codec (answer :: answers) (y >>= g) := by
  rw [Decides, List.forall_mem_cons, h]
  cases y with
  | error e =>
    refine ⟨iff_of_false ?_ ?_, fun state heq ↦ by cases heq⟩
    · rintro ⟨⟨a, ha⟩, -⟩
      cases ha
    · rintro ⟨state, heq⟩
      cases heq
  | ok a =>
    refine ⟨?_, (hg a).2⟩
    rw [(hg a).1, and_iff_right ⟨a, rfl⟩]
    rfl

/-- Such a decision is judged where nothing is misread. -/
theorem judged_of_decides (hmisread : ¬ Misread codec sig answers)
    (h : Decides codec answers decision) : Judged codec sig answers decision := by
  by_cases hall : ∀ answer ∈ answers, Readable codec answer
  · obtain ⟨state, hstate⟩ := h.1.mp hall
    refine Or.inl ⟨hall, hmisread, ?_⟩
    rw [hstate]
    exact h.2 state hstate
  · refine Or.inr (Or.inr ⟨by simpa using hall, hmisread, Or.inl ?_⟩)
    cases decision with
    | error e => rfl
    | ok state => exact absurd (h.1.mpr ⟨state, rfl⟩) hall

/-- What a judged decision stores is no false Healthy exactly if nothing was misread. -/
theorem noFalseHealthy_iff_of_judged (h : Judged codec sig answers decision) :
    NoFalseHealthy codec sig answers (some (storedState decision).asStr) ↔
      ¬ Misread codec sig answers := by
  obtain ⟨hall, hmisread, -⟩ | ⟨⟨answer, hmem, hnot⟩, hmisread, hvotes⟩ |
    ⟨⟨answer, hmem, hnot⟩, hmisread, hstored⟩ := h
  · refine iff_of_true ⟨fun _ ↦ hall, ?_⟩ hmisread
    rintro ⟨answer, hmem, hnot⟩
    exact absurd (hall answer hmem) hnot
  · refine iff_of_false (fun hfalse ↦ ?_) (not_not.mpr hmisread)
    obtain hdown | ⟨-, hskipped, -⟩ := hfalse.2 ⟨answer, hmem, hnot⟩
    · rcases hvotes with hstate | hstate <;> rw [hstate] at hdown <;> exact absurd hdown (by decide)
    · rcases hvotes with hstate | hstate <;> rw [hstate] at hskipped <;>
        exact absurd hskipped (by decide)
  · refine iff_of_true ⟨fun hhealthy ↦ ?_, fun _ ↦ ?_⟩ hmisread
    · rcases hstored with hstate | ⟨-, hstate, -⟩ <;> rw [hstate] at hhealthy <;>
        exact absurd hhealthy (by decide)
    · obtain hstate | ⟨hscan, hstate, hmissing⟩ := hstored
      · exact Or.inl (by rw [hstate]; rfl)
      · exact Or.inr ⟨hscan, by rw [hstate]; rfl, hmissing⟩

/-- The only answer cannot be read. -/
theorem judged_of_not_readable {answer : Shape × Except String HttpResponse}
    (h : ¬ Readable codec answer) (hmisread : ¬ Misread codec sig [answer])
    (hstored : storedState decision = .down ∨ (sig = .scan ∧ storedState decision = .skipped ∧
      ∃ response, answer.2 = .ok response ∧ tableMissing response = true)) :
    Judged codec sig [answer] decision := by
  refine Or.inr (Or.inr ⟨⟨answer, List.mem_singleton_self _, h⟩, hmisread, ?_⟩)
  cases hstored with
  | inl hdown => exact Or.inl hdown
  | inr hmissing =>
    obtain ⟨hscan, hskipped, hresponse⟩ := hmissing
    exact Or.inr ⟨hscan, hskipped, answer, List.mem_singleton_self _, hresponse⟩

/-- Without a response there is nothing to misread. -/
theorem judged_of_error {shape : Shape} {e : String} (h : storedState decision = .down) :
    Judged codec sig [(shape, .error e)] decision := by
  apply judged_of_not_readable _ _ (Or.inl h)
  · rintro ⟨response, hanswer, -⟩
    cases hanswer
  · cases sig <;> exact id

end Judge

section Exceptions

variable {codec : Codec} {texts : Texts} (thresholds : Thresholds)

/-- The upgrade history counts from the rows of the tolerant parser. -/
theorem judged_upgrade (unixNow : Int) (answer : Except String HttpResponse) :
    Judged codec .upgrade [(.result, answer)] (do
      let upgrades ← answer.bind (readUpgrades codec)
      return upgradeState (failedUpgrades unixNow upgrades) thresholds) := by
  cases answer with
  | error e => exact judged_of_error rfl
  | ok response =>
    have hreadable : Readable codec (.result, .ok response) ↔
        response.status = 200 ∧ HasArray codec response.body "result" := by
      simp [Readable, Shape.Holds]
    rw [Except.bind, readUpgrades]
    by_cases hstatus : response.status = 200
    · rw [if_neg (not_not.mpr hstatus)]
      by_cases hresult : HasArray codec response.body "result"
      · refine Or.inl ⟨?_, fun hmisread ↦ hmisread.2 hresult, votes_evaluateGe _ _⟩
        rw [List.forall_mem_singleton, hreadable]
        exact ⟨hstatus, hresult⟩
      · refine Or.inr (Or.inl ⟨⟨_, List.mem_singleton_self _, ?_⟩, ⟨hstatus, hresult⟩,
          votes_evaluateGe _ _⟩)
        exact fun h ↦ hresult (hreadable.mp h).2
    · rw [if_pos hstatus]
      exact judged_of_not_readable (fun h ↦ hstatus (hreadable.mp h).1) (fun h ↦ hstatus h.1)
        (Or.inl rfl)

/-- A transaction average may be infinite or no number. -/
theorem judged_slowTxn (answer : Except String HttpResponse) :
    Judged codec .slowTxn [(.average, answer)] (do
      let avgMs ← answer.bind
        (readAggregate (parseAggregateAvg codec texts · transactionAvgField))
      return transactionState avgMs thresholds) := by
  cases answer with
  | error e => exact judged_of_error rfl
  | ok response =>
    have hreadable : Readable codec (.average, .ok response) ↔ _ := readable_average texts
    rw [Except.bind] at hreadable ⊢
    cases hread : readAggregate (parseAggregateAvg codec texts · transactionAvgField) response with
    | error e =>
      rw [hread] at hreadable
      apply judged_of_not_readable _ _ (Or.inl rfl)
      · intro h
        obtain ⟨q, hq⟩ := hreadable.mp h
        cases hq
      · rintro ⟨hstatus, average, haverage, -⟩
        rw [readAggregate_eq_ok.mpr ⟨hstatus, parseAggregateAvg_eq_ok.mpr haverage⟩] at hread
        cases hread
    | ok average =>
      rw [hread] at hreadable
      have hvotes := votes_transactionState thresholds average
      obtain ⟨hstatus, hparse⟩ := readAggregate_eq_ok.mp hread
      have hmisread : Misread codec .slowTxn [(.average, .ok response)] ↔ average.toRat = none := by
        constructor
        · rintro ⟨-, average', haverage, hnone⟩
          have hparse' : parseAggregateAvg codec texts response.body transactionAvgField =
              .ok average' := parseAggregateAvg_eq_ok.mpr haverage
          rw [hparse] at hparse'
          rwa [Except.ok.inj hparse']
        · exact fun hnone ↦ ⟨hstatus, average, parseAggregateAvg_eq_ok.mp hparse, hnone⟩
      cases average with
      | finite q =>
        refine Or.inl ⟨?_, fun h ↦ ?_, hvotes⟩
        · rw [List.forall_mem_singleton, hreadable]
          exact ⟨q, rfl⟩
        · cases hmisread.mp h
      | infinite | nan =>
        refine Or.inr (Or.inl ⟨⟨_, List.mem_singleton_self _, fun h ↦ ?_⟩, hmisread.mpr rfl,
          hvotes⟩)
        obtain ⟨q, hq⟩ := hreadable.mp h
        cases hq

/-- A scan is skipped where the table is missing. -/
theorem judged_scan (answer : Except String HttpResponse) :
    Judged codec .scan [(.result, answer)] (do
      let findings ← answer.bind (readFindings codec)
      return (scanObservation thresholds findings).state) := by
  have hreadable : Readable codec (.result, answer) ↔ _ := readable_findings
  cases hread : answer.bind (readFindings codec) with
  | error e =>
    rw [hread] at hreadable
    refine judged_of_not_readable (fun h ↦ ?_) id (Or.inl rfl)
    obtain ⟨findings, hfindings⟩ := hreadable.mp h
    cases hfindings
  | ok findings =>
    rw [hread] at hreadable
    cases findings with
    | none =>
      refine judged_of_not_readable (fun h ↦ ?_) id (Or.inr ⟨rfl, rfl, ?_⟩)
      · obtain ⟨findings, hfindings⟩ := hreadable.mp h
        cases hfindings
      · obtain ⟨response, hanswer, hnone⟩ := bind_eq_ok.mp hread
        refine ⟨response, hanswer, ?_⟩
        by_contra hmissing
        rw [readFindings, if_neg hmissing] at hnone
        split at hnone
        · cases hnone
        · cases hitems : parseResultArrayRequired codec response.body <;>
            rw [hitems] at hnone <;> cases hnone
    | some findings =>
      refine Or.inl ⟨?_, id, votes_evaluateGe _ _⟩
      rw [List.forall_mem_singleton, hreadable]
      exact ⟨findings, rfl⟩

/-- The status alone decides the HTTP probe's state. -/
theorem judged_httpProbe (rttMs : Nat) (answer : Except String HttpResponse) :
    Judged codec .httpProbe [(.anything, answer)] (do
      let response ← answer
      return httpProbeState response.status rttMs thresholds) := by
  cases answer with
  | error e => exact judged_of_error rfl
  | ok response =>
    have hreadable : Readable codec (.anything, .ok response) ↔
        200 ≤ response.status ∧ response.status < 400 := by
      simp [Readable, Shape.Holds]
    have hstored : storedState (do
        let response ← .ok response
        return httpProbeState response.status rttMs thresholds) =
        httpProbeState response.status rttMs thresholds := rfl
    by_cases hstatus : response.status < 200 ∨ 400 ≤ response.status
    · refine judged_of_not_readable (fun h ↦ ?_) id (Or.inl ?_)
      · have := hreadable.mp h
        omega
      · rw [hstored, httpProbeState, if_pos hstatus]
    · refine Or.inl ⟨?_, id, ?_⟩
      · rw [List.forall_mem_singleton, hreadable]
        omega
      · rw [hstored, httpProbeState, if_neg hstatus]
        split
        · split
          · exact Or.inr rfl
          · exact Or.inl rfl
        · exact Or.inl rfl

end Exceptions

/-- Every decision is judged so. -/
theorem judged_stateOf (x : ProbeInput) (sig : VotingSignal) (s : Session) :
    Judged x.codec sig (answersOf (sig.decisive x) s)
      (sig.stateOf x ((answersOf (sig.decisive x) s).map Prod.snd)) := by
  cases sig with
  | syslog | outbound | flow | email =>
    exact judged_of_decides id <|
      decides_bind (readable_count _) fun _ ↦ decides_pure (votes_evaluateGe _ _)
  | updateSets =>
    exact judged_of_decides id <|
      decides_bind readable_tableRows fun _ ↦ decides_pure (votes_evaluateGe _ _)
  | actions =>
    exact judged_of_decides id <|
      decides_bind readable_failedRuns fun _ ↦ decides_pure (votes_evaluateGe _ _)
  | jobs =>
    exact judged_of_decides id <|
      decides_bind (readable_count _) fun _ ↦ decides_bind (readable_count _) fun _ ↦
        decides_pure (votes_jobsState _ _ _)
  | midEcc =>
    exact judged_of_decides id <|
      decides_bind (readable_midAgents _) fun _ ↦ decides_bind (readable_count _) fun _ ↦
        decides_bind (readable_count _) fun _ ↦ decides_pure (votes_midEccState _ _ _ _)
  | upgrade => exact judged_upgrade _ _ _
  | slowTxn => exact judged_slowTxn _ _
  | scan => exact judged_scan _ _
  | httpProbe => exact judged_httpProbe _ _ _

/-- What `collect` stores for a probe is no false Healthy exactly if no answer was misread. -/
theorem no_false_healthy_iff (x : ProbeInput) (sig : VotingSignal) (s : Session)
    {environments : List EnvironmentConfig}
    (hnodup : (environments.map EnvironmentConfig.id).Nodup) (hmem : x.environment ∈ environments)
    {probe : EnvironmentConfig → Except String Observation}
    (hprobe : probe x.environment = outcome (sig.probe x) s) (observedAt : Int) (db : Db)
    (hprobed : gate x.codec.fromStr (Environments.signal sig.id) x.environment.id observedAt db =
      none) :
    NoFalseHealthy x.codec sig (answersOf (sig.decisive x) s)
        ((loadSignalSnapshot x.environment.id sig.id ((collect x.codec.fromStr x.texts.value
          (.perEnvironment (Environments.signal sig.id) environments observedAt probe)).run
            db)).map SignalSnapshot.state) ↔
      ¬ Misread x.codec sig (answersOf (sig.decisive x) s) := by
  have hsignal : (Environments.signal sig.id).id ≠ Health.availabilitySignalId := by
    cases sig <;> decide
  have hstored : loadSignalSnapshot x.environment.id sig.id ((collect x.codec.fromStr
      x.texts.value (.perEnvironment (Environments.signal sig.id) environments observedAt
        probe)).run db) = _ := loadSignalSnapshot_collect hsignal hnodup hmem db
  have hstate : (outcomeStored (outcome (sig.probe x) s)).1 =
      storedState (sig.stateOf x ((answersOf (sig.decisive x) s).map Prod.snd)) := by
    rw [← map_state_probe]
    cases outcome (sig.probe x) s <;> rfl
  rw [hprobed, hprobe] at hstored
  rw [hstored, ← noFalseHealthy_iff_of_judged (judged_stateOf x sig s), Option.map_some]
  dsimp only [turnStored]
  rw [hstate]

/-! ## Probes of one answer -/

/-- `{"result":{"stats":{"avg":{"response_time":"NaN"}}}}`. -/
def nanAverage : Value :=
  .object [("result", .object [("stats", .object [("avg", .object
    [("response_time", .string "NaN")])])])]

/-- The sample texts, and `NaN` for such an average. -/
def nanCodec : Codec :=
  { sampleCodec with fromStr := fun text ↦
      if text = "NaN" then some nanAverage else sampleCodec.fromStr text }

/-- An Environment with the basic Credential `old`. -/
def sampleInput : ProbeInput where
  codec := nanCodec
  texts := ⟨fun _ ↦ "", fun _ ↦ "", fun text ↦ text⟩
  environment := sampleEnvironment .basic
  credentials := ⟨fun _ ↦ .ok (some (basicText "old")), .stored⟩
  unixNow := 0
  rttMs := 0

/-- Every request is answered with status 200 and this body. -/
def answered (body : String) : Session :=
  .new (fun _ _ ↦ .ok (plainResponse 200 body)) id

/-- The stored state after one collect of a probe on such answers. -/
def storedOn (sig : VotingSignal) (body : String) : Option String :=
  (loadSignalSnapshot "prod" sig.id ((collect nanCodec.fromStr sampleInput.texts.value
    (.perEnvironment (Environments.signal sig.id) [sampleInput.environment] 0
      fun _ ↦ outcome (sig.probe sampleInput) (answered body))).run Db.empty)).map
        SignalSnapshot.state

theorem no_false_healthy_on_page :
    NoFalseHealthy nanCodec .upgrade
      (answersOf (VotingSignal.upgrade.decisive sampleInput) (answered pageText))
      (storedOn .upgrade pageText) := by
  have hnodup : ([sampleInput.environment].map EnvironmentConfig.id).Nodup :=
    List.nodup_singleton _
  apply (no_false_healthy_iff sampleInput .upgrade (answered pageText) hnodup
    (List.mem_singleton_self _) rfl 0 Db.empty rfl).mpr
  rintro ⟨-, hresult⟩
  exact hresult ⟨_, _, rfl, rfl⟩

/-- A page that is no JSON leaves the upgrade Signal healthy, and so does a response time of `NaN`
with slow transactions. -/
theorem false_healthy :
    (storedOn .upgrade "oops" = some "healthy" ∧ ¬ NoFalseHealthy nanCodec .upgrade
      (answersOf (VotingSignal.upgrade.decisive sampleInput) (answered "oops"))
      (storedOn .upgrade "oops")) ∧
    storedOn .slowTxn "NaN" = some "healthy" ∧ ¬ NoFalseHealthy nanCodec .slowTxn
      (answersOf (VotingSignal.slowTxn.decisive sampleInput) (answered "NaN"))
      (storedOn .slowTxn "NaN") := by
  have hupgrade : storedOn .upgrade "oops" = some "healthy" := by decide +kernel
  have hslow : storedOn .slowTxn "NaN" = some "healthy" := by decide +kernel
  refine ⟨⟨hupgrade, fun h ↦ ?_⟩, hslow, fun h ↦ ?_⟩
  · obtain ⟨response, hanswer, -, value, items, hparse, -⟩ :=
      h.1 hupgrade _ (List.mem_singleton_self _)
    cases hanswer
    have hnone : nanCodec.fromStr "oops" = none := rfl
    cases hnone.symm.trans hparse
  · obtain ⟨response, hanswer, -, q, value, avg, hparse, hpointer, haverage⟩ :=
      h.1 hslow _ (List.mem_singleton_self _)
    cases hanswer
    cases hparse
    cases hpointer
    have hnan : parseF64 "NaN" = some .nan := by decide +kernel
    obtain ⟨text, htext, hfinite⟩ | ⟨n, _, hnumber, -⟩ := haverage
    · cases htext
      cases hnan.symm.trans hfinite
    · cases hnumber

end Daku.Signals
