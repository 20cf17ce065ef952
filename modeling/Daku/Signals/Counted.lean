import Daku.Signals.NoFalseHealthy

/-!
# Counts of rows

Five Signals count the rows of one response: `crates/daku-core/src/scan.rs:61–132`,
`github.rs:53–157`, `upgrade.rs:48–120`, `update_sets.rs:47–94` and `mid_ecc.rs:21–131`. What the
drill-in shows is cut to ten rows. Two of them cut before they count.
-/

namespace Daku.Signals

open Daku.Base Daku.Protocol Daku.Http Daku.Collector Daku.Store

/-- The Signals that count the rows of a response. -/
inductive CountedSignal where
  | scan
  | actions
  | upgrade
  | updateSets
  | midEcc
  deriving DecidableEq, Repr

namespace CountedSignal

/-- The Signal with its probe. -/
def voting : CountedSignal → VotingSignal
  | scan => .scan
  | actions => .actions
  | upgrade => .upgrade
  | updateSets => .updateSets
  | midEcc => .midEcc

/-- The rows the request asks for at most (`scan.rs:27`, `github.rs:22`, `upgrade.rs:20`,
`update_sets.rs:25`, `mid_ecc.rs:13`). -/
def pageSize : CountedSignal → Nat
  | scan => 50
  | actions => 30
  | upgrade => 10
  | updateSets => 10
  | midEcc => 10000

/-- Where the response has its rows. -/
def arrayKey : CountedSignal → String
  | actions => "workflow_runs"
  | _ => "result"

/-- The list of the drill-in. -/
def listKey : CountedSignal → String
  | scan => "finding_rows"
  | actions => "run_rows"
  | upgrade => "upgrades"
  | updateSets => "open_rows"
  | midEcc => "agents_unhealthy_list"

/-- How many rows the drill-in shows. -/
def displayCap : CountedSignal → Nat
  | midEcc => unhealthyListLimit
  | _ => rowListLimit

end CountedSignal

/-- The rows of a response with status 200. -/
def rowsOfResponse (codec : Codec) (sig : CountedSignal) (response : HttpResponse) :
    Option (List Value) :=
  if response.status = 200 then
    ((codec.fromStr response.body).bind fun v ↦ v.get sig.arrayKey).bind Value.asArray
  else none

/-- At most so many, or all without a limit. -/
def limited {α : Type} (limit : Option Nat) (rows : List α) : List α :=
  match limit with
  | some n => rows.take n
  | none => rows

/-- What the rows of a response are observed as, with a limit of rows kept for the drill-in, and
with the two other counts of a MID probe. -/
def observeRows (x : ProbeInput) (limit : Option Nat) (rows : List Value) (ready error : Nat) :
    CountedSignal → Observation
  | .scan =>
    scanObservation x.environment.thresholds
      (some (limited limit (rows.filterMap (findingRow x.codec))))
  | .actions =>
    let runs := limited limit (rows.filterMap (failedRun x.codec x.unixNow))
    { state := evaluateGe runs.length x.environment.thresholds.actionsFailedDegradedAt
      payload := .object [("failed_24h", .number (.posInt runs.length)),
        ("reachability", .string "reachable"), ("run_rows", .array (runs.map RunRow.toValue)),
        ("run_rows_truncated", .bool (rowListLimit ≤ runs.length))]
      sample := none }
  | .upgrade =>
    let upgrades := limited limit (rows.filterMap (upgradeRow x.codec))
    let failed := failedUpgrades x.unixNow upgrades
    let last := upgrades.head?
    let lastAgeDays := last.bind fun row ↦ ageDays row.upgradeFinished x.unixNow
    { state := upgradeState failed x.environment.thresholds
      payload := .object [
        ("failed_7d", countValue failed),
        ("last_age_days", (lastAgeDays.map intValue).getD .null),
        ("last_finished", optionalText (last.map UpgradeRow.upgradeFinished)),
        ("last_from", optionalText (last.map UpgradeRow.fromVersion)),
        ("last_to", optionalText (last.map UpgradeRow.toVersion)),
        ("upgrades", .array (upgrades.map UpgradeRow.toValue)),
        ("upgrades_truncated", .bool (rowListLimit ≤ upgrades.length))]
      sample := none }
  | .updateSets =>
    let sets := rows.filterMap (updateSetRow x.codec)
    let openSets := (limited limit sets).filter fun row ↦ updateSetOpen row.state
    { state := updateSetsState openSets.length x.environment.thresholds
      payload := .object [
        ("open_count", countValue openSets.length),
        ("open_rows", .array (openSets.map UpdateSetRow.toValue)),
        ("open_rows_truncated", .bool (rowListLimit ≤ sets.length))]
      sample := none }
  | .midEcc =>
    let unhealthyList := (rows.filter fun agent ↦ !midAgentHealthy agent).map unhealthyEntry
    { state := midEccState unhealthyList.length error ready x.environment.thresholds
      payload := .object [
        ("agents_total", countValue rows.length),
        ("agents_unhealthy", countValue unhealthyList.length),
        ("agents_unhealthy_list", .array (limited limit unhealthyList)),
        ("agents_unhealthy_list_truncated", .bool (unhealthyListLimit < unhealthyList.length)),
        ("ecc_error", countValue error),
        ("ecc_output_ready", countValue ready)]
      sample := none }

/-- The other two counts of a MID probe, from the answers after the one with the rows. -/
def otherCounts (x : ProbeInput) :
    List (Except String HttpResponse) → Except String (Nat × Nat)
  | [ready, error] => do
    let ready ← ready.bind (VotingSignal.stateOf.readCount x)
    let error ← error.bind (VotingSignal.stateOf.readCount x)
    return (ready, error)
  | _ => .ok (0, 0)

section Probes

variable {x : ProbeInput} {s : Session} {response : HttpResponse} {rows : List Value}

/-- What is read out of an answer is the end. -/
private theorem outcome_read {α : Type} {send : ClientM HttpResponse}
    {read : HttpResponse → Except String α} {g : α → Observation} {a : α}
    (hsend : outcome send s = .ok response) (hread : read response = .ok a) :
    outcome (do let response ← send; let a ← ofExcept (read response); pure (g a)) s =
      .ok (g a) := by
  rw [outcome_bind, hsend]
  simp only [Except.bind, hread]
  rfl

/-- Rows are read out of a success only. -/
private theorem status_of_rows {sig : CountedSignal}
    (hrows : rowsOfResponse x.codec sig response = some rows) : response.status = 200 := by
  rw [rowsOfResponse] at hrows
  split at hrows
  · assumption
  · cases hrows

private theorem outcome_actionsProbe {others : List (Except String HttpResponse)}
    (hanswers : (answersOf (CountedSignal.actions.voting.decisive x) s).map Prod.snd =
      .ok response :: others)
    (hrows : rowsOfResponse x.codec .actions response = some rows) :
    outcome (CountedSignal.actions.voting.probe x) s = (otherCounts x others).map fun counts ↦
      observeRows x (some CountedSignal.actions.displayCap) rows counts.1 counts.2 .actions := by
  have hstatus := status_of_rows hrows
  rw [rowsOfResponse, if_pos hstatus] at hrows
  simp only [CountedSignal.arrayKey] at hrows
  obtain ⟨hanswer, rfl⟩ := List.cons.inj hanswers
  have hread : readFailedRuns x.codec x.unixNow response =
      .ok ((rows.filterMap (failedRun x.codec x.unixNow)).take rowListLimit) := by
    simp [readFailedRuns, hstatus, hrows]
  simp only [sendActions] at hanswer
  simp only [CountedSignal.voting, VotingSignal.probe, actionsProbe]
  -- A probe that was answered has a repository and a token.
  cases hrepo : splitGithubRepo x.environment.instanceUrl with
  | none =>
    rw [hrepo] at hanswer
    cases hanswer
  | some repo =>
    rw [hrepo] at hanswer
    dsimp only at hanswer ⊢
    rw [outcome_bind, outcome_ofExcept] at hanswer ⊢
    cases htoken : bearerToken x.codec x.environment.id x.credentials with
    | error e =>
      rw [htoken] at hanswer
      cases hanswer
    | ok token =>
      rw [htoken] at hanswer
      exact outcome_read hanswer hread

private theorem readMidAgents_of_rows
    (hrows : rowsOfResponse x.codec .midEcc response = some rows) :
    readMidAgents x.codec x.texts response = .ok (rows.length,
      (rows.filter fun agent ↦ !midAgentHealthy agent).map unhealthyEntry) := by
  have hstatus := status_of_rows hrows
  rw [rowsOfResponse, if_pos hstatus] at hrows
  simp only [CountedSignal.arrayKey] at hrows
  cases hjson : x.codec.fromStr response.body with
  | none =>
    rw [hjson] at hrows
    cases hrows
  | some value =>
    rw [hjson] at hrows
    simp only [Option.bind_some] at hrows
    simp [readMidAgents, hstatus, classifyMidAgents, hjson, hrows]

/-- A MID probe needs its two other counts. -/
private theorem outcome_midEccProbe {others : List (Except String HttpResponse)}
    (hanswers : (answersOf (CountedSignal.midEcc.voting.decisive x) s).map Prod.snd =
      .ok response :: others)
    (hrows : rowsOfResponse x.codec .midEcc response = some rows) :
    outcome (CountedSignal.midEcc.voting.probe x) s = (otherCounts x others).map fun counts ↦
      observeRows x (some CountedSignal.midEcc.displayCap) rows counts.1 counts.2 .midEcc := by
  obtain ⟨hanswer, rfl⟩ := List.cons.inj hanswers
  simp only [CountedSignal.voting, VotingSignal.probe, midEccProbe, fetchMidAgents,
    fetchAggregateCount, outcome_attemptResult_bind, outcome_bind_ofExcept,
    final_bind_ofExcept]
  have hagents : (outcome (getPath x.codec x.environment x.credentials eccAgentsPath) s).bind
      (readMidAgents x.codec x.texts) = .ok (rows.length,
        (rows.filter fun agent ↦ !midAgentHealthy agent).map unhealthyEntry) := by
    change outcome (getPath x.codec x.environment x.credentials eccAgentsPath) s = _ at hanswer
    rw [hanswer]
    exact readMidAgents_of_rows hrows
  rw [outcome_bind, outcome_ofExcept, hagents]
  dsimp only [Except.bind]
  rw [outcome_bind, outcome_ofExcept]
  simp only [answersOf, List.map_cons, List.map_nil, otherCounts, VotingSignal.decisive.get]
  change (Except.bind (Except.bind _ (VotingSignal.stateOf.readCount x)) _) = Except.map _
    (Except.bind (Except.bind _ (VotingSignal.stateOf.readCount x)) _)
  cases Except.bind _ (VotingSignal.stateOf.readCount x) with
  | error e => rfl
  | ok ready =>
    dsimp only [Except.bind]
    rw [outcome_bind, outcome_ofExcept]
    change (Except.bind (Except.bind _ (VotingSignal.stateOf.readCount x)) _) = Except.map _
      (Except.bind (Except.bind _ (VotingSignal.stateOf.readCount x)) _)
    cases Except.bind _ (VotingSignal.stateOf.readCount x) <;> rfl

/-- A probe of rows ends with what they are observed as. -/
theorem outcome_countedProbe (x : ProbeInput) (sig : CountedSignal) (s : Session)
    {others : List (Except String HttpResponse)}
    (hanswers : (answersOf (sig.voting.decisive x) s).map Prod.snd = .ok response :: others)
    (hrows : rowsOfResponse x.codec sig response = some rows) :
    outcome (sig.voting.probe x) s = (otherCounts x others).map fun counts ↦
      observeRows x (some sig.displayCap) rows counts.1 counts.2 sig := by
  have hstatus := status_of_rows hrows
  have harray := hrows
  rw [rowsOfResponse, if_pos hstatus] at harray
  cases sig with
  | scan =>
    simp only [CountedSignal.arrayKey] at harray
    obtain ⟨hanswer, rfl⟩ := List.cons.inj hanswers
    have hread : readFindings x.codec response =
        .ok (some ((rows.filterMap (findingRow x.codec)).take rowListLimit)) := by
      simp [readFindings, tableMissing, hstatus, parseResultArrayRequired, harray]
    exact outcome_read hanswer hread
  | upgrade =>
    simp only [CountedSignal.arrayKey] at harray
    obtain ⟨hanswer, rfl⟩ := List.cons.inj hanswers
    have hread : readUpgrades x.codec response =
        .ok ((rows.filterMap (upgradeRow x.codec)).take rowListLimit) := by
      simp [readUpgrades, hstatus, parseResultArray, harray]
    exact outcome_read hanswer hread
  | updateSets =>
    simp only [CountedSignal.arrayKey] at harray
    obtain ⟨hanswer, rfl⟩ := List.cons.inj hanswers
    have hread : readTableRows x.codec (updateSetRow x.codec) response =
        .ok (takeBounded (rows.filterMap (updateSetRow x.codec))) := by
      simp [readTableRows, isRateLimited, hstatus, parseResultArrayRequired, harray]
    simp only [CountedSignal.voting, VotingSignal.probe, updateSetsProbe, fetchTableRowsRequired,
      bind_assoc]
    exact outcome_read hanswer hread
  | actions => exact outcome_actionsProbe hanswers hrows
  | midEcc => exact outcome_midEccProbe hanswers hrows

end Probes

/-- The rows that a scan or an Actions probe can use. -/
def usableRows (x : ProbeInput) (rows : List Value) : CountedSignal → Nat
  | .scan => (rows.filterMap (findingRow x.codec)).length
  | .actions => (rows.filterMap (failedRun x.codec x.unixNow)).length
  | .upgrade => (rows.filterMap (upgradeRow x.codec)).length
  | .updateSets => (rows.filterMap (updateSetRow x.codec)).length
  | .midEcc => (rows.filter fun agent ↦ !midAgentHealthy agent).length

/-- The counts of all usable rows, under their names in the payload. -/
def countsOf (x : ProbeInput) (rows : List Value) : CountedSignal → List (String × Nat)
  | .scan =>
    let findings := rows.filterMap (findingRow x.codec)
    [("p1_open", (findings.filter fun row ↦ row.priority = "P1").length),
      ("p2_open", (findings.filter fun row ↦ row.priority ≠ "P1").length)]
  | .actions => [("failed_24h", (rows.filterMap (failedRun x.codec x.unixNow)).length)]
  | .upgrade => [("failed_7d", failedUpgrades x.unixNow (rows.filterMap (upgradeRow x.codec)))]
  | .updateSets =>
    [("open_count", ((rows.filterMap (updateSetRow x.codec)).filter fun row ↦
      updateSetOpen row.state).length)]
  | .midEcc => [("agents_unhealthy", (rows.filter fun agent ↦ !midAgentHealthy agent).length)]

/-- The state these counts decide, with the two other counts of a MID probe. -/
def stateOfCounts (thresholds : Thresholds) (ready error : Nat) :
    CountedSignal → List (String × Nat) → Option SignalState
  | .scan, [p1Open, _] => some (scanState p1Open.2 thresholds)
  | .actions, [failed] => some (evaluateGe failed.2 thresholds.actionsFailedDegradedAt)
  | .upgrade, [failed] => some (upgradeState failed.2 thresholds)
  | .updateSets, [openCount] => some (updateSetsState openCount.2 thresholds)
  | .midEcc, [unhealthy] => some (midEccState unhealthy.2 error ready thresholds)
  | _, _ => none

/-- An observation counts all usable rows: the limit of the drill-in shows in its list and the
flag of the list only, and the order of the rows in neither a count nor the state. -/
structure CountsAllRows (x : ProbeInput) (sig : CountedSignal) (rows : List Value)
    (ready error : Nat) (o : Observation) : Prop where
  counts : ∀ c ∈ countsOf x rows sig, o.payload.get c.1 = some (countValue c.2)
  state : some o.state = stateOfCounts x.environment.thresholds ready error sig
    (countsOf x rows sig)
  displayed : ∀ key, key ≠ sig.listKey → key ≠ sig.listKey ++ "_truncated" →
    o.payload.get key = (observeRows x none rows ready error sig).payload.get key
  reordered : ∀ rows' : List Value, rows'.Perm rows →
    let o' := observeRows x (some sig.displayCap) rows' ready error sig
    o'.state = o.state ∧ ∀ c ∈ countsOf x rows sig, o'.payload.get c.1 = o.payload.get c.1

/-- A scan or an Actions probe has no more usable rows than the drill-in shows. -/
def Uncut (x : ProbeInput) (sig : CountedSignal) (rows : List Value) : Prop :=
  sig = .scan ∨ sig = .actions → usableRows x rows sig ≤ sig.displayCap

section Counts

variable {x : ProbeInput} {sig : CountedSignal} {rows rows' : List Value} {ready error : Nat}

theorem limited_of_le {α : Type} {rows : List α} {n : Nat} (h : rows.length ≤ n) :
    limited (some n) rows = rows :=
  List.take_of_length_le h

/-- The order of the rows shows in no count. -/
theorem countsOf_perm (h : rows'.Perm rows) (sig : CountedSignal) :
    countsOf x rows' sig = countsOf x rows sig := by
  cases sig with
  | scan =>
    have hrows := h.filterMap (findingRow x.codec)
    simp only [countsOf, (hrows.filter _).length_eq]
  | actions => simp only [countsOf, (h.filterMap _).length_eq]
  | upgrade =>
    have hrows := h.filterMap (upgradeRow x.codec)
    simp only [countsOf, failedUpgrades, ((hrows.filter _).filter _).length_eq]
  | updateSets => simp only [countsOf, ((h.filterMap _).filter _).length_eq]
  | midEcc => simp only [countsOf, (h.filter _).length_eq]

theorem usableRows_perm (h : rows'.Perm rows) (sig : CountedSignal) :
    usableRows x rows' sig = usableRows x rows sig := by
  cases sig with
  | scan | actions | upgrade | updateSets => exact (h.filterMap _).length_eq
  | midEcc => exact (h.filter _).length_eq

theorem usableRows_le (sig : CountedSignal) : usableRows x rows sig ≤ rows.length := by
  cases sig with
  | scan | actions | upgrade | updateSets => exact List.length_filterMap_le _ _
  | midEcc => exact List.length_filter_le _ _

/-- Within the limit, what is shown is all there is. -/
theorem observeRows_of_le (h : usableRows x rows sig ≤ sig.displayCap) :
    observeRows x (some sig.displayCap) rows ready error sig =
      observeRows x none rows ready error sig := by
  cases sig with
  | scan =>
    exact congrArg (scanObservation x.environment.thresholds) (congrArg some (limited_of_le h))
  | actions => simp only [observeRows, limited_of_le h]; rfl
  | upgrade => simp only [observeRows, limited_of_le h]; rfl
  | updateSets => simp only [observeRows, limited_of_le h]; rfl
  | midEcc =>
    have hlist : ((rows.filter fun agent ↦ !midAgentHealthy agent).map unhealthyEntry).length ≤
        CountedSignal.midEcc.displayCap := by
      rwa [List.length_map]
    simp only [observeRows, limited_of_le hlist]
    rfl

/-- Without a limit all usable rows are counted. -/
theorem observeRows_none (sig : CountedSignal) :
    let o := observeRows x none rows ready error sig
    (∀ c ∈ countsOf x rows sig, o.payload.get c.1 = some (countValue c.2)) ∧
      some o.state = stateOfCounts x.environment.thresholds ready error sig
        (countsOf x rows sig) := by
  have hone (o : Observation) (c : String × Nat) (h : o.payload.get c.1 = some (countValue c.2)) :
      ∀ c' ∈ [c], o.payload.get c'.1 = some (countValue c'.2) := by
    rintro c' hc
    rwa [List.mem_singleton.mp hc]
  cases sig with
  | scan =>
    refine ⟨fun c hc ↦ ?_, rfl⟩
    obtain rfl | rfl := List.mem_pair.mp hc <;> rfl
  | actions | upgrade | updateSets => exact ⟨hone _ _ rfl, rfl⟩
  | midEcc =>
    refine ⟨hone _ _ ?_, ?_⟩
    · simp [observeRows, Value.get, List.lookup_cons]
    · simp only [observeRows, countsOf, stateOfCounts, List.length_map]

/-- The counts are neither the list nor its flag. -/
theorem ne_listKey_of_mem_countsOf {c : String × Nat} (h : c ∈ countsOf x rows sig) :
    c.1 ≠ sig.listKey ∧ c.1 ≠ sig.listKey ++ "_truncated" := by
  have hname : c.1 ∈ ["p1_open", "p2_open", "failed_24h", "failed_7d", "open_count",
      "agents_unhealthy"] := by
    cases sig <;> simp only [countsOf, List.mem_cons, List.not_mem_nil, or_false] at h <;>
      rcases h with rfl | rfl <;> simp
  have hne : ∀ sig : CountedSignal, ∀ name ∈ ["p1_open", "p2_open", "failed_24h", "failed_7d",
      "open_count", "agents_unhealthy"],
      name ≠ sig.listKey ∧ name ≠ sig.listKey ++ "_truncated" := by
    intro sig
    cases sig <;> decide
  exact hne sig c.1 hname

/-- Only the list and its flag tell whether there is a limit, if no rows are cut before they are
counted. -/
theorem observeRows_displayed (hpage : rows.length ≤ sig.pageSize) (h : Uncut x sig rows) :
    (observeRows x (some sig.displayCap) rows ready error sig).state =
        (observeRows x none rows ready error sig).state ∧
      ∀ key, key ≠ sig.listKey → key ≠ sig.listKey ++ "_truncated" →
        (observeRows x (some sig.displayCap) rows ready error sig).payload.get key =
          (observeRows x none rows ready error sig).payload.get key := by
  by_cases hle : usableRows x rows sig ≤ sig.displayCap
  · rw [observeRows_of_le hle]
    exact ⟨rfl, fun _ _ _ ↦ rfl⟩
  cases sig with
  | scan => cases hle (h (Or.inl rfl))
  | actions => cases hle (h (Or.inr rfl))
  | upgrade => cases hle ((usableRows_le _).trans hpage)
  | updateSets => cases hle ((usableRows_le _).trans hpage)
  | midEcc =>
    refine ⟨rfl, fun key hlist hflag ↦ ?_⟩
    simp only [observeRows, Value.get, List.lookup_cons]
    have hlist : (key == "agents_unhealthy_list") = false := beq_false_of_ne hlist
    simp [hlist]

/-- With no rows cut before they are counted, all usable rows are counted in any order. -/
theorem countsAllRows_of_uncut (hpage : rows.length ≤ sig.pageSize) (h : Uncut x sig rows) :
    CountsAllRows x sig rows ready error
      (observeRows x (some sig.displayCap) rows ready error sig) := by
  have hcounted : ∀ rows' : List Value, rows'.length ≤ sig.pageSize → Uncut x sig rows' →
      let o := observeRows x (some sig.displayCap) rows' ready error sig
      (∀ c ∈ countsOf x rows' sig, o.payload.get c.1 = some (countValue c.2)) ∧
        some o.state = stateOfCounts x.environment.thresholds ready error sig
          (countsOf x rows' sig) := by
    intro rows' hpage h
    obtain ⟨hstate, hdisplayed⟩ := @observeRows_displayed x sig rows' ready error hpage h
    obtain ⟨hcounts, hcounted⟩ := @observeRows_none x rows' ready error sig
    refine ⟨fun c hc ↦ ?_, hstate ▸ hcounted⟩
    obtain ⟨hlist, hflag⟩ := ne_listKey_of_mem_countsOf hc
    rw [hdisplayed c.1 hlist hflag]
    exact hcounts c hc
  obtain ⟨hcounts, hstate⟩ := hcounted rows hpage h
  refine ⟨hcounts, hstate, (observeRows_displayed hpage h).2, fun rows' hperm ↦ ?_⟩
  have h' : Uncut x sig rows' := by
    intro hsig
    rw [usableRows_perm hperm]
    exact h hsig
  obtain ⟨hcounts', hstate'⟩ := hcounted rows' (hperm.length_eq ▸ hpage) h'
  rw [countsOf_perm hperm] at hcounts' hstate'
  exact ⟨Option.some.inj (hstate'.trans hstate.symm),
    fun c hc ↦ (hcounts' c hc).trans (hcounts c hc).symm⟩

theorem countValue_inj {n m : Nat} (h : some (countValue n) = some (countValue m)) : n = m := by
  cases h
  rfl

/-- A list that is no longer after a cut was within the limit. -/
private theorem length_le_of_limited {α : Type} {list : List α} {n : Nat}
    (h : (limited (some n) list).length = list.length) : list.length ≤ n := by
  rw [← h]
  exact (List.length_take_le _ _)

/-- Findings with the priority P1 and the others are all findings. -/
private theorem length_priorities (findings : List FindingRow) :
    (findings.filter fun row ↦ row.priority = "P1").length +
      (findings.filter fun row ↦ row.priority ≠ "P1").length = findings.length := by
  simp only [← List.countP_eq_length_filter]
  rw [List.length_eq_countP_add_countP (fun row : FindingRow ↦ decide (row.priority = "P1"))]
  simp

/-- Counts of all usable rows show that no rows were cut. -/
theorem uncut_of_countsAllRows (h : CountsAllRows x sig rows ready error
    (observeRows x (some sig.displayCap) rows ready error sig)) : Uncut x sig rows := by
  rintro (rfl | rfl)
  · have hp1 := countValue_inj (h.counts _ List.mem_cons_self)
    have hp2 := countValue_inj (h.counts _ (List.mem_cons_of_mem _ List.mem_cons_self))
    apply length_le_of_limited
    rw [← length_priorities, ← length_priorities (rows.filterMap (findingRow x.codec))]
    exact congrArg₂ (· + ·) hp1 hp2
  · exact length_le_of_limited (countValue_inj (h.counts _ List.mem_cons_self))

end Counts

/-- A collect stores the counts of all usable rows, whatever the drill-in shows, exactly if a scan
or an Actions response has no more usable rows than the drill-in shows. -/
theorem counts_all_rows_iff (x : ProbeInput) (sig : CountedSignal) (s : Session)
    {environments : List EnvironmentConfig}
    (hnodup : (environments.map EnvironmentConfig.id).Nodup) (hmem : x.environment ∈ environments)
    {probe : EnvironmentConfig → Except String Observation}
    (hprobe : probe x.environment = outcome (sig.voting.probe x) s) (observedAt : Int) (db : Db)
    (hprobed : gate x.codec.fromStr (Environments.signal sig.voting.id) x.environment.id observedAt
      db = none)
    {response : HttpResponse} {others : List (Except String HttpResponse)}
    (hanswers : (answersOf (sig.voting.decisive x) s).map Prod.snd = .ok response :: others)
    {rows : List Value} (hrows : rowsOfResponse x.codec sig response = some rows)
    (hpage : rows.length ≤ sig.pageSize) {ready error : Nat}
    (hothers : otherCounts x others = .ok (ready, error)) :
    ∃ o : Observation,
      loadSignalSnapshot x.environment.id sig.voting.id ((collect x.codec.fromStr x.texts.value
          (.perEnvironment (Environments.signal sig.voting.id) environments observedAt probe)).run
            db) = some ⟨x.environment.id, sig.voting.id, observedAt, o.state.asStr,
              x.texts.value o.payload⟩ ∧
        (CountsAllRows x sig rows ready error o ↔ Uncut x sig rows) := by
  have hsignal : (Environments.signal sig.voting.id).id ≠ Health.availabilitySignalId := by
    cases sig <;> decide
  have hstored : loadSignalSnapshot x.environment.id sig.voting.id ((collect x.codec.fromStr
      x.texts.value (.perEnvironment (Environments.signal sig.voting.id) environments observedAt
        probe)).run db) = _ := loadSignalSnapshot_collect hsignal hnodup hmem db
  rw [hprobed, hprobe, outcome_countedProbe x sig s hanswers hrows, hothers] at hstored
  exact ⟨_, hstored, uncut_of_countsAllRows, countsAllRows_of_uncut hpage⟩

/-! ## A P1 finding behind ten others -/

/-- A finding in the state `open`. -/
def openFinding (sysId priority : String) : Value :=
  .object [("priority", .string priority), ("state", .string "open"), ("sys_id", .string sysId)]

/-- Findings that a body can list. -/
def sampleFindings : String → List Value
  | "few" => [openFinding "a" "1"]
  | "many" => List.replicate 10 (openFinding "b" "2") ++ [openFinding "a" "1"]
  | _ => []

/-- The count of P1 findings in a payload, in digits. -/
def p1Text (payload : Value) : String :=
  (((payload.get "p1_open").bind Value.asU64).map toString).getD ""

/-- The sample texts, and the findings of a body. -/
def findingsFromStr (text : String) : Option Value :=
  if text = "few" ∨ text = "many" then
    some (.object [("result", .array (sampleFindings text))])
  else sampleCodec.fromStr text

/-- The sample input, with these texts. -/
def scanInput : ProbeInput :=
  { sampleInput with
    codec := { sampleCodec with fromStr := findingsFromStr }
    texts := ⟨p1Text, fun _ ↦ "", fun text ↦ text⟩ }

/-- What one collect of a scan stores on this body. -/
def scanStored (body : String) : Option SignalSnapshot :=
  loadSignalSnapshot "prod" "scan" ((collect scanInput.codec.fromStr scanInput.texts.value
    (.perEnvironment (Environments.signal "scan") [scanInput.environment] 0
      fun _ ↦ outcome (VotingSignal.scan.probe scanInput) (answered body))).run Db.empty)

theorem counts_all_rows_of_few :
    ∃ o : Observation,
      scanStored "few" = some ⟨"prod", "scan", 0, o.state.asStr, scanInput.texts.value o.payload⟩ ∧
        (CountsAllRows scanInput .scan (sampleFindings "few") 0 0 o ↔
          Uncut scanInput .scan (sampleFindings "few")) := by
  have hnodup : ([scanInput.environment].map EnvironmentConfig.id).Nodup :=
    List.nodup_singleton _
  have hpage : (sampleFindings "few").length ≤ CountedSignal.scan.pageSize := by decide
  exact counts_all_rows_iff scanInput .scan (answered "few") hnodup (List.mem_singleton_self _) rfl
    0 Db.empty rfl rfl rfl hpage rfl

/-- Behind ten open P2 findings an open P1 finding is not counted, and the scan is stored as
healthy; alone it is counted. -/
theorem p1_finding_not_counted :
    rowsOfResponse scanInput.codec .scan (plainResponse 200 "many") =
        some (sampleFindings "many") ∧
      (sampleFindings "many").length ≤ CountedSignal.scan.pageSize ∧
      scanStored "many" = some ⟨"prod", "scan", 0, "healthy", "0"⟩ ∧
      scanStored "few" = some ⟨"prod", "scan", 0, "degraded", "1"⟩ ∧
      ∀ o : Observation, scanStored "many" =
          some ⟨"prod", "scan", 0, o.state.asStr, scanInput.texts.value o.payload⟩ →
        ¬ CountsAllRows scanInput .scan (sampleFindings "many") 0 0 o := by
  have hmany : scanStored "many" = some ⟨"prod", "scan", 0, "healthy", "0"⟩ := by decide +kernel
  have hfew : scanStored "few" = some ⟨"prod", "scan", 0, "degraded", "1"⟩ := by decide +kernel
  refine ⟨rfl, by decide, hmany, hfew, fun o hstored hcounts ↦ ?_⟩
  have hdegraded : stateOfCounts scanInput.environment.thresholds 0 0 .scan
      (countsOf scanInput (sampleFindings "many") .scan) = some .degraded := by decide +kernel
  have hstate : o.state = .degraded := Option.some.inj (hcounts.state.trans hdegraded)
  rw [hmany, hstate] at hstored
  simp [SignalState.asStr] at hstored

end Daku.Signals
