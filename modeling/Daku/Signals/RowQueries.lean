import Daku.Signals.Written

/-!
# Queries for rows

Which requests of a probe ask for the rows of a drill-in (`crates/daku-core/src/jobs.rs:99–115`,
`syslog.rs:90–95` and alike), and what their payloads keep of a response: its first rows, with a
flag if there are others.
-/

namespace Daku.Signals

open Daku.Base Daku.Protocol Daku.Http Daku.Collector

/-- A query for the rows of a drill-in. -/
structure RowQuery where
  /-- The key of the list in the payload. -/
  listKey : String
  send : ClientM HttpResponse
  /-- The client after the requests before the query. -/
  sender : Session → Session
  /-- The query is sent. -/
  asked : Session → Prop
  /-- The rows of a response that are usable, as they are written. -/
  usable : HttpResponse → List Value

/-- A payload lists the first of the usable rows; if they are not all, its flag says so. -/
def ListsFirst (payload : Value) (listKey : String) (usable : List Value) : Prop :=
  ∃ rows, payload.get listKey = some (.array rows) ∧ rows <+: usable ∧
    (rows.length < usable.length → payload.get (listKey ++ "_truncated") = some (.bool true))

/-- The payload lists the first rows of the response, if its status was 200. -/
def RowQuery.Tells (q : RowQuery) (s : Session) (o : Observation) : Prop :=
  q.asked s → ∀ response, outcome q.send (q.sender s) = .ok response → response.status = 200 →
    ListsFirst o.payload q.listKey (q.usable response)

/-- The usable rows of a Table API response. -/
def tableRowsOf {ρ : Type} (codec : Codec) (map : Value → Option ρ) (write : ρ → Value)
    (response : HttpResponse) : List Value :=
  ((parseResultArray codec response.body).filterMap map).map write

/-- The failed runs of a response. -/
def runRowsOf (codec : Codec) (unixNow : Int) (response : HttpResponse) : List Value :=
  (((((codec.fromStr response.body).bind fun v ↦ v.get "workflow_runs").bind
    Value.asArray).getD []).filterMap (failedRun codec unixNow)).map RunRow.toValue

section Queries

variable (x : ProbeInput)

/-- A count that decides whether rows are asked for. -/
def countAsked (countPath : String) : ClientM Nat :=
  fetchAggregateCount x.codec x.texts x.environment x.credentials countPath

/-- The rows of a probe of one count. -/
def countedQuery (countPath rowsPath listKey : String) (usable : HttpResponse → List Value) :
    RowQuery where
  listKey := listKey
  send := getPath x.codec x.environment x.credentials rowsPath
  sender s := final (countAsked x countPath s)
  asked s := ∃ count, outcome (countAsked x countPath) s = .ok count ∧ 0 < count
  usable := usable

/-- Rows that a probe asks for first. -/
def firstQuery (listKey : String) (send : ClientM HttpResponse)
    (usable : HttpResponse → List Value) : RowQuery where
  listKey := listKey
  send := send
  sender := id
  asked _ := True
  usable := usable

/-- The client after both counts of jobs. -/
def afterCounts (s : Session) : Session :=
  final (countAsked x jobsErrorPath (final (countAsked x jobsOverduePath s)))

/-- The overdue jobs. -/
def overdueQuery : RowQuery where
  listKey := "overdue_rows"
  send := getPath x.codec x.environment x.credentials jobsOverdueRowsPath
  sender := afterCounts x
  asked s := ∃ count, outcome (countAsked x jobsOverduePath) s = .ok count ∧ 0 < count
  usable := tableRowsOf x.codec (jobRow x.codec false) JobRow.toValue

/-- The jobs in error, asked for after the overdue ones. -/
def jobErrorQuery : RowQuery where
  listKey := "error_rows"
  send := getPath x.codec x.environment x.credentials jobsErrorRowsPath
  sender s :=
    let overdueReady := (outcome (countAsked x jobsOverduePath) s).toOption.getD 0
    final (rowsOf x.codec x.environment x.credentials overdueReady jobsOverdueRowsPath
      (jobRow x.codec false) (afterCounts x s))
  asked s := ∃ count, outcome (countAsked x jobsErrorPath)
    (final (countAsked x jobsOverduePath s)) = .ok count ∧ 0 < count
  usable := tableRowsOf x.codec (jobRow x.codec true) JobRow.toValue

/-- The average that decides whether the slowest transactions are asked for. -/
def averageAsked : ClientM F64 :=
  fetchAggregateAvg x.codec x.texts x.environment x.credentials transactionAvgPath
    transactionAvgField

/-- The slowest transactions. -/
def slowQuery : RowQuery where
  listKey := "slow_rows"
  send := getPath x.codec x.environment x.credentials transactionSlowRowsPath
  sender s := final (averageAsked x s)
  asked s := ∃ avgMs, outcome (averageAsked x) s = .ok avgMs ∧
    transactionState avgMs x.environment.thresholds = .degraded
  usable := tableRowsOf x.codec (slowRow x.codec) SlowRow.toValue

/-- The queries for rows of a probe. -/
def rowQueries : VotingSignal → List RowQuery
  | .jobs => [overdueQuery x, jobErrorQuery x]
  | .syslog =>
    [countedQuery x syslogErrorPath syslogErrorRowsPath "error_rows"
      (tableRowsOf x.codec (syslogRow x.codec) SyslogRow.toValue)]
  | .outbound =>
    [countedQuery x outboundHttpPath outboundFailureRowsPath "failure_rows"
      (tableRowsOf x.codec (outboundRow x.codec) OutboundRow.toValue)]
  | .flow =>
    [countedQuery x flowErrorPath flowErrorRowsPath "error_rows"
      (tableRowsOf x.codec (flowRow x.codec) FlowRow.toValue)]
  | .email =>
    [countedQuery x emailFailurePath emailFailureRowsPath "error_rows"
      (tableRowsOf x.codec (emailRow x.codec) EmailRow.toValue)]
  | .midEcc =>
    [firstQuery "agents_unhealthy_list" (getPath x.codec x.environment x.credentials eccAgentsPath)
      fun response ↦ ((parseResultArray x.codec response.body).filter fun agent ↦
        !midAgentHealthy agent).map unhealthyEntry]
  | .upgrade =>
    [firstQuery "upgrades" (getPath x.codec x.environment x.credentials upgradeHistoryPath)
      (tableRowsOf x.codec (upgradeRow x.codec) UpgradeRow.toValue)]
  | .slowTxn => [slowQuery x]
  | .updateSets =>
    [firstQuery "open_rows" (getPath x.codec x.environment x.credentials updateSetsPath)
      fun response ↦ (((parseResultArray x.codec response.body).filterMap
        (updateSetRow x.codec)).filter fun row ↦ updateSetOpen row.state).map UpdateSetRow.toValue]
  | .scan =>
    [firstQuery "finding_rows" (getPath x.codec x.environment x.credentials scanFindingsPath)
      (tableRowsOf x.codec (findingRow x.codec) FindingRow.toValue)]
  | .httpProbe => []
  | .actions =>
    [firstQuery "run_rows" (sendActions x.codec x.environment x.credentials)
      (runRowsOf x.codec x.unixNow)]

/-- The query of the sessions probe. -/
def sessionsQuery : RowQuery :=
  firstQuery "session_rows" (getPath x.codec x.environment x.credentials sessionsPath)
    (tableRowsOf x.codec (sessionRow x.codec) SessionRow.toValue)

end Queries

section Kept

variable {ρ : Type} {rows : List ρ} {codec : Codec} {environment : EnvironmentConfig}
  {credentials : CredentialStore} {s : Session} {response : HttpResponse}

/-- The first entries up to a limit, with a flag that is set if there are others. -/
theorem listsFirst_take {usable : List Value} {limit : Nat} {flag : Bool} {payload : Value}
    {listKey : String} (hlist : payload.get listKey = some (.array (usable.take limit)))
    (hflag : payload.get (listKey ++ "_truncated") = some (.bool flag))
    (hset : limit < usable.length → flag = true) : ListsFirst payload listKey usable := by
  refine ⟨_, hlist, List.take_prefix limit usable, ?_⟩
  intro hless
  rw [List.length_take] at hless
  rw [hflag, hset (by omega)]

/-- Rows bounded as `take_bounded` does. -/
theorem listsFirst_takeBounded (write : ρ → Value) {kept : List ρ × Bool} {payload : Value}
    {listKey : String} (hkept : kept = takeBounded rows)
    (hlist : payload.get listKey = some (.array (kept.1.map write)))
    (hflag : payload.get (listKey ++ "_truncated") = some (.bool kept.2)) :
    ListsFirst payload listKey (rows.map write) := by
  rw [hkept] at hlist hflag
  rw [takeBounded, List.map_take] at hlist
  apply listsFirst_take hlist hflag
  intro hmore
  rw [List.length_map] at hmore
  exact decide_eq_true hmore.le

/-- A full list of the first rows, with the flag read off it. -/
theorem listsFirst_full (write : ρ → Value) {kept : List ρ} {payload : Value} {listKey : String}
    (hkept : kept = rows.take rowListLimit)
    (hlist : payload.get listKey = some (.array (kept.map write)))
    (hflag : payload.get (listKey ++ "_truncated") = some (.bool (rowListLimit ≤ kept.length))) :
    ListsFirst payload listKey (rows.map write) := by
  rw [hkept, List.map_take] at hlist
  apply listsFirst_take hlist hflag
  intro hmore
  rw [List.length_map] at hmore
  rw [hkept, List.length_take]
  apply decide_eq_true
  omega

/-- Rows that are asked for are those of the response. -/
theorem fetched_answered {path : String} {map : Value → Option ρ}
    {kept : (List ρ × Bool) × Bool}
    (hsend : outcome (getPath codec environment credentials path) s = .ok response)
    (hstatus : response.status = 200)
    (h : outcome (fetchTableRowsWithThrottle codec environment credentials path map) s =
      .ok kept) :
    kept.1 = takeBounded ((parseResultArray codec response.body).filterMap map) := by
  rw [fetchTableRowsWithThrottle, outcome_attemptResult_bind, hsend, outcome_pure] at h
  rw [← Except.ok.inj h, readRowsTolerantly, isRateLimited, hstatus]
  rfl

theorem rowsOf_answered {count : Nat} {path : String} {map : Value → Option ρ}
    {kept : (List ρ × Bool) × Bool} (hcount : 0 < count)
    (hsend : outcome (getPath codec environment credentials path) s = .ok response)
    (hstatus : response.status = 200)
    (h : outcome (rowsOf codec environment credentials count path map) s = .ok kept) :
    kept.1 = takeBounded ((parseResultArray codec response.body).filterMap map) := by
  rw [rowsOf, if_pos hcount] at h
  exact fetched_answered hsend hstatus h

theorem parseResultArray_of_required {body : String} {items : List Value}
    (h : parseResultArrayRequired codec body = .ok items) :
    parseResultArray codec body = items := by
  rw [parseResultArrayRequired] at h
  rw [parseResultArray]
  cases hitems : ((codec.fromStr body).bind fun v ↦ v.get "result").bind Value.asArray with
  | none =>
    rw [hitems] at h
    cases h
  | some rows =>
    rw [hitems] at h
    exact Except.ok.inj h

private theorem readTableRows_answered {map : Value → Option ρ} {kept : List ρ × Bool}
    (hstatus : response.status = 200) (h : readTableRows codec map response = .ok kept) :
    kept = takeBounded ((parseResultArray codec response.body).filterMap map) := by
  rw [readTableRows, isRateLimited, hstatus, if_neg (by simp), if_neg (by simp)] at h
  cases hitems : parseResultArrayRequired codec response.body with
  | error e =>
    rw [hitems] at h
    cases h
  | ok items =>
    rw [hitems] at h
    rw [parseResultArray_of_required hitems]
    exact (Except.ok.inj h).symm

private theorem readMidAgents_answered {texts : Texts} {agents : Nat × List Value}
    (hstatus : response.status = 200) (h : readMidAgents codec texts response = .ok agents) :
    agents.2 = ((parseResultArray codec response.body).filter fun agent ↦
      !midAgentHealthy agent).map unhealthyEntry := by
  rw [readMidAgents, if_neg (not_not_intro hstatus), classifyMidAgents] at h
  rw [parseResultArray]
  cases hjson : codec.fromStr response.body with
  | none =>
    rw [hjson] at h
    cases h
  | some value =>
    rw [hjson] at h
    dsimp only at h
    rw [Option.bind_some]
    cases hagents : (value.get "result").bind Value.asArray with
    | none =>
      rw [hagents] at h
      cases h
    | some rows =>
      rw [hagents] at h
      rw [← Except.ok.inj h, Option.getD_some]

private theorem readFindings_answered {findings : Option (List FindingRow)}
    (hstatus : response.status = 200) (h : readFindings codec response = .ok findings) :
    findings = some (((parseResultArray codec response.body).filterMap
      (findingRow codec)).take rowListLimit) := by
  have hmissing : tableMissing response = false := by simp [tableMissing, hstatus]
  rw [readFindings, hmissing, if_neg Bool.false_ne_true, if_neg (not_not_intro hstatus)] at h
  cases hitems : parseResultArrayRequired codec response.body with
  | error e =>
    rw [hitems] at h
    cases h
  | ok items =>
    rw [hitems] at h
    rw [parseResultArray_of_required hitems]
    exact (Except.ok.inj h).symm

private theorem readSessions_answered {sessions : Nat × Bool × List SessionRow × Bool}
    (hstatus : response.status = 200) (h : readSessions codec response = .ok sessions) :
    sessions.2.2 =
      takeBounded ((parseResultArray codec response.body).filterMap (sessionRow codec)) := by
  rw [readSessions, if_neg (not_not_intro hstatus)] at h
  rw [parseResultArray]
  cases hrows : ((codec.fromStr response.body).bind fun v ↦ v.get "result").bind
      Value.asArray with
  | none =>
    rw [hrows] at h
    cases h
  | some rows =>
    rw [hrows] at h
    rw [← Except.ok.inj h, Option.getD_some]

private theorem readFailedRuns_answered {unixNow : Int} {runs : List RunRow}
    (hstatus : response.status = 200) (h : readFailedRuns codec unixNow response = .ok runs) :
    runs = (((((codec.fromStr response.body).bind fun v ↦ v.get "workflow_runs").bind
      Value.asArray).getD []).filterMap (failedRun codec unixNow)).take rowListLimit := by
  have hauth : ¬ (response.status = 401 ∨ response.status = 403) := by omega
  rw [readFailedRuns, if_neg hauth, if_neg (not_not_intro hstatus)] at h
  cases hrows : ((codec.fromStr response.body).bind fun v ↦ v.get "workflow_runs").bind
      Value.asArray with
  | none =>
    rw [hrows] at h
    cases h
  | some rows =>
    rw [hrows] at h
    rw [← Except.ok.inj h, Option.getD_some]

/-- Open update sets among the first rows, with the flag of all rows. -/
private theorem listsFirst_openSets {sets : List UpdateSetRow} {kept : List UpdateSetRow × Bool}
    {payload : Value} (hkept : kept = takeBounded sets)
    (hlist : payload.get "open_rows" = some (.array ((kept.1.filter fun row ↦
      updateSetOpen row.state).map UpdateSetRow.toValue)))
    (hflag : payload.get ("open_rows" ++ "_truncated") = some (.bool kept.2)) :
    ListsFirst payload "open_rows" ((sets.filter fun row ↦
      updateSetOpen row.state).map UpdateSetRow.toValue) := by
  rw [hkept] at hlist hflag
  refine ⟨_, hlist, ((List.take_prefix rowListLimit sets).filter _).map _, ?_⟩
  intro hless
  have hmore : rowListLimit < sets.length := by
    by_contra hall
    rw [takeBounded, List.take_of_length_le (by omega)] at hless
    exact lt_irrefl _ hless
  rw [hflag]
  exact congrArg (some ∘ Value.bool) (decide_eq_true hmore.le)

end Kept

section Probes

variable {x : ProbeInput} {s : Session} {o : Observation}

private theorem countedProbe_tells {ρ : Type} {countPath rowsPath listKey : String}
    {map : Value → Option ρ} {write : ρ → Value} {state : Nat → Thresholds → SignalState}
    {payload : Nat → List ρ → Bool → Bool → List (String × Value)} {sampled : Bool}
    (hlist : ∀ count rows truncated throttled,
      (Value.object (payload count rows truncated throttled)).get listKey =
        some (.array (rows.map write)))
    (hflag : ∀ count rows truncated throttled,
      (Value.object (payload count rows truncated throttled)).get (listKey ++ "_truncated") =
        some (.bool truncated))
    (h : outcome (countedProbe x.codec x.texts x.environment x.credentials countPath rowsPath map
      state payload sampled) s = .ok o) :
    (countedQuery x countPath rowsPath listKey (tableRowsOf x.codec map write)).Tells s o := by
  rintro ⟨count, hcount, hpositive⟩ response hresponse hstatus
  rw [countedProbe] at h
  replace h := outcome_rest h hcount
  obtain ⟨kept, hkept, h⟩ := ok_of_outcome_bind h
  obtain rfl := eq_of_outcome_pure h
  exact listsFirst_takeBounded write (rowsOf_answered hpositive hresponse hstatus hkept)
    (hlist _ _ _ _) (hflag _ _ _ _)

private theorem jobsProbe_tells
    (h : outcome (jobsProbe x.codec x.texts x.environment x.credentials) s = .ok o) :
    (overdueQuery x).Tells s o ∧ (jobErrorQuery x).Tells s o := by
  rw [jobsProbe, outcome_attemptResult_bind, outcome_attemptResult_bind] at h
  obtain ⟨overdueReady, hoverdue, h⟩ := ok_of_outcome_ofExcept_bind h
  obtain ⟨error, herror, h⟩ := ok_of_outcome_ofExcept_bind h
  obtain ⟨overdue, hoverdueRows, h⟩ := ok_of_outcome_bind h
  obtain ⟨errors, herrorRows, h⟩ := ok_of_outcome_bind h
  obtain rfl := eq_of_outcome_pure h
  constructor
  · rintro ⟨count, hcount, hpositive⟩ response hresponse hstatus
    obtain rfl := Except.ok.inj (hoverdue.symm.trans hcount)
    exact listsFirst_takeBounded JobRow.toValue
      (rowsOf_answered hpositive hresponse hstatus hoverdueRows) rfl rfl
  · rintro ⟨count, hcount, hpositive⟩ response hresponse hstatus
    obtain rfl := Except.ok.inj (herror.symm.trans hcount)
    have hread : outcome (countAsked x jobsOverduePath) s = .ok overdueReady := hoverdue
    simp only [jobErrorQuery, hread] at hresponse
    exact listsFirst_takeBounded JobRow.toValue
      (rowsOf_answered hpositive hresponse hstatus herrorRows) rfl rfl

theorem tells_of_probe {sig : VotingSignal} {q : RowQuery} (hquery : q ∈ rowQueries x sig)
    (h : outcome (sig.probe x) s = .ok o) : q.Tells s o := by
  cases sig with
  | jobs =>
    obtain ⟨hoverdue, herror⟩ := jobsProbe_tells h
    rcases List.mem_pair.mp hquery with rfl | rfl
    · exact hoverdue
    · exact herror
  | syslog =>
    rw [VotingSignal.probe, syslogProbe] at h
    rw [List.mem_singleton.mp hquery]
    exact countedProbe_tells (fun _ _ _ _ ↦ rfl) (fun _ _ _ _ ↦ rfl) h
  | outbound =>
    rw [VotingSignal.probe, outboundProbe] at h
    rw [List.mem_singleton.mp hquery]
    exact countedProbe_tells (fun _ _ _ _ ↦ rfl) (fun _ _ _ _ ↦ rfl) h
  | flow =>
    rw [VotingSignal.probe, flowProbe] at h
    rw [List.mem_singleton.mp hquery]
    exact countedProbe_tells (fun _ _ _ _ ↦ rfl) (fun _ _ _ _ ↦ rfl) h
  | email =>
    rw [VotingSignal.probe, emailProbe] at h
    rw [List.mem_singleton.mp hquery]
    exact countedProbe_tells (fun _ _ _ _ ↦ rfl) (fun _ _ _ _ ↦ rfl) h
  | midEcc =>
    rw [List.mem_singleton.mp hquery]
    intro _ response hresponse hstatus
    rw [VotingSignal.probe, midEccProbe, outcome_attemptResult_bind, outcome_attemptResult_bind,
      outcome_attemptResult_bind] at h
    obtain ⟨agents, hagents, h⟩ := ok_of_outcome_ofExcept_bind h
    obtain ⟨ready, -, h⟩ := ok_of_outcome_ofExcept_bind h
    obtain ⟨error, -, h⟩ := ok_of_outcome_ofExcept_bind h
    obtain rfl := eq_of_outcome_pure h
    rw [fetchMidAgents] at hagents
    replace hagents := outcome_rest hagents hresponse
    rw [outcome_ofExcept] at hagents
    have hlist := readMidAgents_answered hstatus hagents
    exact listsFirst_take (hlist ▸ rfl) rfl fun hmore ↦ decide_eq_true (hlist ▸ hmore)
  | upgrade =>
    rw [List.mem_singleton.mp hquery]
    intro _ response hresponse hstatus
    rw [VotingSignal.probe, upgradeProbe] at h
    replace h := outcome_rest h hresponse
    obtain ⟨upgrades, hupgrades, h⟩ := ok_of_outcome_ofExcept_bind h
    obtain rfl := eq_of_outcome_pure h
    rw [readUpgrades, if_neg (not_not_intro hstatus)] at hupgrades
    exact listsFirst_full UpgradeRow.toValue (Except.ok.inj hupgrades).symm rfl rfl
  | slowTxn =>
    rw [List.mem_singleton.mp hquery]
    rintro ⟨avgMs, havg, hdegraded⟩ response hresponse hstatus
    rw [VotingSignal.probe, transactionProbe] at h
    replace h := outcome_rest h havg
    obtain ⟨slow, hslow, h⟩ := ok_of_outcome_bind h
    obtain rfl := eq_of_outcome_pure h
    rw [slowRowsOf, if_pos hdegraded, fetchTableRows] at hslow
    obtain ⟨rows, hrows, hslow⟩ := ok_of_outcome_bind hslow
    obtain rfl := eq_of_outcome_pure hslow
    exact listsFirst_takeBounded SlowRow.toValue (fetched_answered hresponse hstatus hrows) rfl rfl
  | updateSets =>
    rw [List.mem_singleton.mp hquery]
    intro _ response hresponse hstatus
    rw [VotingSignal.probe, updateSetsProbe, fetchTableRowsRequired, bind_assoc] at h
    replace h := outcome_rest h hresponse
    obtain ⟨sets, hsets, h⟩ := ok_of_outcome_ofExcept_bind h
    obtain rfl := eq_of_outcome_pure h
    exact listsFirst_openSets (readTableRows_answered hstatus hsets) rfl rfl
  | scan =>
    rw [List.mem_singleton.mp hquery]
    intro _ response hresponse hstatus
    rw [VotingSignal.probe, scanProbe] at h
    replace h := outcome_rest h hresponse
    obtain ⟨findings, hfindings, h⟩ := ok_of_outcome_ofExcept_bind h
    obtain rfl := eq_of_outcome_pure h
    rw [readFindings_answered hstatus hfindings]
    exact listsFirst_full FindingRow.toValue rfl rfl rfl
  | httpProbe => cases hquery
  | actions =>
    rw [List.mem_singleton.mp hquery]
    intro _ response hresponse hstatus
    rw [VotingSignal.probe, actionsProbe] at h
    have hsent : outcome (sendActions x.codec x.environment x.credentials) s = .ok response :=
      hresponse
    rw [sendActions] at hsent
    split at h
    · cases h
    · next owner repo hrepo =>
      rw [hrepo] at hsent
      obtain ⟨token, htoken, h⟩ := ok_of_outcome_ofExcept_bind h
      obtain ⟨response', hresponse', h⟩ := ok_of_outcome_bind h
      obtain ⟨token', htoken', hsent⟩ := ok_of_outcome_ofExcept_bind hsent
      obtain rfl := Except.ok.inj (htoken'.symm.trans htoken)
      obtain rfl := Except.ok.inj (hresponse'.symm.trans hsent)
      obtain ⟨runs, hruns, h⟩ := ok_of_outcome_ofExcept_bind h
      obtain rfl := eq_of_outcome_pure h
      exact listsFirst_full RunRow.toValue (readFailedRuns_answered hstatus hruns) rfl rfl

/-- The sessions probe as well. -/
theorem sessionsQuery_tells
    (h : outcome (sessionsProbe x.codec x.environment x.credentials) s = .ok o) :
    (sessionsQuery x).Tells s o := by
  intro _ response hresponse hstatus
  rw [sessionsProbe] at h
  replace h := outcome_rest h hresponse
  obtain ⟨sessions, hsessions, h⟩ := ok_of_outcome_ofExcept_bind h
  obtain rfl := eq_of_outcome_pure h
  exact listsFirst_takeBounded SessionRow.toValue (readSessions_answered hstatus hsessions) rfl rfl

end Probes

end Daku.Signals
