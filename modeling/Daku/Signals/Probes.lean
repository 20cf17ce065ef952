import Daku.Signals.Tables

/-!
# Probes of a ServiceNow Environment

The probes of the counting Signals of `crates/daku-core/src`: `jobs.rs`, `syslog.rs`,
`mid_ecc.rs`, `outbound.rs`, `flow.rs`, `email.rs`, `upgrade.rs`, `transaction.rs`,
`update_sets.rs` and `scan.rs`. The day of an upgrade probe is given from outside.
-/

namespace Daku.Signals

open Daku.Base Daku.Protocol Daku.Http Daku.Collector

/-- A count in JSON. -/
def countValue (n : Nat) : Value := .number (.posInt n)

/-- An `f64` in JSON; the special values are `null`. -/
def f64Value (x : F64) : Value := (x.toRat.map fun q ↦ .number (.float q)).getD .null

/-- The `throttled_detail` of a payload. -/
def throttledValue (throttled : Bool) : Value :=
  if throttled then .string throttledDetail else .null

/-- A row is kept under its `sys_id`, if it has one. -/
def keyed {ρ : Type} (codec : Codec) (row : Value) (build : String → ρ) : Option ρ :=
  let sysId := rowText codec row "sys_id"
  if sysId = "" then none else some (build sysId)

/-- A state text reads as one of the markers. `to_lowercase` differs from its ASCII version on
such markers for no text. -/
def readsAs (markers : List String) (state : String) : Bool :=
  markers.any fun marker ↦ containsText marker (toAsciiLowercase state)

/-! ## Jobs -/

/-- `JOBS_OVERDUE_PATH` (`jobs.rs:12`). -/
def jobsOverduePath : String :=
  "/api/now/stats/sys_trigger?sysparm_count=true&sysparm_query=state=0^next_action<javascript:gs.minutesAgoStart(15)"

/-- `JOBS_ERROR_PATH` (`jobs.rs:13–14`). -/
def jobsErrorPath : String :=
  "/api/now/stats/sys_trigger?sysparm_count=true&sysparm_query=state=3"

/-- `JOBS_OVERDUE_ROWS_PATH` (`jobs.rs:16`). -/
def jobsOverdueRowsPath : String :=
  "/api/now/table/sys_trigger?sysparm_fields=sys_id,name,state,next_action&sysparm_query=state=0^next_action<javascript:gs.minutesAgoStart(15)^ORDERBYnext_action&sysparm_limit=10"

/-- `JOBS_ERROR_ROWS_PATH` (`jobs.rs:17`). -/
def jobsErrorRowsPath : String :=
  "/api/now/table/sys_trigger?sysparm_fields=sys_id,name,state,next_action&sysparm_query=state=3^ORDERBYDESCsys_updated_on&sysparm_limit=10"

/-- `jobs_state` (`jobs.rs:19–27`). -/
def jobsState (overdueReady error : Nat) (thresholds : Thresholds) : SignalState :=
  if evaluateGe overdueReady thresholds.jobsOverdueDegradedAt = .degraded ∨
      evaluateGe error thresholds.jobsErrorDegradedAt = .degraded then .degraded
  else .healthy

/-- `JobRow` (`jobs.rs:29–34`). -/
structure JobRow where
  sysId : String
  name : String
  detail : String
  deriving DecidableEq, Repr

/-- A job row in JSON. -/
def JobRow.toValue (row : JobRow) : Value :=
  .object [("detail", .string row.detail), ("name", .string row.name),
    ("sys_id", .string row.sysId)]

/-- The row of `fetch_job_rows` (`jobs.rs:48–62`). -/
def jobRow (codec : Codec) (errorDetail : Bool) (row : Value) : Option JobRow :=
  keyed codec row fun sysId ↦
    let name := rowText codec row "name"
    { sysId
      name := if name = "" then sysId else name
      detail := rowText codec row (if errorDetail then "state" else "next_action") }

/-! ## One count with its rows -/

/-- `SyslogRow` (`syslog.rs:20–26`). -/
structure SyslogRow where
  sysId : String
  source : String
  message : String
  sysCreatedOn : String
  deriving DecidableEq, Repr

/-- A syslog row in JSON. -/
def SyslogRow.toValue (row : SyslogRow) : Value :=
  .object [("message", .string row.message), ("source", .string row.source),
    ("sys_created_on", .string row.sysCreatedOn), ("sys_id", .string row.sysId)]

/-- The row of `fetch_syslog_rows` (`syslog.rs:50–64`). -/
def syslogRow (codec : Codec) (row : Value) : Option SyslogRow :=
  keyed codec row fun sysId ↦
    { sysId
      source := rowText codec row "source"
      message := String.ofList ((rowText codec row "message").toList.take 160)
      sysCreatedOn := rowText codec row "sys_created_on" }

/-- `syslog_error_path` (`syslog.rs:28–32`). -/
def syslogErrorPath : String :=
  "/api/now/stats/syslog?sysparm_count=true&sysparm_query=level=2^sys_created_on>javascript:gs.hoursAgoStart(1)"

/-- `syslog_error_rows_path` (`syslog.rs:13–18`). -/
def syslogErrorRowsPath : String :=
  "/api/now/table/syslog?sysparm_fields=sys_id,source,message,level,sys_created_on&sysparm_query=level=2^sys_created_on>javascript:gs.hoursAgoStart(1)^ORDERBYDESCsys_created_on&sysparm_limit=10"

/-- `syslog_state` (`syslog.rs:34–36`). -/
def syslogState (errorCount : Nat) (thresholds : Thresholds) : SignalState :=
  evaluateGe errorCount thresholds.syslogErrorDegradedAt

/-- `OutboundRow` (`outbound.rs:15–21`). -/
structure OutboundRow where
  sysId : String
  url : String
  httpStatus : String
  sysCreatedOn : String
  deriving DecidableEq, Repr

/-- An outbound row in JSON. -/
def OutboundRow.toValue (row : OutboundRow) : Value :=
  .object [("http_status", .string row.httpStatus), ("sys_created_on", .string row.sysCreatedOn),
    ("sys_id", .string row.sysId), ("url", .string row.url)]

/-- The row of `fetch_outbound_rows` (`outbound.rs:43–54`). -/
def outboundRow (codec : Codec) (row : Value) : Option OutboundRow :=
  keyed codec row fun sysId ↦
    { sysId
      url := redactUrl (rowText codec row "url")
      httpStatus := rowText codec row "http_status"
      sysCreatedOn := rowText codec row "sys_created_on" }

/-- `OUTBOUND_HTTP_PATH` (`outbound.rs:11`). -/
def outboundHttpPath : String :=
  "/api/now/stats/sys_outbound_http_log?sysparm_count=true&sysparm_query=http_status>=400^sys_created_on>javascript:gs.hoursAgoStart(1)"

/-- `OUTBOUND_FAILURE_ROWS_PATH` (`outbound.rs:13`). -/
def outboundFailureRowsPath : String :=
  "/api/now/table/sys_outbound_http_log?sysparm_fields=sys_id,url,http_status,sys_created_on&sysparm_query=http_status>=400^sys_created_on>javascript:gs.hoursAgoStart(1)^ORDERBYDESCsys_created_on&sysparm_limit=10"

/-- `outbound_state` (`outbound.rs:23–28`). -/
def outboundState (failures : Nat) (thresholds : Thresholds) : SignalState :=
  evaluateGe failures thresholds.outboundFailuresDegradedAt

/-- `FlowRow` (`flow.rs:20–26`). -/
structure FlowRow where
  sysId : String
  name : String
  state : String
  sysUpdatedOn : String
  deriving DecidableEq, Repr

/-- A flow row in JSON. -/
def FlowRow.toValue (row : FlowRow) : Value :=
  .object [("name", .string row.name), ("state", .string row.state),
    ("sys_id", .string row.sysId), ("sys_updated_on", .string row.sysUpdatedOn)]

/-- The row of `fetch_flow_rows` (`flow.rs:44–55`). -/
def flowRow (codec : Codec) (row : Value) : Option FlowRow :=
  keyed codec row fun sysId ↦
    { sysId
      name := rowText codec row "name"
      state := rowText codec row "state"
      sysUpdatedOn := rowText codec row "sys_updated_on" }

/-- `FLOW_ERROR_PATH` (`flow.rs:16`). -/
def flowErrorPath : String :=
  "/api/now/stats/sys_flow_context?sysparm_count=true&sysparm_query=state=ERROR^sys_updated_on>javascript:gs.hoursAgoStart(1)"

/-- `FLOW_ERROR_ROWS_PATH` (`flow.rs:18`). -/
def flowErrorRowsPath : String :=
  "/api/now/table/sys_flow_context?sysparm_fields=sys_id,name,state,sys_updated_on&sysparm_query=state=ERROR^sys_updated_on>javascript:gs.hoursAgoStart(1)^ORDERBYDESCsys_updated_on&sysparm_limit=10"

/-- `flow_state` (`flow.rs:28–30`). -/
def flowState (errors : Nat) (thresholds : Thresholds) : SignalState :=
  evaluateGe errors thresholds.flowErrorDegradedAt

/-- `EmailRow` (`email.rs:20–26`). -/
structure EmailRow where
  sysId : String
  subject : String
  recipients : String
  sysCreatedOn : String
  deriving DecidableEq, Repr

/-- An email row in JSON. -/
def EmailRow.toValue (row : EmailRow) : Value :=
  .object [("recipients", .string row.recipients), ("subject", .string row.subject),
    ("sys_created_on", .string row.sysCreatedOn), ("sys_id", .string row.sysId)]

/-- The row of `fetch_email_rows` (`email.rs:47–58`). -/
def emailRow (codec : Codec) (row : Value) : Option EmailRow :=
  keyed codec row fun sysId ↦
    { sysId
      subject := rowText codec row "subject"
      recipients := rowText codec row "recipients"
      sysCreatedOn := rowText codec row "sys_created_on" }

/-- `EMAIL_FAILURE_PATH` (`email.rs:16`). -/
def emailFailurePath : String :=
  "/api/now/stats/sys_email?sysparm_count=true&sysparm_query=type=send-failed^sys_created_on>javascript:gs.hoursAgoStart(1)"

/-- `EMAIL_FAILURE_ROWS_PATH` (`email.rs:18`). -/
def emailFailureRowsPath : String :=
  "/api/now/table/sys_email?sysparm_fields=sys_id,subject,recipients,error_string,sys_created_on&sysparm_query=type=send-failed^sys_created_on>javascript:gs.hoursAgoStart(1)^ORDERBYDESCsys_created_on&sysparm_limit=10"

/-- `email_state` (`email.rs:28–30`). -/
def emailState (failed : Nat) (thresholds : Thresholds) : SignalState :=
  evaluateGe failed thresholds.emailFailureDegradedAt

/-! ## Agents -/

/-- `ECC_AGENTS_PATH` (`mid_ecc.rs:13`). -/
def eccAgentsPath : String :=
  "/api/now/table/ecc_agent?sysparm_fields=status,validated,version,host_name&sysparm_limit=10000"

/-- `ECC_OUTPUT_READY_PATH` (`mid_ecc.rs:14`). -/
def eccOutputReadyPath : String :=
  "/api/now/stats/ecc_queue?sysparm_count=true&sysparm_query=queue=output^state=ready^sys_created_on>javascript:gs.daysAgoStart(7)"

/-- `ECC_ERROR_PATH` (`mid_ecc.rs:15`). -/
def eccErrorPath : String :=
  "/api/now/stats/ecc_queue?sysparm_count=true&sysparm_query=state=error^sys_created_on>javascript:gs.daysAgoStart(7)"

/-- `UNHEALTHY_LIST_LIMIT` (`mid_ecc.rs:19`). -/
def unhealthyListLimit : Nat := 10

/-- `is_validated_true` (`mid_ecc.rs:59–65`). -/
def isValidatedTrue : Option Value → Bool
  | some (.bool true) => true
  | some (.string text) => eqIgnoreAsciiCase text "true"
  | _ => false

/-- `mid_agent_healthy` (`mid_ecc.rs:54–57`). -/
def midAgentHealthy (agent : Value) : Bool :=
  ((agent.get "status").bind Value.asStr) = some "Up" && isValidatedTrue (agent.get "validated")

/-- `unhealthy_entry` (`mid_ecc.rs:38–52`). -/
def unhealthyEntry (agent : Value) : Value :=
  let field (key : String) := optionalText (((agent.get key).bind Value.asStr).filter (· ≠ ""))
  .object [("host_name", field "host_name"), ("status", field "status"),
    ("version", field "version")]

/-- `classify_mid_agents` (`mid_ecc.rs:21–36`). -/
def classifyMidAgents (codec : Codec) (texts : Texts) (body : String) :
    Except String (Nat × List Value) :=
  match codec.fromStr body with
  | none => .error (texts.jsonError body)
  | some value =>
    match (value.get "result").bind Value.asArray with
    | none => .error "ecc_agent response missing result array"
    | some agents =>
      .ok (agents.length, (agents.filter fun agent ↦ !midAgentHealthy agent).map unhealthyEntry)

/-- What `fetch_mid_agents` reads out of its response (`mid_ecc.rs:139–142`). -/
def readMidAgents (codec : Codec) (texts : Texts) (response : HttpResponse) :
    Except String (Nat × List Value) :=
  if response.status ≠ 200 then .error s!"HTTP {response.status}"
  else classifyMidAgents codec texts response.body

/-- `mid_ecc_state` (`mid_ecc.rs:67–81`). -/
def midEccState (agentsUnhealthy eccError eccOutputReady : Nat) (thresholds : Thresholds) :
    SignalState :=
  if agentsUnhealthy < thresholds.midUnhealthyDegradedAt ∧
      eccError < thresholds.eccErrorDegradedAt ∧
      eccOutputReady < thresholds.eccOutputReadyDegradedAt then .healthy
  else .degraded

/-! ## Upgrades -/

/-- `UPGRADE_HISTORY_PATH` (`upgrade.rs:20`). -/
def upgradeHistoryPath : String :=
  "/api/now/table/sys_upgrade_history?sysparm_fields=sys_id,from_version,to_version,state,upgrade_started,upgrade_finished&sysparm_query=ORDERBYDESCupgrade_finished&sysparm_limit=10"

/-- `UPGRADE_FAILURE_WINDOW_DAYS` (`upgrade.rs:25`). -/
def upgradeFailureWindowDays : Int := 7

/-- `UpgradeRow` (`upgrade.rs:27–35`). -/
structure UpgradeRow where
  sysId : String
  fromVersion : String
  toVersion : String
  state : String
  upgradeStarted : String
  upgradeFinished : String
  deriving DecidableEq, Repr

/-- An upgrade row in JSON. -/
def UpgradeRow.toValue (row : UpgradeRow) : Value :=
  .object [("from_version", .string row.fromVersion), ("state", .string row.state),
    ("sys_id", .string row.sysId), ("to_version", .string row.toVersion),
    ("upgrade_finished", .string row.upgradeFinished),
    ("upgrade_started", .string row.upgradeStarted)]

/-- The row of `fetch_upgrades` (`upgrade.rs:59–73`). -/
def upgradeRow (codec : Codec) (row : Value) : Option UpgradeRow :=
  keyed codec row fun sysId ↦
    { sysId
      fromVersion := rowText codec row "from_version"
      toVersion := rowText codec row "to_version"
      state := rowText codec row "state"
      upgradeStarted := rowText codec row "upgrade_started"
      upgradeFinished := rowText codec row "upgrade_finished" }

/-- What `fetch_upgrades` reads out of its response (`upgrade.rs:54–74`): of a body without a
`result` array, no rows. -/
def readUpgrades (codec : Codec) (response : HttpResponse) : Except String (List UpgradeRow) :=
  if response.status ≠ 200 then .error s!"HTTP {response.status}"
  else .ok (((parseResultArray codec response.body).filterMap (upgradeRow codec)).take
    rowListLimit)

/-- `is_failed` of an upgrade (`upgrade.rs:37–42`). -/
def upgradeFailed (state : String) : Bool := readsAs ["fail", "error", "cancel", "abort"] state

/-- Failed upgrades of the last days (`upgrade.rs:95–102`). -/
def failedUpgrades (unixNow : Int) (upgrades : List UpgradeRow) : Nat :=
  ((upgrades.filter fun row ↦ upgradeFailed row.state).filter fun row ↦
    (ageDays row.upgradeFinished unixNow).all (· ≤ upgradeFailureWindowDays)).length

/-- `upgrade_state` (`upgrade.rs:44–46`). -/
def upgradeState (failed : Nat) (thresholds : Thresholds) : SignalState :=
  evaluateGe failed thresholds.upgradeFailedDegradedAt

/-! ## Slow transactions -/

/-- `TRANSACTION_AVG_FIELD` (`transaction.rs:22`). -/
def transactionAvgField : String := "response_time"

/-- `TRANSACTION_AVG_PATH` (`transaction.rs:23`). -/
def transactionAvgPath : String :=
  "/api/now/stats/syslog_transaction?sysparm_avg_fields=response_time&sysparm_query=sys_created_on>javascript:gs.hoursAgoStart(1)"

/-- `TRANSACTION_SLOW_ROWS_PATH` (`transaction.rs:26`). -/
def transactionSlowRowsPath : String :=
  "/api/now/table/syslog_transaction?sysparm_fields=sys_id,url,response_time,sys_created_on&sysparm_query=sys_created_on>javascript:gs.hoursAgoStart(1)^ORDERBYDESCresponse_time&sysparm_limit=10"

/-- `SlowRow` (`transaction.rs:28–34`). -/
structure SlowRow where
  sysId : String
  url : String
  responseTime : String
  sysCreatedOn : String
  deriving DecidableEq, Repr

/-- A slow row in JSON. -/
def SlowRow.toValue (row : SlowRow) : Value :=
  .object [("response_time", .string row.responseTime),
    ("sys_created_on", .string row.sysCreatedOn), ("sys_id", .string row.sysId),
    ("url", .string row.url)]

/-- The row of `fetch_slow_rows` (`transaction.rs:59–70`). -/
def slowRow (codec : Codec) (row : Value) : Option SlowRow :=
  keyed codec row fun sysId ↦
    { sysId
      url := redactUrl (rowText codec row "url")
      responseTime := rowText codec row "response_time"
      sysCreatedOn := rowText codec row "sys_created_on" }

/-- `transaction_state` (`transaction.rs:36–45`). -/
def transactionState (avgMs : F64) (thresholds : Thresholds) : SignalState :=
  if thresholds.transactionAvgDegradedMs.any fun ceiling ↦ avgMs.ge (toF64 ceiling) then .degraded
  else .healthy

/-! ## Update sets -/

/-- `UPDATE_SETS_PATH` (`update_sets.rs:25`). -/
def updateSetsPath : String :=
  "/api/now/table/sys_update_set?sysparm_fields=sys_id,name,state,sys_updated_on&sysparm_query=ORDERBYDESCsys_updated_on&sysparm_limit=10"

/-- `UpdateSetRow` (`update_sets.rs:30–36`). -/
structure UpdateSetRow where
  sysId : String
  name : String
  state : String
  sysUpdatedOn : String
  deriving DecidableEq, Repr

/-- An update set row in JSON. -/
def UpdateSetRow.toValue (row : UpdateSetRow) : Value :=
  .object [("name", .string row.name), ("state", .string row.state),
    ("sys_id", .string row.sysId), ("sys_updated_on", .string row.sysUpdatedOn)]

/-- The row of `fetch_update_sets` (`update_sets.rs:52–63`). -/
def updateSetRow (codec : Codec) (row : Value) : Option UpdateSetRow :=
  keyed codec row fun sysId ↦
    { sysId
      name := rowText codec row "name"
      state := rowText codec row "state"
      sysUpdatedOn := rowText codec row "sys_updated_on" }

/-- `is_open` of an update set (`update_sets.rs:28, 38–41`). -/
def updateSetOpen (state : String) : Bool := readsAs ["open", "build", "progress"] state

/-- `update_sets_state` (`update_sets.rs:43–45`). -/
def updateSetsState (openCount : Nat) (thresholds : Thresholds) : SignalState :=
  evaluateGe openCount thresholds.updateSetsOpenDegradedAt

/-! ## Scan findings -/

/-- `SCAN_FINDINGS_PATH` (`scan.rs:27`). -/
def scanFindingsPath : String :=
  "/api/now/table/scan_finding?sysparm_fields=sys_id,priority,state,sys_updated_on&sysparm_query=ORDERBYDESCsys_updated_on&sysparm_limit=50"

/-- `FindingRow` (`scan.rs:30–36`). -/
structure FindingRow where
  sysId : String
  priority : String
  state : String
  sysUpdatedOn : String
  deriving DecidableEq, Repr

/-- A finding in JSON. -/
def FindingRow.toValue (row : FindingRow) : Value :=
  .object [("priority", .string row.priority), ("state", .string row.state),
    ("sys_id", .string row.sysId), ("sys_updated_on", .string row.sysUpdatedOn)]

/-- `is_open` of a finding (`scan.rs:37–43`). -/
def findingOpen (state : String) : Bool :=
  !readsAs ["clos", "fix", "resolv", "dismiss", "ignor"] state

/-- `priority_bucket` (`scan.rs:45–55`). -/
def priorityBucket (priority : String) : String :=
  match (trim priority).toList.head? with
  | some '1' => "P1"
  | some '2' => "P2"
  | some '3' => "P3"
  | some '4' => "P4"
  | _ => "P2"

/-- The row of `fetch_findings` (`scan.rs:78–93`). -/
def findingRow (codec : Codec) (row : Value) : Option FindingRow :=
  let state := rowText codec row "state"
  (keyed codec row fun sysId ↦
    { sysId
      priority := priorityBucket (rowText codec row "priority")
      state
      sysUpdatedOn := rowText codec row "sys_updated_on" }).filter fun _ ↦ findingOpen state

/-- The answer says that there is no such table (`scan.rs:68–72`). -/
def tableMissing (response : HttpResponse) : Bool :=
  response.status = 404 || (response.status = 400 && containsText "nvalid table" response.body)

/-- What `fetch_findings` reads out of its response (`scan.rs:68–96`). -/
def readFindings (codec : Codec) (response : HttpResponse) :
    Except String (Option (List FindingRow)) :=
  if tableMissing response then .ok none
  else if response.status ≠ 200 then .error s!"HTTP {response.status}"
  else do
    let items ← parseResultArrayRequired codec response.body
    return some ((items.filterMap (findingRow codec)).take rowListLimit)

/-- `scan_state` (`scan.rs:57–59`). -/
def scanState (p1Open : Nat) (thresholds : Thresholds) : SignalState :=
  evaluateGe p1Open thresholds.scanP1DegradedAt

/-! ## The probes -/

section Probe

variable (codec : Codec) (texts : Texts) (environment : EnvironmentConfig)
  (credentials : CredentialStore)

/-- Rows only while the count is not zero (`jobs.rs:99–115`, `syslog.rs:90–95` and alike). -/
def rowsOf {ρ : Type} (count : Nat) (path : String) (map : Value → Option ρ) :
    ClientM ((List ρ × Bool) × Bool) :=
  if 0 < count then fetchTableRowsWithThrottle codec environment credentials path map
  else pure (([], false), false)

/-- `JobsSignal::probe` (`jobs.rs:81–131`). -/
def jobsProbe : ClientM Observation := do
  let overdueReady ← attemptResult
    (fetchAggregateCount codec texts environment credentials jobsOverduePath)
  let error ← attemptResult
    (fetchAggregateCount codec texts environment credentials jobsErrorPath)
  let overdueReady ← ofExcept overdueReady
  let error ← ofExcept error
  let overdue ← rowsOf codec environment credentials overdueReady jobsOverdueRowsPath
    (jobRow codec false)
  let errors ← rowsOf codec environment credentials error jobsErrorRowsPath (jobRow codec true)
  let throttled := overdue.2 || errors.2
  pure {
    state := jobsState overdueReady error environment.thresholds
    payload := .object [
      ("error", countValue error),
      ("error_rows", .array (errors.1.1.map JobRow.toValue)),
      ("error_rows_truncated", .bool errors.1.2),
      ("overdue_ready", countValue overdueReady),
      ("overdue_rows", .array (overdue.1.1.map JobRow.toValue)),
      ("overdue_rows_truncated", .bool overdue.1.2),
      ("throttled", .bool throttled),
      ("throttled_detail", throttledValue throttled)]
    -- The sum wraps as a release build has it.
    sample := (toF64 ((overdueReady + error) % 2 ^ 64 : Nat)).toRat }

/-- The probes of one count. -/
def countedProbe {ρ : Type} (countPath rowsPath : String) (map : Value → Option ρ)
    (state : Nat → Thresholds → SignalState)
    (payload : Nat → List ρ → Bool → Bool → List (String × Value)) (sampled : Bool) :
    ClientM Observation := do
  let count ← fetchAggregateCount codec texts environment credentials countPath
  let rows ← rowsOf codec environment credentials count rowsPath map
  pure {
    state := state count environment.thresholds
    payload := .object (payload count rows.1.1 rows.1.2 rows.2)
    sample := if sampled then (toF64 count).toRat else none }

/-- `SyslogSignal::probe` (`syslog.rs:82–107`). -/
def syslogProbe : ClientM Observation :=
  countedProbe codec texts environment credentials syslogErrorPath syslogErrorRowsPath
    (syslogRow codec) syslogState
    (fun count rows truncated throttled ↦ [
      ("error_count_1h", countValue count),
      ("error_rows", .array (rows.map SyslogRow.toValue)),
      ("error_rows_truncated", .bool truncated),
      ("throttled", .bool throttled),
      ("throttled_detail", throttledValue throttled)]) true

/-- `OutboundSignal::probe` (`outbound.rs:69–94`). -/
def outboundProbe : ClientM Observation :=
  countedProbe codec texts environment credentials outboundHttpPath outboundFailureRowsPath
    (outboundRow codec) outboundState
    (fun count rows truncated throttled ↦ [
      ("failure_rows", .array (rows.map OutboundRow.toValue)),
      ("failure_rows_truncated", .bool truncated),
      ("outbound_http_4xx_5xx_1h", countValue count),
      ("throttled", .bool throttled),
      ("throttled_detail", throttledValue throttled)]) false

/-- `FlowSignal::probe` (`flow.rs:70–95`). -/
def flowProbe : ClientM Observation :=
  countedProbe codec texts environment credentials flowErrorPath flowErrorRowsPath (flowRow codec)
    flowState
    (fun count rows truncated throttled ↦ [
      ("error_rows", .array (rows.map FlowRow.toValue)),
      ("error_rows_truncated", .bool truncated),
      ("flow_error_1h", countValue count),
      ("throttled", .bool throttled),
      ("throttled_detail", throttledValue throttled)]) false

/-- `EmailSignal::probe` (`email.rs:74–99`). -/
def emailProbe : ClientM Observation :=
  countedProbe codec texts environment credentials emailFailurePath emailFailureRowsPath
    (emailRow codec) emailState
    (fun count rows truncated throttled ↦ [
      ("email_failed_1h", countValue count),
      ("error_rows", .array (rows.map EmailRow.toValue)),
      ("error_rows_truncated", .bool truncated),
      ("throttled", .bool throttled),
      ("throttled_detail", throttledValue throttled)]) false

/-- `fetch_mid_agents` (`mid_ecc.rs:134–143`). -/
def fetchMidAgents : ClientM (Nat × List Value) := do
  let response ← getPath codec environment credentials eccAgentsPath
  ofExcept (readMidAgents codec texts response)

/-- `MidEccSignal::probe` (`mid_ecc.rs:93–131`). -/
def midEccProbe : ClientM Observation := do
  let agents ← attemptResult (fetchMidAgents codec texts environment credentials)
  let ready ← attemptResult
    (fetchAggregateCount codec texts environment credentials eccOutputReadyPath)
  let error ← attemptResult
    (fetchAggregateCount codec texts environment credentials eccErrorPath)
  let (agentsTotal, unhealthyList) ← ofExcept agents
  let eccOutputReady ← ofExcept ready
  let eccError ← ofExcept error
  pure {
    state := midEccState unhealthyList.length eccError eccOutputReady environment.thresholds
    payload := .object [
      ("agents_total", countValue agentsTotal),
      ("agents_unhealthy", countValue unhealthyList.length),
      ("agents_unhealthy_list", .array (unhealthyList.take unhealthyListLimit)),
      ("agents_unhealthy_list_truncated", .bool (unhealthyListLimit < unhealthyList.length)),
      ("ecc_error", countValue eccError),
      ("ecc_output_ready", countValue eccOutputReady)]
    sample := none }

/-- `UpgradeSignal::probe` (`upgrade.rs:87–120`). -/
def upgradeProbe (unixNow : Int) : ClientM Observation := do
  let response ← getPath codec environment credentials upgradeHistoryPath
  let upgrades ← ofExcept (readUpgrades codec response)
  let failed := failedUpgrades unixNow upgrades
  let last := upgrades.head?
  let lastAgeDays := last.bind fun row ↦ ageDays row.upgradeFinished unixNow
  pure {
    state := upgradeState failed environment.thresholds
    payload := .object [
      ("failed_7d", countValue failed),
      ("last_age_days", (lastAgeDays.map intValue).getD .null),
      ("last_finished", optionalText (last.map UpgradeRow.upgradeFinished)),
      ("last_from", optionalText (last.map UpgradeRow.fromVersion)),
      ("last_to", optionalText (last.map UpgradeRow.toVersion)),
      ("upgrades", .array (upgrades.map UpgradeRow.toValue)),
      ("upgrades_truncated", .bool (rowListLimit ≤ upgrades.length))]
    sample := none }

/-- Rows only while the state is degraded (`transaction.rs:100–105`). -/
def slowRowsOf (state : SignalState) : ClientM (List SlowRow × Bool) :=
  if state = .degraded then
    fetchTableRows codec environment credentials transactionSlowRowsPath (slowRow codec)
  else pure ([], false)

/-- `TransactionSignal::probe` (`transaction.rs:84–115`). -/
def transactionProbe : ClientM Observation := do
  let avgMs ← fetchAggregateAvg codec texts environment credentials transactionAvgPath
    transactionAvgField
  let state := transactionState avgMs environment.thresholds
  let slow ← slowRowsOf codec environment credentials state
  pure {
    state
    payload := .object [
      ("slow_rows", .array (slow.1.map SlowRow.toValue)),
      ("slow_rows_truncated", .bool slow.2),
      ("transaction_avg_ms", f64Value avgMs)]
    sample := none }

/-- `UpdateSetsSignal::probe` (`update_sets.rs:76–94`). -/
def updateSetsProbe : ClientM Observation := do
  let (sets, truncated) ← fetchTableRowsRequired codec environment credentials updateSetsPath
    (updateSetRow codec)
  let openSets := sets.filter fun row ↦ updateSetOpen row.state
  pure {
    state := updateSetsState openSets.length environment.thresholds
    payload := .object [
      ("open_count", countValue openSets.length),
      ("open_rows", .array (openSets.map UpdateSetRow.toValue)),
      ("open_rows_truncated", .bool truncated)]
    sample := none }

/-- The observation of a scan (`scan.rs:113–131`). -/
def scanObservation (thresholds : Thresholds) : Option (List FindingRow) → Observation
  | none =>
    { state := .skipped, payload := .object [("skipped", .string "scan_unavailable")],
      sample := none }
  | some findings =>
    let p1Open := (findings.filter fun row ↦ row.priority = "P1").length
    let p2Open := (findings.filter fun row ↦ row.priority ≠ "P1").length
    { state := scanState p1Open thresholds
      payload := .object [
        ("finding_rows", .array (findings.map FindingRow.toValue)),
        ("finding_rows_truncated", .bool (rowListLimit ≤ findings.length)),
        ("p1_open", countValue p1Open),
        ("p2_open", countValue p2Open)]
      sample := none }

/-- `ScanSignal::probe` (`scan.rs:107–132`). -/
def scanProbe : ClientM Observation := do
  let response ← getPath codec environment credentials scanFindingsPath
  let findings ← ofExcept (readFindings codec response)
  pure (scanObservation environment.thresholds findings)

end Probe

end Daku.Signals
