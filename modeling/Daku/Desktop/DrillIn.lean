import Daku.Desktop.DashboardState
import Daku.Desktop.Summaries

/-!
# Deep links and drill-in rows

What a window links to and the rows of its drill-ins, `src/dashboard_state.rs:125–135, 376–383,
656–661, 907–1110, 1152–1533, 2222–2246`. A drill-in without rows shows a text or a trend, which
have no links.
-/

namespace Daku.Desktop

open Daku.Base Daku.Protocol
open Daku.Health (EnvironmentSummary)

/-- `is_supported_instance_url` (`protocol.rs:251–253`). -/
def isSupportedInstanceUrl (url : String) : Bool := (instanceUrlError url).isNone

/-- `encode_query` (`dashboard_state.rs:125–135`). -/
def encodeQuery (path : String) : String :=
  String.ofList (path.toList.flatMap fun c ↦
    if c = '^' then "%5E".toList
    else if c = '<' then "%3C".toList
    else if c = '>' then "%3E".toList
    else if c = ' ' then "%20".toList
    else [c])

/-- The list a Signal is measured from (`dashboard_state.rs:910–955`). -/
def listPath : String → Option String
  | "availability" => some "/sys_properties_list.do?sysparm_query=name=glide.war"
  | "jobs" =>
    some "/sys_trigger_list.do?sysparm_query=state=0^next_action<javascript:gs.minutesAgoStart(15)"
  | "syslog" =>
    some "/syslog_list.do?sysparm_query=level=2^sys_created_on>javascript:gs.hoursAgoStart(1)"
  | "mid_ecc" => some "/ecc_agent_list.do"
  | "outbound" =>
    some "/sys_outbound_http_log_list.do?sysparm_query=http_status>=400^sys_created_on>javascript:gs.hoursAgoStart(1)"
  | "flow" =>
    some "/sys_flow_context_list.do?sysparm_query=state=ERROR^sys_updated_on>javascript:gs.hoursAgoStart(1)"
  | "email" =>
    some "/sys_email_list.do?sysparm_query=type=send-failed^sys_created_on>javascript:gs.hoursAgoStart(1)"
  | "upgrade" => some "/sys_upgrade_history_list.do"
  | "sessions" => some "/v_user_session_list.do"
  | "table_growth" => some "/sys_db_object_list.do"
  | "slow_txn" =>
    some "/syslog_transaction_list.do?sysparm_query=sys_created_on>javascript:gs.hoursAgoStart(1)"
  | "update_sets" => some "/sys_update_set_list.do"
  | "scan" => some "/scan_finding_list.do"
  | "drift" => some "/v_plugin_list.do"
  | "last_clone" => some "/clone_instance_list.do"
  | _ => none

/-- One row of a drill-in (`dashboard_state.rs:376–382`). -/
structure DrillInRow where
  cells : List String
  link : Option String
  deriving DecidableEq, Repr

/-- A drill-in with rows (`DrillIn::Rows`, `dashboard_state.rs:384–393`). -/
structure DrillInRows where
  headers : List String
  rows : List DrillInRow
  truncated : Bool
  deriving DecidableEq, Repr

/-- `DRILL_IN_ROW_LIMIT` (`dashboard_state.rs:121`). -/
def drillInRowLimit : Nat := 50

/-- `cell` (`dashboard_state.rs:2222–2229`). -/
def cell (entry : Value) (key : String) : String :=
  ((textOf entry key).filter fun text ↦ text ≠ "").getD "—"

/-- A text field as it is, also when it is empty (`dashboard_state.rs:977–983`). -/
def plainCell (entry : Value) (key : String) : String := (textOf entry key).getD "—"

/-- `url_host` (`dashboard_state.rs:2234–2246`). -/
def urlHost (url : String) : String :=
  if url = "—" then url
  else
    let host := (splitChar '/' (((splitText "://" url)[1]?).getD url)).headD ""
    if host = "" then "—" else host

/-- The flag of a list. -/
def listTruncated (value : Value) (listKey : String) : Bool :=
  (value.get (listKey ++ "_truncated")).bind Value.asBool = some true

/-- The rows of a list of a payload, if it has one (`dashboard_state.rs:1190–1215` and alike). -/
def listRows (headers : List String) (listKey : String) (row : Value → DrillInRow)
    (value : Value) : Option DrillInRows :=
  (((value.get listKey).bind Value.asArray).filter fun list ↦ !list.isEmpty).map fun list ↦
    { headers
      rows := (list.take drillInRowLimit).map row
      truncated := listTruncated value listKey || drillInRowLimit < list.length }

/-- `syslog_rows` (`dashboard_state.rs:1190–1215`). -/
def syslogRows : Value → Option DrillInRows :=
  listRows ["Time", "Source", "Message"] "error_rows" fun entry ↦
    ⟨[cell entry "sys_created_on", cell entry "source", cell entry "message"], none⟩

/-- `outbound_rows` (`dashboard_state.rs:1217–1239`). -/
def outboundRows : Value → Option DrillInRows :=
  listRows ["Time", "URL", "Status"] "failure_rows" fun entry ↦
    ⟨[cell entry "sys_created_on", urlHost (cell entry "url"), cell entry "http_status"], none⟩

/-- `slow_txn_rows` (`dashboard_state.rs:1376–1399`). -/
def slowTxnRows : Value → Option DrillInRows :=
  listRows ["Time", "URL", "Ms"] "slow_rows" fun entry ↦
    ⟨[cell entry "sys_created_on", urlHost (cell entry "url"), cell entry "response_time"], none⟩

/-- The unhealthy MID servers (`dashboard_state.rs:1010–1039`). -/
def midEccRows : Value → Option DrillInRows :=
  listRows ["MID", "Status", "Version"] "agents_unhealthy_list" fun entry ↦
    ⟨[plainCell entry "host_name", plainCell entry "status", plainCell entry "version"], none⟩

/-- The plugins that differ; the list may be empty (`dashboard_state.rs:985–1009`). -/
def driftRows (value : Value) : Option DrillInRows :=
  ((value.get "mismatch_list").bind Value.asArray).map fun list ↦
    { headers := ["Plugin", "Source", "Here"]
      rows := (list.take drillInRowLimit).map fun entry ↦
        ⟨[plainCell entry "id", plainCell entry "source_version",
          plainCell entry "other_version"], none⟩
      truncated := listTruncated value "mismatch_list" || drillInRowLimit < list.length }

/-- The last clone (`dashboard_state.rs:1040–1060`). -/
def lastCloneRows (value : Value) : Option DrillInRows :=
  (textOf value "completed").map fun _ ↦
    { headers := ["Completed", "Age", "Source"]
      rows := [⟨[plainCell value "completed", summarizeValue "last_clone" value,
        plainCell value "source_id"], none⟩]
      truncated := false }

/-- `actions_rows` (`dashboard_state.rs:1489–1519`). -/
def actionsRows : Value → Option DrillInRows :=
  listRows ["Run", "Result", "Time"] "run_rows" fun entry ↦
    ⟨[cell entry "name", cell entry "conclusion", cell entry "created_at"],
      (textOf entry "html_url").filter isSupportedInstanceUrl⟩

namespace DashboardState

variable (s : DashboardState)

/-- `selected` (`dashboard_state.rs:656–661`). -/
def selected : Option EnvironmentSummary :=
  s.selectedId.bind fun id ↦ s.environments.find? fun e ↦ e.id = id

/-- `signal_url` (`dashboard_state.rs:907–967`). -/
def signalUrl (signalId : String) : Option String :=
  if signalId = "http_probe" then
    (s.selected.map EnvironmentSummary.instanceUrl).filter isSupportedInstanceUrl
  else if signalId = "actions" then do
    let base := trimEndChar '/' (← s.selected).instanceUrl
    if isSupportedInstanceUrl base then some (base ++ "/actions") else none
  else do
    let path ← listPath signalId
    let instanceUrl := (← s.selected).instanceUrl
    if isSupportedInstanceUrl instanceUrl then
      some (trimEndChar '/' instanceUrl ++ encodeQuery path)
    else none

/-- `record_url` (`dashboard_state.rs:1521–1533`). -/
def recordUrl (table sysId : String) : Option String :=
  if sysId = "" then none
  else do
    let instanceUrl := (← s.selected).instanceUrl
    let base := trimEndChar '/' instanceUrl
    if isSupportedInstanceUrl instanceUrl then some s!"{base}/{table}.do?sys_id={sysId}"
    else none

/-- A row that links a record by an id of its entry. -/
def recordRow (cells : List String) (table idKey : String) (entry : Value) : DrillInRow :=
  ⟨cells.map (cell entry), s.recordUrl table ((textOf entry idKey).getD "")⟩

/-- `job_rows`: overdue jobs and then jobs in error (`dashboard_state.rs:1149–1188`). -/
def jobRows (value : Value) : Option DrillInRows :=
  let rowsOf (listKey : String) :=
    ((((value.get listKey).bind Value.asArray).getD []).take drillInRowLimit).map
      (s.recordRow ["name", "detail"] "sys_trigger" "sys_id")
  let rows := rowsOf "overdue_rows" ++ rowsOf "error_rows"
  if rows = [] then none
  else some {
    headers := ["Job", "Detail"]
    rows := rows.take drillInRowLimit
    truncated := listTruncated value "overdue_rows" || listTruncated value "error_rows" ||
      drillInRowLimit ≤ (rows.take drillInRowLimit).length }

/-- `flow_rows` (`dashboard_state.rs:1241–1267`). -/
def flowRows : Value → Option DrillInRows :=
  listRows ["Flow", "Updated"] "error_rows"
    (s.recordRow ["name", "sys_updated_on"] "sys_flow_context" "sys_id")

/-- `email_rows` (`dashboard_state.rs:1269–1299`). -/
def emailRows : Value → Option DrillInRows :=
  listRows ["Subject", "To", "Time"] "error_rows"
    (s.recordRow ["subject", "recipients", "sys_created_on"] "sys_email" "sys_id")

/-- `upgrade_rows` (`dashboard_state.rs:1301–1330`). -/
def upgradeRows : Value → Option DrillInRows :=
  listRows ["From", "To", "Finished"] "upgrades"
    (s.recordRow ["from_version", "to_version", "upgrade_finished"] "sys_upgrade_history" "sys_id")

/-- `update_sets_rows` (`dashboard_state.rs:1401–1427`). -/
def updateSetsRows : Value → Option DrillInRows :=
  listRows ["Update set", "Updated"] "open_rows"
    (s.recordRow ["name", "sys_updated_on"] "sys_update_set" "sys_id")

/-- `scan_rows` (`dashboard_state.rs:1429–1458`). -/
def scanRows : Value → Option DrillInRows :=
  listRows ["Priority", "State", "Updated"] "finding_rows"
    (s.recordRow ["priority", "state", "sys_updated_on"] "scan_finding" "sys_id")

/-- `session_rows` (`dashboard_state.rs:1460–1487`). -/
def sessionRows : Value → Option DrillInRows :=
  listRows ["User", "Since"] "session_rows"
    (s.recordRow ["user", "sys_created_on"] "sys_user" "user_id")

/-- The list view of a table (`dashboard_state.rs:1341–1347`). -/
def listUrl (table : String) : Option String := do
  let base := trimEndChar '/' (← s.selected).instanceUrl
  if table = "" ∨ ¬ isSupportedInstanceUrl base then none
  else some s!"{base}/{table}_list.do"

/-- `table_rows` (`dashboard_state.rs:1335–1374`). -/
def tableRows (value : Value) : Option DrillInRows :=
  (((value.get "tables").bind Value.asArray).filter fun list ↦ !list.isEmpty).map fun list ↦
    { headers := ["Table", "Rows"]
      rows := (list.take drillInRowLimit).map fun entry ↦
        let table := (textOf entry "table").getD ""
        let count := (entry.get "count").bind Value.asU64
        ⟨[table, (count.map toString).getD "—"], count.bind fun _ ↦ s.listUrl table⟩
      truncated := false }

/-- The payload of a Signal of the selected Environment (`dashboard_state.rs:970–976`). -/
def payload (signalId : String) : Value :=
  (((s.selectedId.bind s.snapshots).bind fun table ↦ table signalId).map
    Snapshot.payload).getD .null

/-- The rows of `drill_in`, or none where it shows a text or a trend
(`dashboard_state.rs:969–1105`). -/
def drillInRows (signalId : String) : Option DrillInRows :=
  let value := s.payload signalId
  match signalId with
  | "drift" => driftRows value
  | "mid_ecc" => midEccRows value
  | "last_clone" => lastCloneRows value
  | "jobs" => s.jobRows value
  | "syslog" => syslogRows value
  | "outbound" => outboundRows value
  | "flow" => s.flowRows value
  | "email" => s.emailRows value
  | "upgrade" => s.upgradeRows value
  | "table_growth" => s.tableRows value
  | "slow_txn" => slowTxnRows value
  | "update_sets" => s.updateSetsRows value
  | "scan" => s.scanRows value
  | "sessions" => s.sessionRows value
  | "actions" => actionsRows value
  | _ => none

end DashboardState

end Daku.Desktop
