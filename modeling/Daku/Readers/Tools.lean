import Daku.Environments.File
import Daku.Readers.Digest

/-!
# The MCP tools

`call_tool` and `redacted_rows` of `crates/daku-core/src/mcp.rs:143–369`. Each call reads the
Environments file and the store anew.
-/

namespace Daku.Readers

open Daku.Base Daku.Protocol Daku.Store Daku.Health Daku.Environments

/-- `serde_json::to_string_pretty` of a document; a `Value` always has a text. -/
abbrev ToPretty := Value → String

/-- A list of a payload and its display field, if one is named (`mcp.rs:304`). -/
structure RedactedList where
  signalId : String
  listKey : String
  nameKey : Option String
  deriving DecidableEq, Repr

/-- `ROW_NAMES_CAP` (`mcp.rs:302`). -/
def rowNamesCap : Nat := 10

/-- `REDACTED_ROW_TABLE` (`mcp.rs:305–320`). -/
def redactedRowTable : List RedactedList := [
  ⟨"jobs", "overdue_rows", some "name"⟩,
  ⟨"jobs", "error_rows", some "name"⟩,
  ⟨"syslog", "error_rows", some "source"⟩,
  ⟨"mid_ecc", "agents_unhealthy_list", some "host_name"⟩,
  ⟨"outbound", "failure_rows", none⟩,
  ⟨"flow", "error_rows", some "name"⟩,
  ⟨"email", "error_rows", none⟩,
  ⟨"upgrade", "upgrades", some "from_version"⟩,
  ⟨"sessions", "session_rows", some "user"⟩,
  ⟨"update_sets", "open_rows", some "name"⟩,
  ⟨"scan", "finding_rows", some "priority"⟩,
  ⟨"drift", "mismatch_list", some "id"⟩,
  ⟨"github", "run_rows", some "name"⟩,
  ⟨"transaction", "slow_rows", none⟩]

/-- The display names of a list (`mcp.rs:340–351`). -/
def rowNames (nameKey : Option String) (list : List Value) : List String :=
  match nameKey with
  | some key =>
    (list.filterMap fun row ↦ ((row.get key).bind Value.asStr).filter (· ≠ "")).take rowNamesCap
  | none => []

/-- One list of a payload, redacted; an absent or empty one is left out (`mcp.rs:329–366`). -/
def redactedList (payload : Value) (entry : RedactedList) : Option Value :=
  match (payload.get entry.listKey).bind Value.asArray with
  | none => none
  | some [] => none
  | some (row :: rows) =>
    let names := rowNames entry.nameKey (row :: rows)
    let truncated :=
      ((payload.get s!"{entry.listKey}_truncated").bind Value.asBool).getD false ||
        (entry.nameKey.isSome && names.length < (row :: rows).length)
    some <| .object [
      ("count", .number (.posInt (row :: rows).length)),
      ("list", .string entry.listKey),
      ("names", .array (names.map .string)),
      ("truncated", .bool truncated)]

/-- `redacted_rows` (`mcp.rs:322–369`). -/
def redactedRows (fromStr : FromStr) (signalId payloadJson : String) : List Value :=
  match fromStr payloadJson with
  | none => []
  | some payload =>
    (redactedRowTable.filter fun entry ↦ entry.signalId = signalId).filterMap
      (redactedList payload)

/-- The payload of a Signal; the map keeps the last one of an id (`mcp.rs:203–207`). -/
def payloadOf (payloads : List (String × String)) (signalId : String) : Option String :=
  payloads.reverse.lookup signalId

/-- The answer of `signals_get` (`mcp.rs:200–226`). -/
def signalsGet (fromStr : FromStr) (db : Db) (environments : List EnvironmentConfig)
    (envId : String) : Except String Value := do
  let _ ← findEnvironment environments envId
  let computed := votesOf fromStr db envId
  return .array (computed.votes.map fun vote ↦ .object [
    ("rows", .array (((payloadOf computed.payloads vote.1).map
      (redactedRows fromStr vote.1)).getD [])),
    ("signal_id", .string vote.1),
    ("state", .string vote.2.asStr)])

/-- A health event among the recent events (`mcp.rs:240–249`). -/
def healthEventRow (event : HealthEvent) : Int × List (String × Value) :=
  (event.observedAt, [("build", optionalText event.build), ("from", optionalText event.fromHealth),
    ("kind", .string event.kind), ("note", optionalText event.note),
    ("observed_at", intValue event.observedAt), ("to", .string event.toHealth)])

/-- A Signal event among the recent events (`mcp.rs:254–262`). -/
def signalEventRow (event : SignalEvent) : Int × List (String × Value) :=
  (event.observedAt, [("from", optionalText event.fromState), ("kind", .string "signal"),
    ("observed_at", intValue event.observedAt), ("signal_id", .string event.signalId),
    ("to", .string event.toState)])

/-- `i64::clamp`. -/
def clamp (low high n : Int) : Int := max low (min n high)

/-- An integer argument within its bounds (`mcp.rs:229–233, 280–284`). -/
def intArgument (args : Value) (key : String) (default high : Int) : Int :=
  clamp 1 high (((args.get key).bind Value.asI64).getD default)

/-- `load_signal_events` (`persistence.rs:721–753`). -/
def loadSignalEvents (environmentId : String) (limit : Nat) (db : Db) : List SignalEvent :=
  oldestFirst SignalEvent.observedAt <|
    newest SignalEvent.observedAt limit <|
      db.signalEvents.filter fun e ↦ e.environmentId = environmentId

/-- The answer of `events_recent` (`mcp.rs:227–276`). -/
def eventsRecent (openDb : Except String Db) (environments : List EnvironmentConfig)
    (envId : String) (limit : Int) : Except String Value := do
  let _ ← findEnvironment environments envId
  let db ← openDb
  let rows := (loadHealthEvents envId 500 db).map healthEventRow ++
    (loadSignalEvents envId 500 db).map signalEventRow
  return .array (((rows.insertionSort fun a b ↦ -a.1 ≤ -b.1).take limit.toNat).map fun row ↦
    .object row.2)

/-- What a call finds: the Environments file, the store, which may not open, and the time. -/
structure World where
  environmentsFile : EnvironmentsFile
  openDb : Except String Db
  now : Int

/-- `call_tool` (`mcp.rs:143–293`). -/
def callTool (fromStr : FromStr) (toPretty : ToPretty) (environmentsPath : String) (world : World)
    (name : String) (args : Value) : Except String String := do
  let environments ← loadEnvironments environmentsPath world.environmentsFile
  let envId := ((args.get "environment_id").bind Value.asStr).getD ""
  match name with
  | "environments_list" =>
    -- With no Environment the store is never opened.
    if environments = [] then return toPretty (.array [])
    let db ← world.openDb
    return toPretty (environmentsList fromStr db environments)
  | "health_get" =>
    let _ ← findEnvironment environments envId
    let db ← world.openDb
    return toPretty (← healthGet fromStr db environments envId)
  | "signals_get" =>
    let _ ← findEnvironment environments envId
    let db ← world.openDb
    return toPretty (← signalsGet fromStr db environments envId)
  | "events_recent" =>
    let limit := intArgument args "limit" 20 100
    return toPretty (← eventsRecent world.openDb environments envId limit)
  | "digest_week" =>
    let environment ← findEnvironment environments envId
    let days := intArgument args "days" 7 90
    let db ← world.openDb
    return weeklyDigest fromStr db environment world.now days
  | _ => throw s!"unknown tool {name}"

end Daku.Readers
