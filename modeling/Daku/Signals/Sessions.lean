import Daku.Signals.Tables

/-!
# Active sessions

The probe of `crates/daku-core/src/sessions.rs:25–160`: users that are logged on, counted on one
page of the Table API.
-/

namespace Daku.Signals

open Daku.Base Daku.Protocol Daku.Http Daku.Collector

/-- `SESSIONS_PAGE_LIMIT` (`sessions.rs:27`). -/
def sessionsPageLimit : Nat := 101

/-- `SESSIONS_DISPLAY_CAP` (`sessions.rs:29`). -/
def sessionsDisplayCap : Nat := 100

/-- `SESSIONS_PATH` (`sessions.rs:34`). -/
def sessionsPath : String :=
  "/api/now/table/v_user_session?sysparm_fields=sys_id,user,sys_created_on&sysparm_query=ORDERBYDESCsys_created_on&sysparm_limit=101"

/-- `SessionRow` (`sessions.rs:43–49`). -/
structure SessionRow where
  sysId : String
  user : String
  userId : String
  sysCreatedOn : String
  deriving DecidableEq, Repr

/-- A session in JSON. -/
def SessionRow.toValue (row : SessionRow) : Value :=
  .object [("sys_created_on", .string row.sysCreatedOn), ("sys_id", .string row.sysId),
    ("user", .string row.user), ("user_id", .string row.userId)]

/-- A text of a reference that is not empty. -/
def referenceText (reference : Value) (key : String) : Option String :=
  ((reference.get key).bind Value.asStr).filter (· ≠ "")

/-- `session_user` (`sessions.rs:53–73`). -/
def sessionUser (codec : Codec) (row : Value) : String :=
  match row.get "user" with
  | some (.string text) => text
  | some (.object fields) =>
    (referenceText (.object fields) "display_value" <|>
      referenceText (.object fields) "value").getD ""
  | _ => rowText codec row "user"

/-- `session_user_id` (`sessions.rs:77–97`). -/
def sessionUserId (row : Value) : String :=
  match row.get "user" with
  | none => ""
  | some user =>
    let linked := ((user.get "link").bind Value.asStr).bind fun link ↦
      ((splitChar '/' link).getLast?).filter (· ≠ "")
    (linked <|> referenceText user "value" <|> user.asStr.filter (· ≠ "")).getD ""

/-- `session_row` (`sessions.rs:99–110`). -/
def sessionRow (codec : Codec) (row : Value) : Option SessionRow :=
  let sysId := rowText codec row "sys_id"
  if sysId = "" then none
  else some {
    sysId
    user := sessionUser codec row
    userId := sessionUserId row
    sysCreatedOn := rowText codec row "sys_created_on" }

/-- What `fetch_session_count` reads out of its response (`sessions.rs:112–132`). -/
def readSessions (codec : Codec) (response : HttpResponse) :
    Except String (Nat × Bool × List SessionRow × Bool) :=
  if response.status ≠ 200 then .error s!"HTTP {response.status}"
  else
    match ((codec.fromStr response.body).bind fun v ↦ v.get "result").bind Value.asArray with
    | none => .error "session list response has no result array"
    | some rows =>
      .ok (min rows.length sessionsDisplayCap, sessionsPageLimit ≤ rows.length,
        takeBounded (rows.filterMap (sessionRow codec)))

/-- `SessionsSignal::probe` (`sessions.rs:140–160`). -/
def sessionsProbe (codec : Codec) (environment : EnvironmentConfig)
    (credentials : CredentialStore) : ClientM Observation := do
  let response ← getPath codec environment credentials sessionsPath
  let (activeSessions, truncated, sessionRows, sessionRowsTruncated) ←
    ofExcept (readSessions codec response)
  pure {
    state := .healthy
    payload := .object [
      ("active_sessions", .number (.posInt activeSessions)),
      ("session_rows", .array (sessionRows.map SessionRow.toValue)),
      ("session_rows_truncated", .bool sessionRowsTruncated),
      ("truncated", .bool truncated)]
    sample := none }

end Daku.Signals
