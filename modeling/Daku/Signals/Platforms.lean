import Daku.Signals.Availability
import Daku.Signals.Calendar

/-!
# Probes of the other Platforms

The HTTP probe (`crates/daku-core/src/http_probe.rs:23–104`) and GitHub Actions
(`github.rs:22–160`). Both read the Credential store themselves and send their request without
the memos and retries of the client.
-/

namespace Daku.Signals

open Daku.Base Daku.Protocol Daku.Http Daku.Collector

/-- `basic_header` (`http_probe.rs:23–34`). -/
def basicHeader (codec : Codec) (blob : String) : Option Header := do
  let value ← codec.fromStr blob
  let username ← (← value.get "username").asStr
  let password ← (← value.get "password").asStr
  if trim username = "" ∨ trim password = "" then none
  else some ("Authorization", basicAuthorization codec username password)

/-- `http_probe_state` (`http_probe.rs:36–47`). -/
def httpProbeState (status rttMs : Nat) (thresholds : Thresholds) : SignalState :=
  if status < 200 ∨ 400 ≤ status then .down
  else
    match thresholds.httpProbeRttDegradedMs with
    | some ceiling => if ceiling ≤ rttMs then .degraded else .healthy
    | none => .healthy

/-- The header of the stored Credential; a store that fails has none (`http_probe.rs:75–80`). -/
def storedBasicHeader (codec : Codec) (environmentId : String) (credentials : CredentialStore) :
    Option Header :=
  match credentials.get environmentId with
  | .ok (some blob) => basicHeader codec blob
  | _ => none

/-- Request of the HTTP probe (`http_probe.rs:74–87`). -/
def httpProbeRequest (environment : EnvironmentConfig) (header : Option Header) : HttpRequest where
  method := "GET"
  url := environment.instanceUrl
  headers := ("User-Agent", "daku") :: header.toList
  body := none

/-- `HttpProbeSignal::probe` (`http_probe.rs:68–103`). -/
def httpProbe (codec : Codec) (environment : EnvironmentConfig) (credentials : CredentialStore)
    (rttMs : Nat) : ClientM Observation := do
  let header := storedBasicHeader codec environment.id credentials
  let response ← execute (httpProbeRequest environment header)
    (header.map fun _ ↦ credentials.origin environment.id)
  let rttMs := min rttMs (2 ^ 32 - 1)
  pure {
    state := httpProbeState response.status rttMs environment.thresholds
    payload := .object [("http_status", .number (.posInt response.status)),
      ("reachability", .string "reachable"), ("rtt_ms", .number (.posInt rttMs)),
      ("url", .string (redactUrl environment.instanceUrl))]
    sample := none }

/-- `ROW_LIST_LIMIT` (`collector.rs:47`). -/
def rowListLimit : Nat := 10

/-- `RunRow` (`github.rs:29–35`). -/
structure RunRow where
  name : String
  conclusion : String
  createdAt : String
  htmlUrl : String
  deriving DecidableEq, Repr

/-- A run in JSON, as `serde` writes it. -/
def RunRow.toValue (row : RunRow) : Value :=
  .object [("conclusion", .string row.conclusion), ("created_at", .string row.createdAt),
    ("html_url", .string row.htmlUrl), ("name", .string row.name)]

/-- `bearer_token` (`github.rs:41–54`). -/
def bearerToken (codec : Codec) (environmentId : String) (credentials : CredentialStore) :
    Except String String :=
  match credentials.get environmentId with
  | .error e => .error e
  | .ok none => .error s!"no credential for environment {environmentId}"
  | .ok (some blob) =>
    match codec.fromStr blob with
    | none => .error "github credential is not valid JSON"
    | some value =>
      match ((value.get "password").bind Value.asStr).filter fun token ↦ trim token ≠ "" with
      | none => .error "github credential needs a token in its password field"
      | some token => .ok token

/-- Request for the runs of a repository (`github.rs:62–75`). -/
def actionsRequest (token owner repo : String) : HttpRequest where
  method := "GET"
  url := "https://api.github.com" ++ replaceFirst "\x7brepo\x7d" repo
    (replaceFirst "\x7bowner\x7d" owner
      "/repos/\x7bowner\x7d/\x7brepo\x7d/actions/runs?per_page=30")
  headers := [("User-Agent", "daku"), ("Accept", "application/vnd.github+json"),
    ("Authorization", "Bearer " ++ token)]
  body := none

/-- A failed run of the last day (`github.rs:97–121`). -/
def failedRun (codec : Codec) (unixNow : Int) (run : Value) : Option RunRow :=
  let conclusion := rowText codec run "conclusion"
  let createdAt := rowText codec run "created_at"
  let htmlUrl := rowText codec run "html_url"
  if conclusion ∉ ["failure", "timed_out"] then none
  else if (ageDays createdAt unixNow).any fun days ↦ 1 < days then none
  else if htmlUrl = "" then none
  else some { name := rowText codec run "name", conclusion, createdAt, htmlUrl }

/-- What `fetch_failed_runs` reads out of its response (`github.rs:76–123`). -/
def readFailedRuns (codec : Codec) (unixNow : Int) (response : HttpResponse) :
    Except String (List RunRow) :=
  if response.status = 401 ∨ response.status = 403 then
    .error s!"GitHub API returned HTTP {response.status} (check the token)"
  else if response.status ≠ 200 then .error s!"HTTP {response.status}"
  else
    match ((codec.fromStr response.body).bind fun v ↦ v.get "workflow_runs").bind
      Value.asArray with
    | none => .error "actions response has no workflow_runs array"
    | some runs => .ok ((runs.filterMap (failedRun codec unixNow)).take rowListLimit)

/-- `ActionsSignal::probe` (`github.rs:140–160`). -/
def actionsProbe (codec : Codec) (environment : EnvironmentConfig) (credentials : CredentialStore)
    (unixNow : Int) : ClientM Observation :=
  match splitGithubRepo environment.instanceUrl with
  | none => throw "github instance_url must look like https://github.com/<owner>/<repo>"
  | some (owner, repo) => do
    let token ← ofExcept (bearerToken codec environment.id credentials)
    let response ← execute (actionsRequest token owner repo)
      (some (credentials.origin environment.id))
    let runs ← ofExcept (readFailedRuns codec unixNow response)
    pure {
      state := evaluateGe runs.length environment.thresholds.actionsFailedDegradedAt
      payload := .object [("failed_24h", .number (.posInt runs.length)),
        ("reachability", .string "reachable"), ("run_rows", .array (runs.map RunRow.toValue)),
        ("run_rows_truncated", .bool (rowListLimit ≤ runs.length))]
      sample := none }

end Daku.Signals
