import Daku.Base.Tokens
import Daku.Desktop.DrillIn

/-!
# The sheet of an Environment

The sheet that edits an Environment, `src/env_sheet.rs:14–62, 195–360, 382–739` and
`src/app.rs:453–592, 674–687`: it shows the published configuration as texts, and saving parses
the texts again. Sheets that add an Environment are left out.
-/

namespace Daku.Desktop

open Daku.Base Daku.Protocol
open Daku.Health (EnvironmentSummary)

/-- `Platform::parse` (`environment.rs:50–57`). -/
def parsePlatform : String → Option Platform
  | "servicenow" => some .servicenow
  | "http" => some .http
  | "github" => some .github
  | _ => none

/-! ## Texts of fields -/

/-- `format_u64_threshold` (`env_sheet.rs:393–399`). -/
def formatU64Threshold (value : Nat) : String := if value = u64Max then "" else toString value

/-- `format_rtt_threshold` (`env_sheet.rs:403–409`). -/
def formatRttThreshold : Option Nat → String
  | none => ""
  | some ms => if ms = u64Max then "off" else toString ms

/-- `parse_rtt_field` (`env_sheet.rs:413–435`). -/
def parseRttField (caption text : String) (default offValue : Option Nat) :
    Except String (Option Nat) :=
  let trimmed := trim text
  if trimmed = "" then .ok default
  else if eqIgnoreAsciiCase trimmed "off" then
    match offValue with
    | some off => .ok (some off)
    | none => .ok none
  else
    match parseU64 trimmed with
    | some ms => .ok (some ms)
    | none => .error s!"{caption} must be a whole number of ms, off, or empty"

/-- `parse_count_field` (`env_sheet.rs:437–456`). -/
def parseCountField (caption text : String) (default : Nat) (offValue : Option Nat) :
    Except String Nat :=
  let trimmed := trim text
  if trimmed = "" then .ok default
  else if eqIgnoreAsciiCase trimmed "off" then
    match offValue with
    | some off => .ok off
    | none => .error s!"{caption} does not accept off"
  else
    match parseU64 trimmed with
    | some count => .ok count
    | none => .error s!"{caption} must be a whole number or empty"

/-- `ThresholdTexts` (`env_sheet.rs:460–478`). -/
structure ThresholdTexts where
  jobsOverdue : String
  jobsError : String
  syslog : String
  outbound : String
  flow : String
  email : String
  upgrade : String
  txn : String
  updates : String
  scan : String
  actions : String
  probeRtt : String
  mid : String
  eccError : String
  eccQueue : String
  drift : String
  rtt : String
  deriving DecidableEq, Repr

/-- `parse_thresholds` (`env_sheet.rs:508–609`). -/
def parseThresholds (texts : ThresholdTexts) : Except String Thresholds := do
  let defaults := Thresholds.default
  let availabilityRttDegradedMs ← parseRttField "RTT ceiling" texts.rtt
    defaults.availabilityRttDegradedMs (some u64Max)
  let transactionAvgDegradedMs ← parseRttField "Transaction average" texts.txn none none
  let httpProbeRttDegradedMs ← parseRttField "Probe RTT ceiling" texts.probeRtt none none
  return {
    jobsOverdueDegradedAt := ← parseCountField "Jobs overdue" texts.jobsOverdue
      defaults.jobsOverdueDegradedAt none
    jobsErrorDegradedAt := ← parseCountField "Jobs errors" texts.jobsError
      defaults.jobsErrorDegradedAt (some u64Max)
    syslogErrorDegradedAt := ← parseCountField "Syslog errors" texts.syslog
      defaults.syslogErrorDegradedAt none
    outboundFailuresDegradedAt := ← parseCountField "Outbound failures" texts.outbound
      defaults.outboundFailuresDegradedAt none
    flowErrorDegradedAt := ← parseCountField "Flow errors" texts.flow
      defaults.flowErrorDegradedAt none
    emailFailureDegradedAt := ← parseCountField "Email failures" texts.email
      defaults.emailFailureDegradedAt (some u64Max)
    upgradeFailedDegradedAt := ← parseCountField "Failed upgrades" texts.upgrade
      defaults.upgradeFailedDegradedAt none
    updateSetsOpenDegradedAt := ← parseCountField "Open update sets" texts.updates
      defaults.updateSetsOpenDegradedAt (some u64Max)
    scanP1DegradedAt := ← parseCountField "Scan P1 findings" texts.scan
      defaults.scanP1DegradedAt none
    actionsFailedDegradedAt := ← parseCountField "Failed Actions runs" texts.actions
      defaults.actionsFailedDegradedAt none
    midUnhealthyDegradedAt := ← parseCountField "Unhealthy MIDs" texts.mid
      defaults.midUnhealthyDegradedAt none
    eccErrorDegradedAt := ← parseCountField "ECC errors" texts.eccError
      defaults.eccErrorDegradedAt none
    eccOutputReadyDegradedAt := ← parseCountField "ECC queue" texts.eccQueue
      defaults.eccOutputReadyDegradedAt none
    driftMismatchesDegradedAt := ← parseCountField "Drift mismatches" texts.drift
      defaults.driftMismatchesDegradedAt none
    availabilityRttDegradedMs
    transactionAvgDegradedMs
    httpProbeRttDegradedMs }

/-- `format_expected_drift_text` (`env_sheet.rs:612–614`). -/
def formatExpectedDriftText (ids : List String) : String := String.intercalate ", " ids

/-- What separates drift ids. -/
def isDriftSep (c : Char) : Bool := c = ',' || c = '\n'

/-- `parse_expected_drift_text` (`env_sheet.rs:618–635`). The ids are sorted, so equal ones are
neighbours. -/
def parseExpectedDriftText (text : String) : Except String (List String) :=
  let ids := tokens isDriftSep text.toList
  match ids.find? fun id ↦ id.toList.any isUnicodeSpace with
  | some id => .error s!"expected drift id must not contain whitespace: {id}"
  | none => .ok (ids.insertionSort (· ≤ ·)).dedup

/-- `credential_blob` (`env_sheet.rs:639–652`). -/
def credentialBlob (toText : Value → String) (authMethod : AuthMethod) (first second : String) :
    Option String :=
  if trim first = "" ∧ trim second = "" then none
  else
    let (keyA, keyB) := match authMethod with
      | .oauthClientCredentials => ("client_id", "client_secret")
      | .basic => ("username", "password")
    some ("\x7b\"" ++ keyA ++ "\":" ++ toText (.string first) ++ ",\"" ++ keyB ++ "\":" ++
      toText (.string second) ++ "\x7d")

/-! ## Sheets -/

/-- A sheet that edits an Environment (`EnvSheet`, `env_sheet.rs:16–62`), with the texts its
fields hold. -/
structure EnvSheet where
  editingId : String
  labelField : String
  urlField : String
  auth : AuthMethod
  platform : Platform
  cloneSource : Bool
  secretA : String
  secretB : String
  thresholds : ThresholdTexts
  expectedDriftField : String
  busy : Bool
  deriving DecidableEq, Repr

/-- `EnvSheet::edit` (`env_sheet.rs:195–319`). `value` is what an input field holds that was opened
with a text. -/
def EnvSheet.edit (value : String → String) (env : EnvironmentConfig) : EnvSheet :=
  let t := env.thresholds
  { editingId := env.id
    labelField := value env.label
    urlField := value env.instanceUrl
    auth := env.authMethod
    platform := env.platform
    cloneSource := env.cloneSource
    secretA := value ""
    secretB := value ""
    thresholds := {
      jobsOverdue := value (formatU64Threshold t.jobsOverdueDegradedAt)
      jobsError := value (formatU64Threshold t.jobsErrorDegradedAt)
      syslog := value (formatU64Threshold t.syslogErrorDegradedAt)
      outbound := value (formatU64Threshold t.outboundFailuresDegradedAt)
      flow := value (formatU64Threshold t.flowErrorDegradedAt)
      email := value (formatU64Threshold t.emailFailureDegradedAt)
      upgrade := value (formatU64Threshold t.upgradeFailedDegradedAt)
      txn := value (formatRttThreshold t.transactionAvgDegradedMs)
      updates := value (formatU64Threshold t.updateSetsOpenDegradedAt)
      scan := value (formatU64Threshold t.scanP1DegradedAt)
      actions := value (formatU64Threshold t.actionsFailedDegradedAt)
      probeRtt := value (formatRttThreshold t.httpProbeRttDegradedMs)
      mid := value (formatU64Threshold t.midUnhealthyDegradedAt)
      eccError := value (formatU64Threshold t.eccErrorDegradedAt)
      eccQueue := value (formatU64Threshold t.eccOutputReadyDegradedAt)
      drift := value (formatU64Threshold t.driftMismatchesDegradedAt)
      rtt := value (formatRttThreshold t.availabilityRttDegradedMs) }
    expectedDriftField := value (formatExpectedDriftText env.expectedDrift)
    busy := false }

/-- A published Environment as a configuration (`app.rs:456–470, 501–512`). -/
def configOf (summary : EnvironmentSummary) : EnvironmentConfig where
  id := summary.id
  label := summary.label
  instanceUrl := summary.instanceUrl
  authMethod := summary.authMethod
  sortOrder := summary.sortOrder
  cloneSource := summary.cloneSource
  platform := (parsePlatform summary.platformId).getD .servicenow
  thresholds := summary.thresholds
  expectedDrift := summary.expectedDrift

/-- `build_config` (`env_sheet.rs:654–691`). -/
def buildConfig (id label instanceUrl : String) (authMethod : AuthMethod) (platform : Platform)
    (cloneSource : Bool) (sortOrder : Int) (existing : Option EnvironmentConfig) :
    EnvironmentConfig where
  id
  label
  instanceUrl
  authMethod
  sortOrder
  cloneSource
  platform
  thresholds := (existing.map EnvironmentConfig.thresholds).getD .default
  expectedDrift := (existing.map EnvironmentConfig.expectedDrift).getD []

/-- `apply_sheet_tuning` (`env_sheet.rs:706–713`). -/
def applySheetTuning (config : EnvironmentConfig) (thresholds : Thresholds)
    (expectedDrift : List String) : EnvironmentConfig :=
  { config with thresholds, expectedDrift }

/-- `validate_fields` (`env_sheet.rs:718–739`). -/
def validateFields (id label instanceUrl : String) (platform : Platform) : Except String Unit :=
  match environmentIdError id with
  | some reason => .error reason
  | none =>
    if trim label = "" then .error "label must not be empty"
    else
      match instanceUrlError instanceUrl with
      | some reason => .error reason
      | none =>
        if platform = .github ∧ splitGithubRepo instanceUrl = none then
          .error s!"environment {id}: github instance_url must look like https://github.com/<owner>/<repo>"
        else .ok ()

/-- The text of a problem, if there is one. -/
def problemOf {α : Type} : Except String α → List String
  | .error error => [error]
  | .ok _ => []

/-- What saving a sheet does (`save_sheet`, `app.rs:674–687`). -/
inductive SaveOutcome where
  /-- An earlier request is under way. -/
  | ignored
  | refused (notice : String)
  /-- `Command::SaveEnvironment` is sent. -/
  | sent (environment : EnvironmentConfig) (credentialJson : Option String)
  deriving DecidableEq, Repr

namespace DashboardState

variable (s : DashboardState)

/-- `open_edit_sheet` (`app.rs:453–474`). -/
def openEditSheet (value : String → String) : Option EnvSheet :=
  s.selected.map fun summary ↦ EnvSheet.edit value (configOf summary)

/-- `read_sheet` (`app.rs:478–525`). -/
def readSheet (toText : Value → String) (sheet : EnvSheet) : EnvironmentConfig × Option String :=
  let existing := s.environments.find? fun env ↦ env.id = sheet.editingId
  let sortOrder := (existing.map EnvironmentSummary.sortOrder).getD 0
  (buildConfig sheet.editingId (trim sheet.labelField) (trim sheet.urlField) sheet.auth
    sheet.platform sheet.cloneSource sortOrder (existing.map configOf),
    credentialBlob toText sheet.auth sheet.secretA sheet.secretB)

/-- `validate_sheet` (`app.rs:537–592`), with the notice of a refusal. -/
def validateSheet (fromStr : FromStr) (toText : Value → String) (sheet : EnvSheet) :
    Except String (EnvironmentConfig × Option String) :=
  let (config, blob) := s.readSheet toText sheet
  let fields := validateFields config.id config.label config.instanceUrl config.platform
  let thresholds := parseThresholds sheet.thresholds
  let expectedDrift := parseExpectedDriftText sheet.expectedDriftField
  let tuned := match thresholds, expectedDrift with
    | .ok thresholds, .ok expectedDrift => applySheetTuning config thresholds expectedDrift
    | _, _ => config
  let credential := (blob.map (validateCredential fromStr tuned.authMethod)).getD (.ok ())
  let problems := problemOf fields ++ problemOf thresholds ++ problemOf expectedDrift ++
    problemOf credential
  if problems = [] then .ok (tuned, blob) else .error (String.intercalate " · " problems)

/-- `save_sheet` (`app.rs:674–687`). -/
def saveSheet (fromStr : FromStr) (toText : Value → String) (sheet : EnvSheet) : SaveOutcome :=
  if sheet.busy then .ignored
  else
    match s.validateSheet fromStr toText sheet with
    | .ok (environment, credentialJson) => .sent environment credentialJson
    | .error notice => .refused notice

end DashboardState

end Daku.Desktop
