import Daku.Base.Text
import Daku.Protocol.Json
import Mathlib.Tactic.Common

/-!
# Environment configuration

Entries of `environments.json` and their checks, from
`crates/daku-protocol/src/environment.rs` and the URL and id rules of
`crates/daku-protocol/src/protocol.rs:226–280`.
-/

namespace Daku.Protocol

open Daku.Base

/-- How an Environment authenticates (`environment.rs:12–15`). -/
inductive AuthMethod where
  | oauthClientCredentials
  | basic
  deriving DecidableEq, Repr

/-- Monitored product family (`environment.rs:21–30`). -/
inductive Platform where
  | servicenow
  | http
  | github
  deriving DecidableEq, Repr

/-- Wire id of a platform (`environment.rs:34–40`). -/
def Platform.id : Platform → String
  | servicenow => "servicenow"
  | http => "http"
  | github => "github"

/-- Default availability ceiling in milliseconds (`environment.rs:106`). -/
def availabilityRttDefaultMs : Nat := 5000

/-- Largest `u64`, the ceiling that never votes. -/
def u64Max : Nat := 18446744073709551615

/-- Degrade thresholds of one Environment (`environment.rs:116–136`). -/
structure Thresholds where
  jobsOverdueDegradedAt : Nat
  jobsErrorDegradedAt : Nat
  syslogErrorDegradedAt : Nat
  outboundFailuresDegradedAt : Nat
  flowErrorDegradedAt : Nat
  emailFailureDegradedAt : Nat
  upgradeFailedDegradedAt : Nat
  transactionAvgDegradedMs : Option Nat
  updateSetsOpenDegradedAt : Nat
  scanP1DegradedAt : Nat
  httpProbeRttDegradedMs : Option Nat
  actionsFailedDegradedAt : Nat
  midUnhealthyDegradedAt : Nat
  eccErrorDegradedAt : Nat
  eccOutputReadyDegradedAt : Nat
  driftMismatchesDegradedAt : Nat
  availabilityRttDegradedMs : Option Nat
  deriving DecidableEq, Repr

/-- `Thresholds::default` (`environment.rs:138–172`). -/
def Thresholds.default : Thresholds where
  jobsOverdueDegradedAt := 1
  jobsErrorDegradedAt := u64Max
  syslogErrorDegradedAt := 1
  outboundFailuresDegradedAt := 1
  flowErrorDegradedAt := 1
  emailFailureDegradedAt := u64Max
  upgradeFailedDegradedAt := 1
  transactionAvgDegradedMs := none
  updateSetsOpenDegradedAt := u64Max
  scanP1DegradedAt := 1
  httpProbeRttDegradedMs := none
  actionsFailedDegradedAt := 1
  midUnhealthyDegradedAt := 1
  eccErrorDegradedAt := 1
  eccOutputReadyDegradedAt := 100
  driftMismatchesDegradedAt := 1
  availabilityRttDegradedMs := some availabilityRttDefaultMs

/-- One entry of `environments.json` (`environment.rs:79–101`). -/
structure EnvironmentConfig where
  id : String
  label : String
  instanceUrl : String
  authMethod : AuthMethod
  sortOrder : Int
  cloneSource : Bool
  platform : Platform
  thresholds : Thresholds
  expectedDrift : List String
  deriving DecidableEq, Repr

/-- Signals that never vote in the roll-up (`environment.rs:177`). -/
def nonVotingSignals : List String := ["last_clone", "sessions", "table_growth"]

/-- `owner/repo` of a GitHub URL (`environment.rs:63–76`). -/
def splitGithubRepo (instanceUrl : String) : Option (String × String) :=
  match stripPrefix "https://" instanceUrl with
  | none => none
  | some rest =>
    match splitChar '/' rest with
    | host :: ownerPart :: repoPart :: _ =>
      if eqIgnoreAsciiCase host "github.com" then
        let owner := trim ownerPart
        let repo := trim (trimEndMatches ".git" (trim repoPart))
        if owner = "" ∨ repo = "" then none else some (owner, repo)
      else none
    | _ => none

/-- Why a URL is unsupported, if it is (`protocol.rs:233–248`). -/
def instanceUrlError (url : String) : Option String :=
  match stripPrefix "https://" url with
  | none => some "instance_url must start with https://"
  | some rest =>
    let host := (splitChar '/' rest).headD ""
    if host = "" then some "instance_url has no host"
    else if containsChar '@' host then some "instance_url must not contain userinfo"
    else if containsChar '?' rest ∨ containsChar '#' rest then
      some "instance_url must not contain a query or fragment"
    else none

/-- Why an Environment id is unsupported, if it is (`protocol.rs:260–275`). The grammar is
ASCII, so byte and character counts only differ on ids the last check refuses. -/
def environmentIdError (id : String) : Option String :=
  if id = "" then some "environment id must not be empty"
  else if 64 < id.utf8ByteSize then some "environment id must be at most 64 characters"
  else if ¬ id.toList.all (fun c ↦ c.isAlphanum || c == '-' || c == '_') then
    some "environment id must use only A-Z, a-z, 0-9, - and _"
  else none

/-- A non-blank text field of a Credential blob (`environment.rs:205–210`). -/
def credentialFieldPresent (value : Value) (key : String) : Bool :=
  match (value.get key).bind Value.asStr with
  | some text => trim text ≠ ""
  | none => false

/-- Shape check of a Credential blob against its auth method (`environment.rs:198–226`); the
error is the reason it displays. -/
def validateCredential (fromStr : FromStr) (authMethod : AuthMethod) (blob : String) :
    Except String Unit :=
  match fromStr blob with
  | none => .error "credential is not valid JSON"
  | some value =>
    match authMethod with
    | .oauthClientCredentials =>
      if credentialFieldPresent value "client_id" && credentialFieldPresent value "client_secret"
      then .ok ()
      else .error "credential does not match its auth method (needs client_id and client_secret)"
    | .basic =>
      if credentialFieldPresent value "username" && credentialFieldPresent value "password"
      then .ok ()
      else .error "credential does not match its auth method (needs username and password)"

end Daku.Protocol
