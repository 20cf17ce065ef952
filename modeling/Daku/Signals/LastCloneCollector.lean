import Daku.Signals.Calendar
import Daku.Signals.DriftCollector

/-!
# The last-clone collector

`LastCloneCollector` of `crates/daku-core/src/last_clone.rs:17–394`: the clone source lists the
clones that it completed, and every other Environment gets the newest one that it is the target
of. Ages are computed as in a release build, where overflows wrap.
-/

namespace Daku.Signals

open Daku.Base Daku.Protocol Daku.Http Daku.Collector Daku.Store

/-- `LAST_CLONE_SIGNAL_ID` (`last_clone.rs:17`). -/
def lastCloneSignalId : String := "last_clone"

/-- `CLONE_PAGE_LIMIT` (`last_clone.rs:20`). -/
def clonePageLimit : Nat := 10

/-- `clone_instance_path` (`last_clone.rs:24–28`). -/
def cloneInstancePath : String :=
  "/api/now/table/clone_instance?sysparm_query=state=Completed^ORDERBYDESCcompleted&sysparm_fields=state,completed,target&sysparm_limit=10"

/-- `CloneRow` (`last_clone.rs:30–34`). -/
structure CloneRow where
  target : String
  completed : String
  deriving DecidableEq, Repr

/-- A text field of a row, trimmed, if anything is left of it (`last_clone.rs:52–57`). -/
def cloneField (row : Value) (name : String) : Option String :=
  (((row.get name).bind Value.asStr).map trim).filter (· ≠ "")

/-- A row that has both fields (`last_clone.rs:58–60`). -/
def cloneRow (row : Value) : Option CloneRow := do
  let target ← cloneField row "target"
  let completed ← cloneField row "completed"
  some { target, completed }

/-- The first row of each target that is not seen yet (`last_clone.rs:61–66`). -/
def newestPerTarget : List String → List CloneRow → List CloneRow
  | _, [] => []
  | seen, row :: rows =>
    if toAsciiLowercase row.target ∈ seen then newestPerTarget seen rows
    else row :: newestPerTarget (toAsciiLowercase row.target :: seen) rows

/-- `parse_last_clones` (`last_clone.rs:43–69`). -/
def parseLastClones (codec : Codec) (status : Nat) (body : String) :
    Option (List CloneRow × Nat) :=
  if status ≠ 200 then none
  else do
    let value ← codec.fromStr body
    let rows ← (value.get "result").bind Value.asArray
    some (newestPerTarget [] (rows.filterMap cloneRow), rows.length)

/-- `first_label` (`last_clone.rs:97–99`). -/
def firstLabel (host : String) : String := (splitChar '.' host).headD host

/-- `instance_host` (`last_clone.rs:87–95`). -/
def instanceHost (instanceUrl : String) : String :=
  (splitChar '/' ((splitText "://" instanceUrl).getLastD instanceUrl)).headD ""

/-- `target_matches` (`last_clone.rs:73–85`). -/
def targetMatches (target : String) (environment : EnvironmentConfig) : Bool :=
  let target := trim target
  let host := instanceHost environment.instanceUrl
  target ≠ "" && [host, firstLabel host, environment.id].any fun candidate ↦
    eqIgnoreAsciiCase candidate target || eqIgnoreAsciiCase candidate (firstLabel target)

/-- What a clone target is persisted with (`last_clone.rs:351–368`). -/
def cloneTargetPayload (row : Option CloneRow) (sourceId : String) (truncated : Bool)
    (observedAt : Int) : Value :=
  match row with
  | some row =>
    .object (((ageDays row.completed observedAt).map fun age ↦ ("age_days", intValue age)).toList ++
      [("completed", .string row.completed), ("source_id", .string sourceId)])
  | none =>
    if truncated then
      .object [("completed", .null), ("supported", .bool true),
        ("unknown", .string "older_than_page")]
    else .object [("completed", .null), ("supported", .bool true)]

section Collect

variable (codec : Codec) (texts : Texts) (credentials : CredentialStore)

/-- `persist_clone_source` (`last_clone.rs:326–341`). -/
def persistCloneSource (environmentId : String) (supported : Bool) (observedAt : Int) :
    CollectM Unit :=
  viaStore (persistSignalSnapshot texts.value environmentId lastCloneSignalId observedAt .healthy
    (.object [("role", .string "source"), ("supported", .bool supported)]))

/-- `persist_clone_target` (`last_clone.rs:343–377`). -/
def persistCloneTarget (environmentId : String) (row : Option CloneRow) (sourceId : String)
    (truncated : Bool) (observedAt : Int) : CollectM Unit :=
  viaStore (persistSignalSnapshot texts.value environmentId lastCloneSignalId observedAt .healthy
    (cloneTargetPayload row sourceId truncated observedAt))

/-- `persist_last_clone_unreachable` (`last_clone.rs:381–394`). -/
def persistLastCloneUnreachable (environmentId message : String) (observedAt : Int) :
    CollectM Unit :=
  viaStore (persistSignalDown texts.value environmentId lastCloneSignalId observedAt message)

/-- `persist_signal_skipped` for this Signal. -/
def persistLastCloneSkipped (environmentId : String) (observedAt : Int) (reason : String) :
    CollectM Unit :=
  viaStore (persistSignalSkipped texts.value environmentId lastCloneSignalId observedAt reason)

/-- `skip_targets` (`last_clone.rs:304–324`). -/
def skipTargets (environments : List EnvironmentConfig) (sourceId : Option String)
    (observedAt : Int) (reason : String) : CollectM Unit :=
  forEach (environments.filter fun environment ↦ some environment.id ≠ sourceId) fun environment ↦
    persistLastCloneSkipped texts environment.id observedAt reason

/-- Whether older clones exist that the response does not list (`last_clone.rs:276–280`). -/
def clonesTruncated (response : HttpResponse) (rawRows : Nat) : Bool :=
  clonePageLimit ≤ rawRows || (totalCount response).any (rawRows < ·)

/-- What is persisted after the source's response (`last_clone.rs:260–298`). -/
def persistClones (environments : List EnvironmentConfig) (source : EnvironmentConfig)
    (observedAt : Int) (response : HttpResponse) : CollectM Unit := do
  let parsed := parseLastClones codec response.status response.body
  persistCloneSource texts source.id parsed.isSome observedAt
  match parsed with
  | none =>
    skipTargets texts environments (some source.id) observedAt "clone_source_cannot_list_clones"
  | some (rows, rawRows) =>
    forEach (environments.filter fun environment ↦ environment.id ≠ source.id) fun environment ↦
      persistCloneTarget texts environment.id
        (rows.find? fun row ↦ targetMatches row.target environment) source.id
        (clonesTruncated response rawRows) observedAt

/-- What is persisted if the source does not answer (`last_clone.rs:227–258`). -/
def persistUnanswered (environments : List EnvironmentConfig) (source : EnvironmentConfig)
    (observedAt : Int) (message : String) : CollectM Unit := do
  persistLastCloneUnreachable texts source.id message observedAt
  skipTargets texts environments (some source.id) observedAt "clone_source_unreachable"

/-- `LastCloneCollector::collect` (`last_clone.rs:172–300`). -/
def lastCloneCollect (environments : List EnvironmentConfig) (observedAt : Int) :
    CollectM Unit :=
  match environments.find? EnvironmentConfig.cloneSource with
  | none => skipTargets texts environments none observedAt "no_clone_source"
  | some source => do
    match ← viaStore (Prog.query (recentlyGone codec.fromStr source.id observedAt)) with
    | some reachability => do
      persistLastCloneSkipped texts source.id observedAt reachability.asStr
      skipTargets texts environments (some source.id) observedAt
        ("clone_source_" ++ reachability.asStr)
    | none =>
      match ← caught (viaClient (getPath codec source credentials cloneInstancePath)) with
      | .error message => persistUnanswered texts environments source observedAt message
      | .ok response =>
        if response.status = 200 ∨ response.status = 403 then
          persistClones codec texts environments source observedAt response
        else
          persistUnanswered texts environments source observedAt s!"HTTP {response.status}"

end Collect

end Daku.Signals
