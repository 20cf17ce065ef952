import Daku.Environments.Registry
import Daku.Http.Retries
import Daku.Signals.Drift
import Daku.Signals.Tables

/-!
# The drift collector

`DriftCollector` of `crates/daku-core/src/drift.rs:24–500`: the plugins of the clone source are
compared with those of every other Environment. A collect uses the client, the database and the
inventories that earlier ones fetched; writes of the database succeed.
-/

namespace Daku.Signals

open Daku.Base Daku.Protocol Daku.Http Daku.Collector Daku.Store Daku.Health

/-- `CachedInventory` (`drift.rs:72–77`). -/
structure CachedInventory where
  fetchedAt : Int
  plugins : List PluginRecord
  truncated : Bool
  deriving DecidableEq, Repr

/-- `EnvInventory` (`drift.rs:66–70`). -/
structure EnvInventory where
  build : Option String
  plugins : List PluginRecord
  truncated : Bool
  deriving DecidableEq, Repr

/-- What a collector works on. -/
structure Daemon where
  session : Session
  db : Db
  /-- The last inventory that was fetched of an Environment, by its id. -/
  inventories : String → Option CachedInventory

/-- Programs of a collector; errors are their outermost message. -/
abbrev CollectM (α : Type) : Type := EStateM String Daemon α

section Lifts

variable {α : Type}

/-- A program of the client. -/
def viaClient (x : ClientM α) : CollectM α := fun d ↦
  match x d.session with
  | .ok a s => .ok a { d with session := s }
  | .error e s => .error e { d with session := s }

/-- A program of the database. -/
def viaStore (p : DbProg α) : CollectM α := fun d ↦
  .ok (p.result d.db) { d with db := p.run d.db }

/-- A program whose error is a value. -/
def caught (x : CollectM α) : CollectM (Except String α) := fun d ↦
  match x d with
  | .ok a t => .ok (.ok a) t
  | .error e t => .ok (.error e) t

/-- The same program for every element in turn: a `for` loop. -/
def forEach : List α → (α → CollectM Unit) → CollectM Unit
  | [], _ => pure ()
  | a :: as, f => do
    f a
    forEach as f

end Lifts

/-- `DRIFT_SIGNAL_ID` (`drift.rs:21`). -/
def driftSignalId : String := "drift"

/-- `PLUGIN_PAGE_LIMIT` (`drift.rs:22`). -/
def pluginPageLimit : Nat := 1000

/-- `SYS_PLUGINS_PATH` (`drift.rs:29`). -/
def sysPluginsPath : String :=
  "/api/now/table/sys_plugins?sysparm_fields=id,version,active&sysparm_query=ORDERBYid&sysparm_limit=1000"

/-- `SYS_STORE_APP_PATH` (`drift.rs:30`). -/
def sysStoreAppPath : String :=
  "/api/now/table/sys_store_app?sysparm_fields=scope,id,version,latest_version,active&sysparm_query=ORDERBYsys_id&sysparm_limit=1000"

/-- `INVENTORY_REFRESH_SECS` (`drift.rs:34`). -/
def inventoryRefreshSecs : Int := 30 * 60

/-- `MISMATCH_LIST_LIMIT` (`drift.rs:521`). -/
def mismatchListLimit : Nat := 50

/-- `drift_state` (`drift.rs:40–50`). -/
def driftState (buildMatches : Option Bool) (mismatches : Nat) (thresholds : Thresholds) :
    SignalState :=
  if buildMatches ≠ some false ∧ mismatches < thresholds.driftMismatchesDegradedAt then .healthy
  else .degraded

/-- `unexpected_mismatches` (`drift.rs:55–64`). -/
def unexpectedMismatches (mismatches : List PluginMismatch) (expectedDrift : List String) :
    List PluginMismatch :=
  mismatches.filter fun mismatch ↦ mismatch.id ∉ expectedDrift

/-- `is_active` (`drift.rs:397–403`). -/
def isActive : Option Value → Bool
  | some (.bool true) => true
  | some (.string text) => eqIgnoreAsciiCase text "true"
  | _ => false

/-- `plugin_record` (`drift.rs:379–395`). -/
def pluginRecord (row : Value) : Option PluginRecord :=
  let text (key : String) := (row.get key).bind Value.asStr
  ((text "id" <|> text "scope").filter (· ≠ "")).map fun id ↦
    { id, version := (text "version").getD "", active := isActive (row.get "active") }

/-- `parse_plugin_records` (`drift.rs:370–377`). -/
def parsePluginRecords (codec : Codec) (texts : Texts) (body : String) :
    Except String (List PluginRecord × Nat) :=
  match codec.fromStr body with
  | none => .error (texts.jsonError body)
  | some value =>
    match (value.get "result").bind Value.asArray with
    | none => .error "plugin response missing result array"
    | some rows => .ok (rows.filterMap pluginRecord, rows.length)

/-- The total that a response claims. -/
def totalCount (response : HttpResponse) : Option Nat :=
  (response.header "X-Total-Count").bind parseU64

/-- What `fetch_plugin_page` reads out of its response (`drift.rs:317–329`). -/
def readPluginPage (codec : Codec) (texts : Texts) (response : HttpResponse) :
    Except String (List PluginRecord × Bool) :=
  if response.status ≠ 200 then .error s!"HTTP {response.status}"
  else do
    let (records, rawRows) ← parsePluginRecords codec texts response.body
    return (records, pluginPageLimit ≤ rawRows || (totalCount response).any (rawRows < ·))

/-- `reuse_availability_build` (`drift.rs:351–367`). -/
def reuseAvailabilityBuild (fromStr : FromStr) (environmentId : String)
    (observedAt maxAgeSecs : Int) (db : Db) : Option String := do
  let snapshot ← loadSignalSnapshot environmentId availabilitySignalId db
  if maxAgeSecs < satSub observedAt snapshot.observedAt then none
  else
    let payload ← fromStr snapshot.payloadJson
    ((payload.get "build").bind Value.asStr).filter (· ≠ "")

/-- An Environment that is not probed: availability lately found it asleep or unreachable
(`drift.rs:176–182, 246–252`, `last_clone.rs:195–201`). -/
def recentlyGone (fromStr : FromStr) (environmentId : String) (observedAt : Int) (db : Db) :
    Option Reachability :=
  (recentReachability fromStr environmentId observedAt reachabilityReuseSecs db).filter
    fun r ↦ r = .asleep ∨ r = .unreachable

/-- A mismatch in JSON (`drift.rs:511–516`). -/
def PluginMismatch.toValue (m : PluginMismatch) : Value :=
  .object [("id", .string m.id), ("other_version", optionalText m.otherVersion),
    ("source_version", optionalText m.sourceVersion)]

/-- The orders in which the map of an inventory is walked. -/
abbrev Walks : Type := ∀ records : List PluginRecord, Walk (byId records)

/-- Whether two builds are known to be the same (`drift.rs:431–434`). -/
def buildMatches : Option String → Option String → Option Bool
  | some sourceBuild, some otherBuild => some (sourceBuild = otherBuild)
  | _, _ => none

/-- What a comparison is persisted as (`drift.rs:427–450`). -/
def driftCompare (walks : Walks) (environment : EnvironmentConfig) (source other : EnvInventory) :
    SignalState × Value :=
  let fullList := diffPluginInventory (walks source.plugins) (walks other.plugins)
  let mismatches := (unexpectedMismatches fullList environment.expectedDrift).length
  let matches? := buildMatches source.build other.build
  (driftState matches? mismatches environment.thresholds,
    .object [
      ("build_matches", (matches?.map Value.bool).getD .null),
      ("expected_mismatches", .number (.posInt (fullList.length - mismatches))),
      ("mismatch_list", .array ((fullList.take mismatchListLimit).map PluginMismatch.toValue)),
      ("mismatch_list_truncated", .bool (mismatchListLimit < fullList.length)),
      ("mismatches", .number (.posInt mismatches)),
      ("truncated", .bool (source.truncated || other.truncated))])

section Collect

variable (codec : Codec) (texts : Texts) (credentials : CredentialStore) (walks : Walks)

/-- `fetch_plugin_page` (`drift.rs:311–329`). -/
def fetchPluginPage (environment : EnvironmentConfig) (path : String) :
    ClientM (List PluginRecord × Bool) := do
  let response ← getPath codec environment credentials path
  ofExcept (readPluginPage codec texts response)

/-- `fetch_build` (`drift.rs:331–349`). -/
def fetchBuild (environment : EnvironmentConfig) (observedAt maxAgeSecs : Int) :
    CollectM (Option String) := do
  let reused ← viaStore
    (Prog.query (reuseAvailabilityBuild codec.fromStr environment.id observedAt maxAgeSecs))
  match reused with
  | some build => pure (some build)
  | none => do
    let response ← viaClient (getPath codec environment credentials glideWarPath)
    pure (classifyAvailabilityResponse codec response.status
      ((response.header "content-type").getD "") response.body 0).build

/-- Both pages of an inventory, and the memo of them (`drift.rs:124–150`). -/
def fetchInventory (environment : EnvironmentConfig) (observedAt : Int) :
    CollectM (List PluginRecord × Bool) := do
  let (plugins, pluginsTruncated) ←
    viaClient (fetchPluginPage codec texts credentials environment sysPluginsPath)
  let (storeApps, storeTruncated) ←
    viaClient (fetchPluginPage codec texts credentials environment sysStoreAppPath)
  let combined := plugins ++ storeApps
  let truncated := pluginsTruncated || storeTruncated
  modify fun d ↦ { d with
    inventories := Function.update d.inventories environment.id
      (some ⟨observedAt, combined, truncated⟩) }
  pure (combined, truncated)

/-- The memo of an inventory while it is fresh (`drift.rs:118–121`). -/
def freshInventory (environmentId : String) (observedAt : Int) (d : Daemon) :
    Option CachedInventory :=
  (d.inventories environmentId).filter fun entry ↦
    satSub observedAt entry.fetchedAt ≤ inventoryRefreshSecs

/-- `env_inventory` (`drift.rs:111–163`). -/
def envInventory (environment : EnvironmentConfig) (observedAt maxAgeSecs : Int) :
    CollectM EnvInventory := do
  let d ← get
  let (plugins, truncated) ← match freshInventory environment.id observedAt d with
    | some entry => pure (entry.plugins, entry.truncated)
    | none => fetchInventory codec texts credentials environment observedAt
  let build ← fetchBuild codec credentials environment observedAt maxAgeSecs
  pure { build, plugins, truncated }

/-- `persist_drift_skipped` (`drift.rs:472–485`). -/
def persistDriftSkipped (environmentId : String) (observedAt : Int) (reason : String) :
    CollectM Unit :=
  viaStore (persistSignalSkipped texts.value environmentId driftSignalId observedAt reason)

/-- `persist_drift_down` (`drift.rs:487–500`). -/
def persistDriftDown (environmentId : String) (observedAt : Int) (message : String) :
    CollectM Unit :=
  viaStore (persistSignalDown texts.value environmentId driftSignalId observedAt message)

/-- `persist_drift_source` (`drift.rs:405–418`). -/
def persistDriftSource (environmentId : String) (observedAt : Int) : CollectM Unit :=
  viaStore (persistSignalSnapshot texts.value environmentId driftSignalId observedAt .healthy
    (.object [("role", .string "source")]))

/-- `persist_drift_compare` (`drift.rs:420–451`). -/
def persistDriftCompare (environment : EnvironmentConfig) (source other : EnvInventory)
    (observedAt : Int) : CollectM Unit :=
  let compared := driftCompare walks environment source other
  viaStore (persistSignalSnapshot texts.value environment.id driftSignalId observedAt compared.1
    compared.2)

/-- `persist_all_skipped` (`drift.rs:453–470`). -/
def persistAllSkipped (environments : List EnvironmentConfig) (observedAt : Int)
    (reason : EnvironmentConfig → String) : CollectM Unit :=
  forEach environments fun environment ↦
    persistDriftSkipped texts environment.id observedAt (reason environment)

/-- `collect_other` (`drift.rs:165–210`). -/
def collectOther (environment : EnvironmentConfig) (observedAt maxAgeSecs : Int)
    (source : Option EnvInventory) : CollectM Unit := do
  match ← viaStore (Prog.query (recentlyGone codec.fromStr environment.id observedAt)) with
  | some reachability =>
    persistDriftSkipped texts environment.id observedAt reachability.asStr
  | none =>
    match source with
    | none => persistDriftDown texts environment.id observedAt "clone source unreachable"
    | some source =>
      match ← caught (envInventory codec texts credentials environment observedAt maxAgeSecs) with
      | .ok other => persistDriftCompare texts walks environment source other observedAt
      | .error message => persistDriftDown texts environment.id observedAt message

/-- The clone source itself, with its inventory if it has one (`drift.rs:272–290`). -/
def collectSource (source : EnvironmentConfig) (observedAt maxAgeSecs : Int) :
    CollectM (Option EnvInventory) := do
  match ← caught (envInventory codec texts credentials source observedAt maxAgeSecs) with
  | .ok inventory => do
    persistDriftSource texts source.id observedAt
    pure (some inventory)
  | .error message => do
    persistDriftDown texts source.id observedAt message
    pure none

/-- What a source that is gone leaves to say of an Environment (`drift.rs:255–259`). -/
def goneReason (source : EnvironmentConfig) (reachability : Reachability)
    (environment : EnvironmentConfig) : String :=
  if environment.id = source.id then reachability.asStr
  else "clone_source_" ++ reachability.asStr

/-- `as_secs() as i64` of the poll interval, doubled (`drift.rs:271`). -/
def maxBuildAgeSecs (pollIntervalSecs : Nat) : Int := satMul (wrapI64 pollIntervalSecs) 2

/-- `DriftCollector::collect` (`drift.rs:213–308`). -/
def driftCollect (environments : List EnvironmentConfig) (pollIntervalSecs : Nat)
    (observedAt : Int) : CollectM Unit :=
  match environments.find? EnvironmentConfig.cloneSource with
  | none => persistAllSkipped texts environments observedAt fun _ ↦ "no_clone_source"
  | some source =>
    if environments.length < 2 then
      persistAllSkipped texts environments observedAt fun _ ↦ "need_two_environments"
    else do
      match ← viaStore (Prog.query (recentlyGone codec.fromStr source.id observedAt)) with
      | some reachability =>
        persistAllSkipped texts environments observedAt (goneReason source reachability)
      | none => do
        let maxAgeSecs := maxBuildAgeSecs pollIntervalSecs
        let inventory ← collectSource codec texts credentials source observedAt maxAgeSecs
        forEach (environments.filter fun environment ↦ environment.id ≠ source.id)
          fun environment ↦
            collectOther codec texts credentials walks environment observedAt maxAgeSecs inventory

end Collect

end Daku.Signals
