import Daku.Protocol.Environment
import Daku.Store.Statements
import Mathlib.Data.List.Sort

/-!
# The Environments file and the Credential store

`environments.json` as `crates/daku-core/src/config.rs:56–83` and
`environments.rs:120–229` read and write it. Writing succeeds: a failed write changes nothing.
Debug quoting of an id is plain quoting.
-/

namespace Daku.Environments

open Daku.Protocol Daku.Store

/-- What a read of `environments.json` finds. -/
inductive EnvironmentsFile where
  | missing
  | unreadable (error : String)
  | unparsable
  | entries (environments : List EnvironmentConfig)
  deriving DecidableEq, Repr

/-- The configuration a command can change: the file and the Credential of each id. -/
structure EnvironmentsStore where
  file : EnvironmentsFile
  credentials : String → Option String

/-- `validate_platform_url` (`platform_registry.rs:119–129`). -/
def validatePlatformUrl (environment : EnvironmentConfig) : Except String Unit :=
  if environment.platform = .github ∧ splitGithubRepo environment.instanceUrl = none then
    .error s!"environment {environment.id}: github instance_url must look like https://github.com/<owner>/<repo>"
  else .ok ()

/-- `validate_instance_url` (`config.rs:157–162`). -/
def validateInstanceUrl (id url : String) : Except String Unit :=
  match instanceUrlError url with
  | some reason => .error s!"environment {id}: {reason}"
  | none => .ok ()

/-- `validate_environment` (`environments.rs:123–135`). -/
def validateEnvironment (environment : EnvironmentConfig) : Except String Unit := do
  match environmentIdError environment.id with
  | some reason => throw s!"environment id \"{environment.id}\": {reason}"
  | none => pure ()
  if Base.trim environment.label = "" then throw "environment label must not be empty"
  validateInstanceUrl environment.id environment.instanceUrl
  validatePlatformUrl environment

/-- `reject_duplicate_ids` (`config.rs:75–83`). -/
def rejectDuplicateIds : List EnvironmentConfig → Except String Unit
  | environments => go [] environments
where
  /-- The loop over the entries with the ids seen so far. -/
  go (seen : List String) : List EnvironmentConfig → Except String Unit
    | [] => .ok ()
    | e :: rest =>
      if e.id ∈ seen then .error s!"duplicate environment id \"{e.id}\"" else go (e.id :: seen) rest

/-- Entries by ascending `sort_order`, equal ones in the given order. -/
def sortEnvironments (environments : List EnvironmentConfig) : List EnvironmentConfig :=
  environments.insertionSort fun a b ↦ a.sortOrder ≤ b.sortOrder

/-- The checks of one loaded entry (`config.rs:60–66`). -/
def validateLoaded (environment : EnvironmentConfig) : Except String Unit := do
  match environmentIdError environment.id with
  | some reason => throw s!"environment id \"{environment.id}\": {reason}"
  | none => pure ()
  validateInstanceUrl environment.id environment.instanceUrl
  validatePlatformUrl environment

/-- `load_environments` (`config.rs:56–70`). -/
def loadEnvironments (path : String) : EnvironmentsFile → Except String (List EnvironmentConfig)
  | .missing => .error s!"reading {path}"
  | .unreadable _ => .error s!"reading {path}"
  | .unparsable => .error s!"parsing {path}"
  | .entries environments => do
    environments.forM validateLoaded
    rejectDuplicateIds environments
    pure (sortEnvironments environments)

/-- `load_or_empty` (`environments.rs:147–158`). -/
def loadOrEmpty (path : String) : EnvironmentsFile → Except String (List EnvironmentConfig)
  | .missing => .ok []
  | .unreadable error => .error s!"reading {path}: {error}"
  | .unparsable => .error s!"parsing {path}"
  | .entries environments => do
    rejectDuplicateIds environments
    pure environments

/-- `save_environment` (`environments.rs:172–201`). -/
def saveEnvironment (fromStr : FromStr) (path : String) (environment : EnvironmentConfig)
    (credentialJson : Option String) (allowCredentialWrite : Bool) (store : EnvironmentsStore) :
    Except String EnvironmentsStore := do
  validateEnvironment environment
  if let some blob := credentialJson then
    if !allowCredentialWrite then throw "refusing credential write on a non-loopback daemon"
    validateCredential fromStr environment.authMethod blob
  let environments ← loadOrEmpty path store.file
  pure {
    file := .entries (sortEnvironments (upsert EnvironmentConfig.id environment environments))
    credentials := match credentialJson with
      | some blob => Function.update store.credentials environment.id (some blob)
      | none => store.credentials }

/-- `delete_environment` (`environments.rs:207–229`). -/
def deleteEnvironment (path id : String) (allowCredentialWrite : Bool)
    (store : EnvironmentsStore) : Except String EnvironmentsStore := do
  if !allowCredentialWrite then throw "refusing credential delete on a non-loopback daemon"
  let environments ← loadOrEmpty path store.file
  let kept := environments.filter fun e ↦ e.id ≠ id
  if kept.length = environments.length then throw s!"unknown environment {id}"
  pure {
    file := .entries (sortEnvironments kept)
    credentials := Function.update store.credentials id none }

/-- A sequence that succeeds passes both its steps. -/
theorem bind_eq_ok {α β : Type} {x : Except String α} {f : α → Except String β} {b : β} :
    (x >>= f) = .ok b ↔ ∃ a, x = .ok a ∧ f a = .ok b := by
  cases x with
  | error e => exact ⟨fun h ↦ (by cases h), fun ⟨_, h, _⟩ ↦ by cases h⟩
  | ok a => exact ⟨fun h ↦ ⟨a, rfl, h⟩, fun ⟨_, h, hf⟩ ↦ (Except.ok.inj h) ▸ hf⟩

/-- Accepted entries have different ids. -/
theorem nodup_of_rejectDuplicateIds {environments : List EnvironmentConfig}
    (h : rejectDuplicateIds environments = .ok ()) :
    (environments.map EnvironmentConfig.id).Nodup := by
  have hgo : ∀ (es : List EnvironmentConfig) (seen : List String),
      rejectDuplicateIds.go seen es = .ok () →
        (es.map EnvironmentConfig.id).Nodup ∧ ∀ e ∈ es, e.id ∉ seen := by
    intro es
    induction es with
    | nil => exact fun _ _ ↦ ⟨List.nodup_nil, fun _ he ↦ by cases he⟩
    | cons e es ih =>
      intro seen h
      rw [rejectDuplicateIds.go] at h
      split at h
      · cases h
      · next hnew =>
        obtain ⟨hnodup, hseen⟩ := ih _ h
        refine ⟨List.nodup_cons.mpr ⟨fun hmem ↦ ?_, hnodup⟩, fun d hd ↦ ?_⟩
        · obtain ⟨d, hd, hid⟩ := List.mem_map.mp hmem
          exact hseen d hd (hid ▸ List.mem_cons_self)
        · rcases List.mem_cons.mp hd with rfl | hd
          · exact hnew
          · exact fun h ↦ hseen d hd (List.mem_cons_of_mem _ h)
  exact (hgo environments [] h).1

/-- Loaded entries have different ids. -/
theorem nodup_of_loadEnvironments {path : String} {file : EnvironmentsFile}
    {environments : List EnvironmentConfig} (h : loadEnvironments path file = .ok environments) :
    (environments.map EnvironmentConfig.id).Nodup := by
  cases file with
  | entries entries =>
    obtain ⟨_, _, h⟩ := bind_eq_ok.mp h
    obtain ⟨_, hids, h⟩ := bind_eq_ok.mp h
    rw [← Except.ok.inj h, sortEnvironments]
    exact (((List.perm_insertionSort _ _).map _).nodup_iff).mpr (nodup_of_rejectDuplicateIds hids)
  | _ => cases h

end Daku.Environments
