import Daku.Base.Int64
import Daku.Environments.Edits
import Daku.Environments.TestEnvironment
import Daku.Http.Replies

/-!
# Setup

`daku-daemon setup`, `crates/daku-core/src/setup.rs:1–137`: the sort order is read with the strict
loader, the entry is built anew, a probe may stop the command, and the entry is saved like one of
the sheet.
-/

namespace Daku.Environments

open Daku.Base Daku.Protocol Daku.Http Daku.Signals Daku.Store

/-- `SetupArgs` (`setup.rs:20–33`). -/
structure SetupArgs where
  id : String
  label : String
  instanceUrl : String
  platform : Platform
  authMethod : AuthMethod
  cloneSource : Bool
  credentialJson : Option String
  probe : Bool
  deriving DecidableEq, Repr

/-- `existing_sort_order` (`setup.rs:116–122`). -/
def existingSortOrder (path : String) (file : EnvironmentsFile) (id : String) : Option Int :=
  match loadEnvironments path file with
  | .ok environments =>
    (environments.find? fun e ↦ e.id = id).map EnvironmentConfig.sortOrder
  | .error _ => none

/-- The current maximum, or -1 without entries. -/
def maxSortOrder (environments : List EnvironmentConfig) : Int :=
  (environments.map EnvironmentConfig.sortOrder).max?.getD (-1)

/-- `next_sort_order` (`setup.rs:126–137`), as a release build adds. -/
def nextSortOrder (path : String) (file : EnvironmentsFile) : Int :=
  match loadEnvironments path file with
  | .ok environments => wrapI64 (maxSortOrder environments + 1)
  | .error _ => 0

/-- The sort order of the entry (`setup.rs:45–50`). -/
def setupSortOrder (path : String) (file : EnvironmentsFile) (id : String) : Int :=
  (existingSortOrder path file id).getD (nextSortOrder path file)

/-- The label of the entry (`setup.rs:53–57`). -/
def SetupArgs.shownLabel (args : SetupArgs) : String :=
  if trim args.label = "" then args.id else args.label

/-- The entry that is saved (`setup.rs:51–65`). -/
def setupEnvironment (path : String) (file : EnvironmentsFile) (args : SetupArgs) :
    EnvironmentConfig where
  id := args.id
  label := args.shownLabel
  instanceUrl := args.instanceUrl
  authMethod := args.authMethod
  sortOrder := setupSortOrder path file args.id
  cloneSource := args.cloneSource
  platform := args.platform
  thresholds := .default
  expectedDrift := []

/-- The probe, with its part of the summary (`setup.rs:66–90`). -/
def setupProbe (codec : Codec) (environment : EnvironmentConfig) (args : SetupArgs)
    (credentials : CredentialStore) (clock : ProbeClock) : ClientM String := do
  if args.probe then
    let observation ← testEnvironment codec environment args.credentialJson credentials clock
    if observation.reachability = .unreachable then
      let reason := observation.error.getD "no route"
      throw s!"probe of {environment.id} is unreachable ({reason}); fix the URL/Credential or pass --no-probe"
    else
      let reachability := observation.reachability.asStr
      let state := observation.state.asStr
      pure s!" · probe {reachability} {state}"
  else pure ""

/-- The summary (`setup.rs:98–112`). -/
def setupSummary (environment : EnvironmentConfig) (credentialJson : Option String)
    (probeLine : String) : String :=
  let platform := environment.platform.id
  let source := if environment.cloneSource then ", clone source" else ""
  let credential := if credentialJson.isSome then "stored" else "untouched"
  let label := environment.label
  s!"saved {environment.id} ({label}) [{platform}{source}] · credential {credential}{probeLine}"

/-- A setup with what it meets. -/
structure SetupCall where
  args : SetupArgs
  /-- What reads of the Credential store find. -/
  stored : String → Except String (Option String)
  clock : ProbeClock
  /-- The client, with what its requests are answered. -/
  client : Session
  weather : Weather

namespace SetupCall

variable (codec : Codec) (path : String) (call : SetupCall) (store : EnvironmentsStore)

/-- The entry of a setup. -/
def environment : EnvironmentConfig := setupEnvironment path store.file call.args

/-- How its probe ends. -/
def probed : Except String String :=
  outcome (setupProbe codec (call.environment path store) call.args (storedCredentials call.stored)
    call.clock) call.client

/-- The save at its end. -/
def save : EditCall where
  edit := .save (call.environment path store) call.args.credentialJson
  allowCredentialWrite := true
  weather := call.weather

/-- `run_setup` (`setup.rs:39–113`): the summary or where it failed, and the store. -/
def run : Except EditEnd String × EnvironmentsStore :=
  match call.probed codec path store with
  | .error error => (.error (.refused error), store)
  | .ok probeLine =>
    match (call.save path store).run codec.fromStr path store with
    | (.done, saved) =>
      (.ok (setupSummary (call.environment path store) call.args.credentialJson probeLine), saved)
    | (failed, left) => (.error failed, left)

end SetupCall

/-! ## What a setup is to do -/

/-- The addition of `next_sort_order` stays in its range, if it is made. -/
def SetupCall.InRange (path : String) (call : SetupCall) (store : EnvironmentsStore) : Prop :=
  ∀ environments, existingSortOrder path store.file call.args.id = none →
    loadEnvironments path store.file = .ok environments → maxSortOrder environments + 1 ≤ i64Max

/-- A failed setup changes nothing, but that a failing Credential write may follow the completed
write of the file. -/
structure AllOrNothing (path : String) (codec : Codec) (call : SetupCall)
    (before : EnvironmentsStore) (failed : EditEnd) (after : EnvironmentsStore) : Prop where
  ends : (∃ error, failed = .refused error) ∨ ∃ error, failed = .credentialFailed error
  refused : ∀ error, failed = .refused error → after = before
  written : ∀ error, failed = .credentialFailed error →
    (call.save path before).prepare codec.fromStr path before.file = .ok after.file ∧
      ∀ id, id ≠ call.args.id → after.credentials id = before.credentials id

/-- A completed setup sets what its arguments say in the entry of its id, keeps what they do not
say, puts a new entry last, and leaves every other entry as it was. -/
structure SetsOnly (args : SetupArgs) (before after : List EnvironmentConfig) : Prop where
  entry : ∃ e ∈ after, e.id = args.id ∧ e.label = args.shownLabel ∧
    e.instanceUrl = args.instanceUrl ∧ e.platform = args.platform ∧
    e.authMethod = args.authMethod ∧ e.cloneSource = args.cloneSource ∧
    (∀ previous ∈ before, previous.id = args.id → e.sortOrder = previous.sortOrder ∧
      e.thresholds = previous.thresholds ∧ e.expectedDrift = previous.expectedDrift) ∧
    ((∀ previous ∈ before, previous.id ≠ args.id) →
      ∀ other ∈ after, other.id ≠ args.id → other.sortOrder < e.sortOrder)
  unique : (after.map EnvironmentConfig.id).Nodup
  others : ∀ other, other.id ≠ args.id → (other ∈ after ↔ other ∈ before)

/-- What one setup keeps. -/
structure Preserves (codec : Codec) (path : String) (call : SetupCall)
    (store : EnvironmentsStore) : Prop where
  inRange : call.InRange path store
  failed : ∀ failed, (call.run codec path store).1 = .error failed →
    AllOrNothing path codec call store failed (call.run codec path store).2
  saved : ∀ summary, (call.run codec path store).1 = .ok summary →
    SetsOnly call.args store.file.environments (call.run codec path store).2.file.environments
  credentials : ∀ id, id ≠ call.args.id →
    (call.run codec path store).2.credentials id = store.credentials id

/-! ## When it does -/

/-- The setup gets to the write of the file. -/
def SetupCall.GetsToWrite (codec : Codec) (path : String) (call : SetupCall)
    (store : EnvironmentsStore) : Prop :=
  (∃ probeLine, call.probed codec path store = .ok probeLine) ∧
    ∃ file, (call.save path store).prepare codec.fromStr path store.file = .ok file

/-- Nothing fails from there on. -/
def SetupCall.Completes (call : SetupCall) : Prop :=
  call.weather.configWrite = .done ∧
    (call.args.credentialJson = none ∨ call.weather.credentialWrite = .done)

/-- What is stored of a known id is what a setup writes; else the order it reads is the right
one. -/
def SetupCall.FitsStored (path : String) (call : SetupCall) (store : EnvironmentsStore) : Prop :=
  (∀ previous ∈ store.file.environments, previous.id = call.args.id →
    previous.thresholds = .default ∧ previous.expectedDrift = [] ∧
      (Loadable path store.file ∨ previous.sortOrder = 0)) ∧
  ((∀ previous ∈ store.file.environments, previous.id ≠ call.args.id) →
    Loadable path store.file ∨ ∀ other ∈ store.file.environments, other.sortOrder < 0)

/-- The condition under which a setup preserves what it does not set. -/
structure Fits (codec : Codec) (path : String) (call : SetupCall) (store : EnvironmentsStore) :
    Prop where
  room : Loadable path store.file →
    (∀ previous ∈ store.file.environments, previous.id ≠ call.args.id) →
      ∀ other ∈ store.file.environments, other.sortOrder ≠ i64Max
  secured : call.GetsToWrite codec path store → ∀ error,
    call.weather.configWrite ≠ .failedAfter error
  stored : call.GetsToWrite codec path store → call.Completes → call.FitsStored path store

section SortOrder

variable {path id : String} {file : EnvironmentsFile} {environments : List EnvironmentConfig}

/-- What loads is what the file holds, in another order. -/
private theorem perm_of_load (h : loadEnvironments path file = .ok environments) :
    environments.Perm file.environments := by
  cases file with
  | entries entries =>
    obtain ⟨-, rfl⟩ := loadEnvironments_entries_iff.mp h
    exact List.perm_insertionSort _ _
  | _ => cases h

/-- No sort order is above the maximum. -/
private theorem le_maxSortOrder {e : EnvironmentConfig} (he : e ∈ environments) :
    e.sortOrder ≤ maxSortOrder environments := by
  have hmem := List.mem_map_of_mem (f := EnvironmentConfig.sortOrder) he
  rw [maxSortOrder]
  cases hmax : (environments.map EnvironmentConfig.sortOrder).max? with
  | none =>
    rw [List.max?_eq_none_iff.mp hmax] at hmem
    cases hmem
  | some m => exact (List.max?_eq_some_iff.mp hmax).2 _ hmem

/-- The maximum is that of an entry, or there are none. -/
private theorem maxSortOrder_cases (environments : List EnvironmentConfig) :
    environments = [] ∨ ∃ e ∈ environments, maxSortOrder environments = e.sortOrder := by
  rw [maxSortOrder]
  cases hmax : (environments.map EnvironmentConfig.sortOrder).max? with
  | none => exact Or.inl (List.map_eq_nil_iff.mp (List.max?_eq_none_iff.mp hmax))
  | some m =>
    obtain ⟨e, he, hm⟩ := List.mem_map.mp (List.max?_eq_some_iff.mp hmax).1
    exact Or.inr ⟨e, he, hm.symm⟩

/-- The order of a known id is the stored one. -/
theorem setupSortOrder_of_known (h : loadEnvironments path file = .ok environments)
    {previous : EnvironmentConfig} (hmem : previous ∈ environments) (hid : previous.id = id) :
    setupSortOrder path file id = previous.sortOrder := by
  have hfind : (environments.find? fun e ↦ e.id = id) = some previous :=
    (find?_key_eq_some_iff (nodup_of_loadEnvironments h)).mpr ⟨hmem, hid⟩
  rw [setupSortOrder, existingSortOrder, h]
  dsimp only
  rw [hfind]
  rfl

/-- The order of a new id is one past the maximum. -/
theorem setupSortOrder_of_unknown (h : loadEnvironments path file = .ok environments)
    (hid : ∀ e ∈ environments, e.id ≠ id) :
    setupSortOrder path file id = wrapI64 (maxSortOrder environments + 1) := by
  have hfind : (environments.find? fun e ↦ e.id = id) = none := by
    rw [List.find?_eq_none]
    intro e he
    rw [decide_eq_true_eq]
    exact hid e he
  rw [setupSortOrder, existingSortOrder, nextSortOrder, h]
  dsimp only
  rw [hfind]
  rfl

/-- From a file that does not load, no order is read. -/
theorem setupSortOrder_of_rejected {error : String}
    (h : loadEnvironments path file = .error error) : setupSortOrder path file id = 0 := by
  rw [setupSortOrder, existingSortOrder, nextSortOrder, h]
  rfl

end SortOrder

section Calls

variable {codec : Codec} {path : String} {call : SetupCall} {store : EnvironmentsStore}
  {file : EnvironmentsFile}

/-- What gets to the write of a save has different ids, and is the file with one entry replaced
or added. -/
theorem prepare_save (h : (call.save path store).prepare codec.fromStr path store.file = .ok file) :
    (store.file.environments.map EnvironmentConfig.id).Nodup ∧
      file = .entries (sortEnvironments (upsert EnvironmentConfig.id (call.environment path store)
        store.file.environments)) := by
  obtain ⟨⟨⟩, -, h⟩ := bind_eq_ok.mp h
  obtain ⟨loaded, hload, h⟩ := bind_eq_ok.mp h
  have hloaded : loaded = store.file.environments ∧
      (loaded.map EnvironmentConfig.id).Nodup := by
    cases hread : (call.save path store).weather.readError with
    | some error =>
      rw [hread] at hload
      cases hload
    | none =>
      rw [hread] at hload
      dsimp only at hload
      cases hfile : store.file with
      | missing =>
        rw [hfile] at hload
        obtain rfl := Except.ok.inj hload
        exact ⟨rfl, List.nodup_nil⟩
      | entries entries =>
        rw [hfile] at hload
        obtain ⟨⟨⟩, hids, hsame⟩ := bind_eq_ok.mp hload
        obtain rfl := Except.ok.inj hsame
        exact ⟨rfl, nodup_of_rejectDuplicateIds hids⟩
      | unreadable error =>
        rw [hfile] at hload
        cases hload
      | unparsable =>
        rw [hfile] at hload
        cases hload
  obtain ⟨rfl, hnodup⟩ := hloaded
  exact ⟨hnodup, (Except.ok.inj h).symm⟩

/-- The Credential step of a save: without a Credential, or with one that is written, it is done,
else it fails; and it touches no other Credential and no file. -/
private theorem storeCredential_save (call : SetupCall) (path : String)
    (store written : EnvironmentsStore) (hwrite : call.weather.configWrite = .done) :
    ((call.save path store).storeCredential written).2.file = written.file ∧
      (∀ id, id ≠ call.args.id →
        ((call.save path store).storeCredential written).2.credentials id =
          written.credentials id) ∧
      (((call.save path store).storeCredential written).1 = .done ∧ call.Completes ∨
        (∃ error, ((call.save path store).storeCredential written).1 = .credentialFailed error) ∧
          ¬ call.Completes) := by
  obtain ⟨hfile, hothers, -⟩ := (call.save path store).storeCredential_spec written
  refine ⟨hfile, hothers, ?_⟩
  rw [EditCall.storeCredential, SetupCall.Completes]
  dsimp only [SetupCall.save, Edit.credential]
  cases call.args.credentialJson with
  | none => exact Or.inl ⟨rfl, hwrite, Or.inl rfl⟩
  | some blob =>
    dsimp only [Option.map_some]
    cases call.weather.credentialWrite with
    | done => exact Or.inl ⟨rfl, hwrite, Or.inr rfl⟩
    | failed error => exact Or.inr ⟨⟨_, rfl⟩, fun h ↦ by cases h.2 with | inl h | inr h => cases h⟩
    | failedAfter error =>
      exact Or.inr ⟨⟨_, rfl⟩, fun h ↦ by cases h.2 with | inl h | inr h => cases h⟩

/-- Where a setup ends, by what it gets to. -/
theorem SetupCall.run_cases (codec : Codec) (path : String) (call : SetupCall)
    (store : EnvironmentsStore) :
    (∃ error, (call.run codec path store).1 = .error (.refused error) ∧
      (call.run codec path store).2 = store) ∧
        (¬ call.GetsToWrite codec path store ∨ ∃ error, call.weather.configWrite = .failed error) ∨
    call.GetsToWrite codec path store ∧
      (call.save path store).prepare codec.fromStr path store.file =
        .ok (call.run codec path store).2.file ∧
      (∀ id, id ≠ call.args.id →
        (call.run codec path store).2.credentials id = store.credentials id) ∧
      ((∃ error, (call.run codec path store).1 = .error (.unsecured error) ∧
          call.weather.configWrite = .failedAfter error) ∨
        (∃ error, (call.run codec path store).1 = .error (.credentialFailed error)) ∧
          call.weather.configWrite = .done ∧ ¬ call.Completes ∨
        (∃ summary, (call.run codec path store).1 = .ok summary) ∧ call.Completes) := by
  cases hprobed : call.probed codec path store with
  | error error =>
    have hrun : call.run codec path store = (.error (.refused error), store) := by
      rw [run, hprobed]
    rw [hrun]
    refine Or.inl ⟨⟨error, rfl, rfl⟩, Or.inl ?_⟩
    rintro ⟨⟨probeLine, hok⟩, -⟩
    rw [hprobed] at hok
    cases hok
  | ok probeLine =>
    cases hprepare : (call.save path store).prepare codec.fromStr path store.file with
    | error error =>
      have hrun : call.run codec path store = (.error (.refused error), store) := by
        rw [run, hprobed]
        dsimp only
        rw [EditCall.run, hprepare]
      rw [hrun]
      refine Or.inl ⟨⟨error, rfl, rfl⟩, Or.inl ?_⟩
      rintro ⟨-, file, hok⟩
      rw [hprepare] at hok
      cases hok
    | ok file =>
      have hgets : call.GetsToWrite codec path store := ⟨⟨probeLine, hprobed⟩, file, hprepare⟩
      rw [run, hprobed]
      dsimp only
      rw [EditCall.run, hprepare]
      dsimp only
      cases hwrite : call.weather.configWrite with
      | failed error =>
        have hsave : (call.save path store).weather.configWrite = .failed error := hwrite
        rw [hsave]
        exact Or.inl ⟨⟨error, rfl, rfl⟩, Or.inr ⟨error, rfl⟩⟩
      | failedAfter error =>
        have hsave : (call.save path store).weather.configWrite = .failedAfter error := hwrite
        rw [hsave]
        exact Or.inr ⟨hgets, rfl, fun _ _ ↦ rfl, Or.inl ⟨error, rfl, rfl⟩⟩
      | done =>
        have hsave : (call.save path store).weather.configWrite = .done := hwrite
        rw [hsave]
        obtain ⟨hfile, hothers, hend⟩ :=
          storeCredential_save call path store { store with file } hwrite
        dsimp only
        cases hstored : (call.save path store).storeCredential { store with file } with
        | mk ended left =>
          rw [hstored] at hfile hothers hend
          have hfile' : left.file = file := hfile
          obtain ⟨hdone, hcompletes⟩ | ⟨⟨error, hfailed⟩, hincomplete⟩ := hend
          · obtain rfl : ended = .done := hdone
            exact Or.inr ⟨hgets, congrArg Except.ok hfile'.symm, hothers,
              Or.inr (Or.inr ⟨⟨_, rfl⟩, hcompletes⟩)⟩
          · obtain rfl : ended = .credentialFailed error := hfailed
            exact Or.inr ⟨hgets, congrArg Except.ok hfile'.symm, hothers,
              Or.inr (Or.inl ⟨⟨error, rfl⟩, rfl, hincomplete⟩)⟩

/-- A file that cannot be loaded is rejected by the strict loader. -/
private theorem exists_error_of_not_loadable (h : ¬ Loadable path file) :
    ∃ error, loadEnvironments path file = .error error := by
  cases hload : loadEnvironments path file with
  | error error => exact ⟨error, rfl⟩
  | ok environments => exact absurd (Or.inr ⟨environments, hload⟩) h

private theorem existingSortOrder_eq_none_iff {id : String} {environments : List EnvironmentConfig}
    (h : loadEnvironments path file = .ok environments) :
    existingSortOrder path file id = none ↔ ∀ e ∈ file.environments, e.id ≠ id := by
  rw [existingSortOrder, h]
  dsimp only
  rw [Option.map_eq_none_iff, List.find?_eq_none]
  simp only [(perm_of_load h).mem_iff, decide_eq_true_eq, ne_eq]

/-- The addition is made for a new id in a file that loads, and leaves its range at the largest
number. -/
theorem inRange_iff (hrange : ∀ e ∈ store.file.environments, e.sortOrder ≤ i64Max) :
    call.InRange path store ↔ (Loadable path store.file →
      (∀ previous ∈ store.file.environments, previous.id ≠ call.args.id) →
        ∀ other ∈ store.file.environments, other.sortOrder ≠ i64Max) := by
  constructor
  · rintro h (hmissing | ⟨environments, hload⟩) hunknown other hother
    · rw [hmissing] at hother
      cases hother
    · have hadd := h environments ((existingSortOrder_eq_none_iff hload).mpr hunknown) hload
      have hle := le_maxSortOrder ((perm_of_load hload).mem_iff.mpr hother)
      omega
  · intro h environments hexisting hload
    have hunknown := (existingSortOrder_eq_none_iff hload).mp hexisting
    have hne := h (Or.inr ⟨environments, hload⟩) hunknown
    obtain rfl | ⟨e, he, hmax⟩ := maxSortOrder_cases environments
    · decide
    · have hmem := (perm_of_load hload).mem_iff.mp he
      have hle := hrange e hmem
      have hlt := hne e hmem
      omega

/-- With room for it, the order of a new id is above all others if the file loads. -/
private theorem lt_setupSortOrder (hin : call.InRange path store)
    (hrange : ∀ e ∈ store.file.environments, i64Min ≤ e.sortOrder)
    (hload : Loadable path store.file)
    (hunknown : ∀ previous ∈ store.file.environments, previous.id ≠ call.args.id)
    {other : EnvironmentConfig} (hother : other ∈ store.file.environments) :
    other.sortOrder < setupSortOrder path store.file call.args.id := by
  obtain hmissing | ⟨environments, hload⟩ := hload
  · rw [hmissing] at hother
    cases hother
  · have hperm := perm_of_load hload
    have hmem := hperm.mem_iff.mpr hother
    have hadd := hin environments ((existingSortOrder_eq_none_iff hload).mpr hunknown) hload
    have hle := le_maxSortOrder hmem
    have hmin := hrange other hother
    rw [setupSortOrder_of_unknown hload fun e he ↦ hunknown e (hperm.mem_iff.mp he),
      wrapI64_of_mem (by omega) hadd]
    omega

/-- A setup writes its own entry, and all others as they were. -/
private theorem written_of_prepare
    (hprepare : (call.save path store).prepare codec.fromStr path store.file = .ok file) :
    (file.environments.map EnvironmentConfig.id).Nodup ∧
      call.environment path store ∈ file.environments ∧
      (∀ e ∈ file.environments, e.id = call.args.id → e = call.environment path store) ∧
      ∀ e : EnvironmentConfig, e.id ≠ call.args.id →
        (e ∈ file.environments ↔ e ∈ store.file.environments) := by
  obtain ⟨hnodup, rfl⟩ := prepare_save hprepare
  have hperm := List.perm_insertionSort (fun a b : EnvironmentConfig ↦ a.sortOrder ≤ b.sortOrder)
    (upsert EnvironmentConfig.id (call.environment path store) store.file.environments)
  refine ⟨(hperm.map _).nodup_iff.mpr (nodup_upsert hnodup), ?_, ?_, ?_⟩
  · exact hperm.mem_iff.mpr mem_upsert_self
  · exact fun e he hid ↦ eq_of_mem_upsert (hperm.mem_iff.mp he) hid
  · exact fun e hid ↦ hperm.mem_iff.trans (mem_upsert_of_ne hid)

/-- The entry has the label and the URL that were given. -/
private theorem environment_given :
    (call.environment path store).label = call.args.shownLabel ∧
      (call.environment path store).instanceUrl = call.args.instanceUrl := by
  constructor <;> rw [SetupCall.environment, setupEnvironment]

/-- What a completed setup writes is right exactly if it fits what was stored. -/
theorem setsOnly_iff (hin : call.InRange path store)
    (hrange : ∀ e ∈ store.file.environments, i64Min ≤ e.sortOrder)
    (hprepare : (call.save path store).prepare codec.fromStr path store.file = .ok file) :
    SetsOnly call.args store.file.environments file.environments ↔ call.FitsStored path store := by
  obtain ⟨hnodup, hself, honly, hothers⟩ := written_of_prepare hprepare
  have hrejected : ¬ Loadable path store.file →
      (call.environment path store).sortOrder = 0 := by
    intro h
    obtain ⟨error, hload⟩ := exists_error_of_not_loadable h
    exact setupSortOrder_of_rejected hload
  constructor
  · intro h
    obtain ⟨e, he, hid, -, -, -, -, -, hknown, hnew⟩ := h.entry
    obtain rfl := honly e he hid
    constructor
    · intro previous hprevious hpid
      obtain ⟨horder, hthresholds, hdrift⟩ := hknown previous hprevious hpid
      refine ⟨hthresholds.symm, hdrift.symm, ?_⟩
      by_cases hload : Loadable path store.file
      · exact Or.inl hload
      · exact Or.inr (horder.symm.trans (hrejected hload))
    · intro hunknown
      by_cases hload : Loadable path store.file
      · exact Or.inl hload
      · refine Or.inr fun other hother ↦ ?_
        have hlt := hnew hunknown other ((hothers other (hunknown other hother)).mpr hother)
          (hunknown other hother)
        rwa [hrejected hload] at hlt
  · rintro ⟨hknown, hnew⟩
    obtain ⟨hlabel, hurl⟩ := @environment_given path call store
    refine ⟨⟨call.environment path store, hself, rfl, hlabel, hurl, rfl, rfl, rfl, ?_, ?_⟩, ?_,
      hothers⟩
    · intro previous hprevious hpid
      obtain ⟨hthresholds, hdrift, horder⟩ := hknown previous hprevious hpid
      refine ⟨?_, hthresholds.symm, hdrift.symm⟩
      by_cases hload : Loadable path store.file
      · obtain hmissing | ⟨environments, hload⟩ := hload
        · rw [hmissing] at hprevious
          cases hprevious
        · exact setupSortOrder_of_known hload ((perm_of_load hload).mem_iff.mpr hprevious) hpid
      · exact (hrejected hload).trans (horder.resolve_left hload).symm
    · intro hunknown other hother hid
      have hbefore := (hothers other hid).mp hother
      by_cases hload : Loadable path store.file
      · exact lt_setupSortOrder hin hrange hload hunknown hbefore
      · rw [hrejected hload]
        exact (hnew hunknown).resolve_left hload other hbefore
    · exact hnodup

end Calls

/-- A setup preserves what it does not set, and changes nothing if it fails, exactly if it fits. -/
theorem setup_preserves_iff {codec : Codec} {path : String} {call : SetupCall}
    {store : EnvironmentsStore}
    (hrange : ∀ e ∈ store.file.environments, i64Min ≤ e.sortOrder ∧ e.sortOrder ≤ i64Max) :
    Preserves codec path call store ↔ Fits codec path call store := by
  have hroom := @inRange_iff path call store fun e he ↦ (hrange e he).2
  obtain ⟨⟨error, hrefused, hsame⟩, hwrite⟩ | ⟨hgets, hprepare, hcredentials, hend⟩ :=
    call.run_cases codec path store
  · have hends : ∀ failed, (call.run codec path store).1 = .error failed →
        failed = .refused error := by
      intro failed hfailed
      rw [hrefused] at hfailed
      exact (Except.error.inj hfailed).symm
    constructor
    · intro h
      refine ⟨hroom.mp h.inRange, fun hgets error' hafter ↦ ?_, fun hgets hcompletes ↦ ?_⟩
      all_goals
        obtain ⟨error'', hfailed⟩ := hwrite.resolve_left (not_not_intro hgets)
      · rw [hfailed] at hafter
        cases hafter
      · have hdone := hcompletes.1
        rw [hfailed] at hdone
        cases hdone
    · intro h
      refine ⟨hroom.mpr h.room, fun failed hfailed ↦ ?_, fun summary hok ↦ ?_, fun _ _ ↦ ?_⟩
      · obtain rfl := hends failed hfailed
        exact ⟨Or.inl ⟨error, rfl⟩, fun _ _ ↦ hsame, fun _ hother ↦ (by cases hother)⟩
      · rw [hrefused] at hok
        cases hok
      · rw [hsame]
  obtain ⟨error, hunsecured, hafter⟩ | ⟨⟨error, hfailed⟩, hdone, hincomplete⟩ |
    ⟨⟨summary, hok⟩, hcompletes⟩ := hend
  · refine iff_of_false (fun h ↦ ?_) fun h ↦ h.secured hgets error hafter
    obtain ⟨_, hends⟩ | ⟨_, hends⟩ := (h.failed _ hunsecured).ends <;> cases hends
  · constructor
    · intro h
      refine ⟨hroom.mp h.inRange, fun _ _ hafter ↦ ?_, fun _ hcompletes ↦
        absurd hcompletes hincomplete⟩
      rw [hdone] at hafter
      cases hafter
    · intro h
      refine ⟨hroom.mpr h.room, fun failed hends ↦ ?_, fun summary hok ↦ ?_, hcredentials⟩
      · rw [hfailed] at hends
        obtain rfl := Except.error.inj hends
        exact ⟨Or.inr ⟨error, rfl⟩, fun _ hother ↦ (by cases hother),
          fun _ _ ↦ ⟨hprepare, hcredentials⟩⟩
      · rw [hfailed] at hok
        cases hok
  · have hmin : ∀ e ∈ store.file.environments, i64Min ≤ e.sortOrder := fun e he ↦ (hrange e he).1
    constructor
    · intro h
      refine ⟨hroom.mp h.inRange, fun _ _ hafter ↦ ?_, fun _ _ ↦ ?_⟩
      · rw [hcompletes.1] at hafter
        cases hafter
      · exact (setsOnly_iff h.inRange hmin hprepare).mp (h.saved summary hok)
    · intro h
      have hin := hroom.mpr h.room
      refine ⟨hin, fun failed hends ↦ ?_, fun _ _ ↦ ?_, hcredentials⟩
      · rw [hok] at hends
        cases hends
      · exact (setsOnly_iff hin hmin hprepare).mpr (h.stored hgets hcompletes)

/-- A setup of `prod` without a probe and without a Credential. -/
def sampleSetup : SetupCall where
  args := ⟨"prod", "Prod", "https://prod.example.com", .servicenow, .basic, false, none, false⟩
  stored := fun _ ↦ .ok none
  clock := ⟨0, 0⟩
  client := .new (fun _ _ ↦ .error "offline") id
  weather := .fair

/-- A file with these entries. -/
def storeOf (environments : List EnvironmentConfig) : EnvironmentsStore :=
  ⟨.entries environments, fun _ ↦ none⟩

/-- An entry with a higher count of errors. -/
def tunedEnvironment : EnvironmentConfig :=
  { savedEnvironment with thresholds := { Thresholds.default with syslogErrorDegradedAt := 10 } }

/-- The id of the setup under another label, after a tuned entry of another id. -/
def knownStore : EnvironmentsStore :=
  storeOf [{ tunedEnvironment with id := "dev", sortOrder := -1 },
    { savedEnvironment with label := "Production", sortOrder := 7 }]

theorem setup_preserves_known :
    Preserves sampleCodec "environments.json" sampleSetup knownStore := by
  have hfile : knownStore.file.environments =
      [{ tunedEnvironment with id := "dev", sortOrder := -1 },
        { savedEnvironment with label := "Production", sortOrder := 7 }] := rfl
  have hloads : Loadable "environments.json" knownStore.file :=
    Or.inr ⟨knownStore.file.environments, by decide +kernel⟩
  apply (setup_preserves_iff fun e he ↦ ?_).mpr
  · refine ⟨fun _ hunknown ↦ ?_, fun _ error h ↦ ?_, fun _ _ ↦ ⟨?_, fun _ ↦ Or.inl hloads⟩⟩
    · exact absurd rfl (hunknown _ (List.mem_cons_of_mem _ List.mem_cons_self))
    · cases h
    · intro previous hprevious hid
      rw [hfile] at hprevious
      obtain rfl | rfl := List.mem_pair.mp hprevious
      · exact absurd hid (by decide)
      · exact ⟨rfl, rfl, Or.inl hloads⟩
  · rw [hfile] at he
    obtain rfl | rfl := List.mem_pair.mp he <;> decide

/-- A setup of a known id succeeds and resets its thresholds. -/
theorem setup_resets_thresholds :
    (sampleSetup.run sampleCodec "environments.json" (storeOf [tunedEnvironment])).1 =
        .ok "saved prod (Prod) [servicenow] · credential untouched" ∧
      (sampleSetup.run sampleCodec "environments.json" (storeOf [tunedEnvironment])).2.file =
        .entries [savedEnvironment] ∧
      ¬ Preserves sampleCodec "environments.json" sampleSetup (storeOf [tunedEnvironment]) := by
  have hrun : (sampleSetup.run sampleCodec "environments.json" (storeOf [tunedEnvironment])).1 =
      .ok "saved prod (Prod) [servicenow] · credential untouched" := by decide +kernel
  have hfile : (sampleSetup.run sampleCodec "environments.json"
      (storeOf [tunedEnvironment])).2.file = .entries [savedEnvironment] := by decide +kernel
  refine ⟨hrun, hfile, fun h ↦ ?_⟩
  obtain ⟨e, he, -, -, -, -, -, -, hknown, -⟩ := (h.saved _ hrun).entry
  rw [hfile] at he
  obtain rfl := List.mem_singleton.mp he
  obtain ⟨-, hthresholds, -⟩ := hknown tunedEnvironment List.mem_cons_self rfl
  exact absurd hthresholds (by decide)

end Daku.Environments
