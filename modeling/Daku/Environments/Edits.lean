import Daku.Environments.File

/-!
# Edits of the Environments file

`save_environment` and `delete_environment` of `crates/daku-core/src/environments.rs:172–229` with
everything that can fail on the way: the read of the file, its atomic replacement
(`atomic_write.rs:28–77`) and the write of the Credential store. One lock serializes the calls.
-/

namespace Daku.Environments

open Daku.Protocol Daku.Store

/-- How a write ends. -/
inductive WriteEnd where
  | done
  /-- It fails and changes nothing. -/
  | failed (error : String)
  /-- It fails after the change, as an atomic replacement does that cannot secure the new file
  (`atomic_write.rs:65–70`). -/
  | failedAfter (error : String)
  deriving DecidableEq, Repr

/-- What the file system and the Credential store do to one call. -/
structure Weather where
  readError : Option String
  configWrite : WriteEnd
  credentialWrite : WriteEnd
  deriving DecidableEq, Repr

/-- Nothing fails. -/
def Weather.fair : Weather := ⟨none, .done, .done⟩

/-- An edit an Operator asks for. -/
inductive Edit where
  | save (environment : EnvironmentConfig) (credentialJson : Option String)
  | delete (id : String)
  deriving DecidableEq

/-- A call: the edit, whether the daemon may write Credentials, and what happens to it. -/
structure EditCall where
  edit : Edit
  allowCredentialWrite : Bool
  weather : Weather

/-- Where a call ends. -/
inductive EditEnd where
  | done
  /-- Before the file is replaced. -/
  | refused (error : String)
  /-- The file is replaced, but its mode is not set. -/
  | unsecured (error : String)
  /-- The file is replaced, and the Credential step fails. -/
  | credentialFailed (error : String)
  deriving DecidableEq, Repr

/-- The Environment an edit is about. -/
def Edit.id : Edit → String
  | save environment _ => environment.id
  | delete id => id

/-- The checks before the file is read (`environments.rs:179–186, 213–216`). -/
def Edit.validate (fromStr : FromStr) (allowCredentialWrite : Bool) : Edit → Except String Unit
  | save environment credentialJson => do
    validateEnvironment environment
    if let some blob := credentialJson then
      if !allowCredentialWrite then throw "refusing credential write on a non-loopback daemon"
      validateCredential fromStr environment.authMethod blob
  | delete _ => do
    if !allowCredentialWrite then throw "refusing credential delete on a non-loopback daemon"

/-- The entries to write (`environments.rs:187–194, 217–222`). -/
def Edit.change (environments : List EnvironmentConfig) :
    Edit → Except String (List EnvironmentConfig)
  | save environment _ => .ok (upsert EnvironmentConfig.id environment environments)
  | delete id =>
    let kept := environments.filter fun e ↦ e.id ≠ id
    if kept.length = environments.length then .error s!"unknown environment {id}" else .ok kept

/-- The Credential of the id after the Credential step, if there is such a step
(`environments.rs:196–200, 225–227`). -/
def Edit.credential : Edit → Option (Option String)
  | save _ credentialJson => credentialJson.map some
  | delete _ => some none

/-- What the Credential step says when it fails. -/
def Edit.credentialContext : Edit → String
  | save environment _ => s!"storing credential for {environment.id}"
  | delete id => s!"deleting credential for {id}"

/-- The file after the call gets to its write, or why it does not get there. -/
def EditCall.prepare (fromStr : FromStr) (path : String) (call : EditCall)
    (file : EnvironmentsFile) : Except String EnvironmentsFile := do
  call.edit.validate fromStr call.allowCredentialWrite
  let environments ← loadOrEmpty path (match call.weather.readError with
    | some error => .unreadable error
    | none => file)
  let changed ← call.edit.change environments
  pure (.entries (sortEnvironments changed))

/-- The Credential step: what it does to the Credential of the id, and how the call ends. -/
def EditCall.storeCredential (call : EditCall) (store : EnvironmentsStore) :
    EditEnd × EnvironmentsStore :=
  match call.edit.credential with
  | none => (.done, store)
  | some secret =>
    let written :=
      { store with credentials := Function.update store.credentials call.edit.id secret }
    match call.weather.credentialWrite with
    | .done => (.done, written)
    | .failed _ => (.credentialFailed call.edit.credentialContext, store)
    | .failedAfter _ => (.credentialFailed call.edit.credentialContext, written)

/-- One call of `save_environment` or `delete_environment` (`environments.rs:172–229`). -/
def EditCall.run (fromStr : FromStr) (path : String) (call : EditCall)
    (store : EnvironmentsStore) : EditEnd × EnvironmentsStore :=
  match call.prepare fromStr path store.file with
  | .error error => (.refused error, store)
  | .ok file =>
    match call.weather.configWrite with
    | .failed error => (.refused error, store)
    | .failedAfter error => (.unsecured error, { store with file })
    | .done => call.storeCredential { store with file }

/-- The store after several calls. -/
def runEdits (fromStr : FromStr) (path : String) (store : EnvironmentsStore)
    (calls : List EditCall) : EnvironmentsStore :=
  calls.foldl (fun store call ↦ (call.run fromStr path store).2) store

/-- The entries of a file. -/
def EnvironmentsFile.environments : EnvironmentsFile → List EnvironmentConfig
  | .entries environments => environments
  | _ => []

/-- There is no file, or one that the loader accepts. -/
def Loadable (path : String) (file : EnvironmentsFile) : Prop :=
  file = .missing ∨ ∃ environments, loadEnvironments path file = .ok environments

/-- The loader accepts the file and finds different ids in ascending order. -/
def LoadsWell (path : String) (file : EnvironmentsFile) : Prop :=
  ∃ environments, loadEnvironments path file = .ok environments ∧
    (environments.map EnvironmentConfig.id).Nodup ∧
    environments.Pairwise fun a b ↦ a.sortOrder ≤ b.sortOrder

/-- The entries an edit leaves: exactly that of its id differs. -/
def Edit.Changes (before after : List EnvironmentConfig) : Edit → Prop
  | save environment _ =>
    ∀ e, e ∈ after ↔ e = environment ∨ e ∈ before ∧ e.id ≠ environment.id
  | delete id => id ∈ before.map EnvironmentConfig.id ∧ ∀ e, e ∈ after ↔ e ∈ before ∧ e.id ≠ id

/-- What one call may do to the store. -/
structure Precise (path : String) (call : EditCall) (before : EnvironmentsStore)
    (ended : EditEnd) (after : EnvironmentsStore) : Prop where
  loads : after.file = .missing ∨ LoadsWell path after.file
  changes : (∀ error, ended ≠ .refused error) →
    call.edit.Changes before.file.environments after.file.environments ∧
      after.file.environments.Pairwise fun a b ↦ a.sortOrder ≤ b.sortOrder
  credentials : ∀ id, id ≠ call.edit.id → after.credentials id = before.credentials id
  refused : ∀ error, ended = .refused error → after = before
  secured : ∀ error, ended ≠ .unsecured error

/-- Every call of a run is precise. -/
def EditsPrecise (fromStr : FromStr) (path : String) (store : EnvironmentsStore)
    (calls : List EditCall) : Prop :=
  ∀ pre call post, calls = pre ++ call :: post →
    Precise path call (runEdits fromStr path store pre)
      (call.run fromStr path (runEdits fromStr path store pre)).1
      (call.run fromStr path (runEdits fromStr path store pre)).2

/-- No call that gets to its write replaces the file and then fails to secure it. -/
def Secured (fromStr : FromStr) (path : String) (store : EnvironmentsStore)
    (calls : List EditCall) : Prop :=
  ∀ pre call post, calls = pre ++ call :: post →
    ∀ file, call.prepare fromStr path (runEdits fromStr path store pre).file = .ok file →
      ∀ error, call.weather.configWrite ≠ .failedAfter error

section Loading

variable {path : String} {environments changed : List EnvironmentConfig}

/-- Entries the loader accepts. -/
def Accepted (environments : List EnvironmentConfig) : Prop :=
  (∀ e ∈ environments, validateLoaded e = .ok ()) ∧
    (environments.map EnvironmentConfig.id).Nodup

private theorem forM_eq_ok_iff {α : Type} (f : α → Except String Unit) (l : List α) :
    l.forM f = .ok () ↔ ∀ a ∈ l, f a = .ok () := by
  induction l with
  | nil => simp [List.forM_nil, pure, Except.pure]
  | cons a l ih =>
    show (f a >>= fun _ ↦ l.forM f) = .ok () ↔ _
    rw [bind_eq_ok, List.forall_mem_cons, ih]
    constructor
    · rintro ⟨⟨⟩, ha, hl⟩
      exact ⟨ha, hl⟩
    · exact fun ⟨ha, hl⟩ ↦ ⟨(), ha, hl⟩

private theorem rejectDuplicateIds_go_of_nodup {seen : List String}
    (h : (environments.map EnvironmentConfig.id).Nodup) (hseen : ∀ e ∈ environments, e.id ∉ seen) :
    rejectDuplicateIds.go seen environments = .ok () := by
  induction environments generalizing seen with
  | nil => rfl
  | cons e environments ih =>
    rw [List.map_cons, List.nodup_cons] at h
    rw [rejectDuplicateIds.go, if_neg (hseen e List.mem_cons_self)]
    apply ih h.2
    intro d hd hmem
    rcases List.mem_cons.mp hmem with hid | hmem
    · exact h.1 (hid ▸ List.mem_map_of_mem hd)
    · exact hseen d (List.mem_cons_of_mem _ hd) hmem

/-- Exactly different ids are accepted. -/
theorem rejectDuplicateIds_eq_ok_iff :
    rejectDuplicateIds environments = .ok () ↔ (environments.map EnvironmentConfig.id).Nodup :=
  ⟨nodup_of_rejectDuplicateIds, fun h ↦
    rejectDuplicateIds_go_of_nodup h fun _ _ ↦ List.not_mem_nil⟩

/-- The loader sorts what it accepts. -/
theorem loadEnvironments_entries_iff {loaded : List EnvironmentConfig} :
    loadEnvironments path (.entries environments) = .ok loaded ↔
      Accepted environments ∧ loaded = sortEnvironments environments := by
  show (environments.forM validateLoaded >>= fun _ ↦ rejectDuplicateIds environments >>= fun _ ↦
    pure (sortEnvironments environments)) = _ ↔ _
  rw [bind_eq_ok, Accepted, ← forM_eq_ok_iff, ← rejectDuplicateIds_eq_ok_iff]
  constructor
  · rintro ⟨⟨⟩, hvalid, h⟩
    obtain ⟨⟨⟩, hids, h⟩ := bind_eq_ok.mp h
    exact ⟨⟨hvalid, hids⟩, (Except.ok.inj h).symm⟩
  · rintro ⟨⟨hvalid, hids⟩, rfl⟩
    exact ⟨(), hvalid, bind_eq_ok.mpr ⟨(), hids, rfl⟩⟩

/-- A loadable file is missing or has acceptable entries. -/
theorem loadable_iff {file : EnvironmentsFile} :
    Loadable path file ↔
      file = .missing ∨ ∃ environments, file = .entries environments ∧ Accepted environments := by
  rw [Loadable]
  cases file with
  | entries environments =>
    simp [loadEnvironments_entries_iff]
  | missing => simp
  | unreadable error => simp [loadEnvironments]
  | unparsable => simp [loadEnvironments]

private theorem mem_sortEnvironments {e : EnvironmentConfig} :
    e ∈ sortEnvironments environments ↔ e ∈ environments := by
  rw [sortEnvironments, List.mem_insertionSort]

private theorem pairwise_sortEnvironments (environments : List EnvironmentConfig) :
    (sortEnvironments environments).Pairwise fun a b ↦ a.sortOrder ≤ b.sortOrder :=
  List.pairwise_insertionSort _ _

private theorem accepted_sortEnvironments (h : Accepted environments) :
    Accepted (sortEnvironments environments) := by
  refine ⟨fun e he ↦ h.1 e (mem_sortEnvironments.mp he), ?_⟩
  rw [sortEnvironments, ((List.perm_insertionSort _ _).map _).nodup_iff]
  exact h.2

/-- Acceptable entries load. -/
theorem loadsWell_of_accepted (h : Accepted environments) :
    LoadsWell path (.entries environments) :=
  ⟨_, loadEnvironments_entries_iff.mpr ⟨h, rfl⟩, (accepted_sortEnvironments h).2,
    pairwise_sortEnvironments _⟩

theorem loads_of_loadable {file : EnvironmentsFile} (h : Loadable path file) :
    file = .missing ∨ LoadsWell path file := by
  rcases loadable_iff.mp h with hmissing | ⟨environments, rfl, haccepted⟩
  · exact Or.inl hmissing
  · exact Or.inr (loadsWell_of_accepted haccepted)

/-- The checks of a save include those of a load. -/
theorem validateLoaded_of_validateEnvironment {e : EnvironmentConfig}
    (h : validateEnvironment e = .ok ()) : validateLoaded e = .ok () := by
  unfold validateEnvironment at h
  unfold validateLoaded
  cases hid : environmentIdError e.id with
  | some reason =>
    rw [hid] at h
    cases h
  | none =>
    rw [hid] at h
    by_cases hlabel : Base.trim e.label = ""
    · simp [hlabel, bind, Except.bind, throw, throwThe, MonadExceptOf.throw] at h
    · simpa [hlabel] using h

end Loading

section Calls

variable {fromStr : FromStr} {path : String} {call : EditCall} {store : EnvironmentsStore}
  {file : EnvironmentsFile}

/-- The edit of acceptable entries leaves acceptable entries, and changes exactly one. -/
theorem Edit.change_spec {edit : Edit} {allowCredentialWrite : Bool}
    {before after : List EnvironmentConfig} (hbefore : Accepted before)
    (hvalid : edit.validate fromStr allowCredentialWrite = .ok ())
    (hchange : edit.change before = .ok after) : Accepted after ∧ edit.Changes before after := by
  cases edit with
  | save environment credentialJson =>
    obtain rfl := Except.ok.inj hchange
    obtain ⟨⟨⟩, henvironment, -⟩ := bind_eq_ok.mp hvalid
    refine ⟨⟨fun e he ↦ ?_, nodup_upsert hbefore.2⟩, fun e ↦ ?_⟩
    · rcases mem_of_mem_upsert he with he | rfl
      · exact hbefore.1 e he
      · exact validateLoaded_of_validateEnvironment henvironment
    · constructor
      · intro he
        by_cases hid : e.id = environment.id
        · exact Or.inl (eq_of_mem_upsert he hid)
        · exact Or.inr ⟨(mem_upsert_of_ne hid).mp he, hid⟩
      · rintro (rfl | ⟨he, hid⟩)
        · exact mem_upsert_self
        · exact (mem_upsert_of_ne hid).mpr he
  | delete id =>
    simp only [Edit.change] at hchange
    split at hchange
    · cases hchange
    · next hlength =>
      obtain rfl := Except.ok.inj hchange
      refine ⟨⟨fun e he ↦ hbefore.1 e (List.mem_of_mem_filter he),
        hbefore.2.sublist (List.filter_sublist.map _)⟩, ?_, fun e ↦ by simp⟩
      -- Something was dropped, so the id was there.
      by_contra hmissing
      apply hlength
      rw [List.filter_eq_self.mpr]
      intro e he
      simp only [decide_eq_true_eq]
      rintro rfl
      exact hmissing (List.mem_map_of_mem he)

/-- A call that gets to its write has acceptable entries to write, in ascending order. -/
theorem EditCall.prepare_spec (hfile : Loadable path store.file)
    (h : call.prepare fromStr path store.file = .ok file) :
    ∃ environments, file = .entries environments ∧ Accepted environments ∧
      call.edit.Changes store.file.environments environments ∧
      environments.Pairwise fun a b ↦ a.sortOrder ≤ b.sortOrder := by
  obtain ⟨⟨⟩, hvalid, h⟩ := bind_eq_ok.mp h
  obtain ⟨loaded, hload, h⟩ := bind_eq_ok.mp h
  obtain ⟨changed, hchange, h⟩ := bind_eq_ok.mp h
  obtain rfl := Except.ok.inj h
  have hloaded : loaded = store.file.environments ∧ Accepted loaded := by
    cases hread : call.weather.readError with
    | some error =>
      rw [hread] at hload
      cases hload
    | none =>
      rw [hread] at hload
      rcases loadable_iff.mp hfile with hmissing | ⟨environments, hentries, haccepted⟩
      · rw [hmissing] at hload ⊢
        obtain rfl := Except.ok.inj hload
        exact ⟨rfl, fun e he ↦ absurd he List.not_mem_nil, List.nodup_nil⟩
      · rw [hentries] at hload ⊢
        obtain ⟨⟨⟩, -, hsame⟩ := bind_eq_ok.mp hload
        obtain rfl := Except.ok.inj hsame
        exact ⟨rfl, haccepted⟩
  obtain ⟨rfl, haccepted⟩ := hloaded
  obtain ⟨hafter, hchanges⟩ := Edit.change_spec haccepted hvalid hchange
  refine ⟨_, rfl, accepted_sortEnvironments hafter, ?_, pairwise_sortEnvironments _⟩
  cases hedit : call.edit with
  | save environment credentialJson =>
    rw [hedit] at hchanges
    exact fun e ↦ mem_sortEnvironments.trans (hchanges e)
  | delete id =>
    rw [hedit] at hchanges
    exact ⟨hchanges.1, fun e ↦ mem_sortEnvironments.trans (hchanges.2 e)⟩

/-- The Credential step touches one Credential and no file, and never ends as a refusal. -/
theorem EditCall.storeCredential_spec (call : EditCall) (store : EnvironmentsStore) :
    (call.storeCredential store).2.file = store.file ∧
      (∀ id, id ≠ call.edit.id →
        (call.storeCredential store).2.credentials id = store.credentials id) ∧
      (∀ error, (call.storeCredential store).1 ≠ .refused error) ∧
      ∀ error, (call.storeCredential store).1 ≠ .unsecured error := by
  unfold EditCall.storeCredential
  cases call.edit.credential with
  | none => simp
  | some secret =>
    have hother : ∀ id, id ≠ call.edit.id →
        Function.update store.credentials call.edit.id secret id = store.credentials id :=
      fun id hid ↦ Function.update_of_ne hid _ _
    cases call.weather.credentialWrite with
    | done => simpa using hother
    | failed error => simp
    | failedAfter error => simpa using hother

/-- Where a call ends, by what it gets to. -/
theorem EditCall.run_cases (fromStr : FromStr) (call : EditCall)
    (hfile : Loadable path store.file) :
    ((∃ error, (call.run fromStr path store).1 = .refused error) ∧
      (call.run fromStr path store).2 = store) ∨
    ∃ environments, call.prepare fromStr path store.file = .ok (.entries environments) ∧
      Accepted environments ∧ call.edit.Changes store.file.environments environments ∧
      environments.Pairwise (fun a b ↦ a.sortOrder ≤ b.sortOrder) ∧
      (call.run fromStr path store).2.file = .entries environments ∧
      (∀ id, id ≠ call.edit.id →
        (call.run fromStr path store).2.credentials id = store.credentials id) ∧
      (∀ error, (call.run fromStr path store).1 ≠ .refused error) ∧
      ((∃ error, (call.run fromStr path store).1 = .unsecured error) ↔
        ∃ error, call.weather.configWrite = .failedAfter error) := by
  unfold EditCall.run
  cases hprepare : call.prepare fromStr path store.file with
  | error error => exact Or.inl ⟨⟨error, rfl⟩, rfl⟩
  | ok file =>
    obtain ⟨environments, rfl, haccepted, hchanges, hsorted⟩ :=
      EditCall.prepare_spec hfile hprepare
    cases hwrite : call.weather.configWrite with
    | failed error => exact Or.inl ⟨⟨error, rfl⟩, rfl⟩
    | failedAfter error =>
      exact Or.inr ⟨environments, rfl, haccepted, hchanges, hsorted, rfl, fun _ _ ↦ rfl,
        by simp, by simp⟩
    | done =>
      obtain ⟨hfile', hothers, hrefused, hsecured⟩ :=
        call.storeCredential_spec { store with file := .entries environments }
      exact Or.inr ⟨environments, rfl, haccepted, hchanges, hsorted, hfile', hothers, hrefused,
        by simpa using hsecured⟩

/-- No call makes the file unloadable. -/
theorem EditCall.loadable_run (hfile : Loadable path store.file) :
    Loadable path (call.run fromStr path store).2.file := by
  rcases call.run_cases fromStr hfile with
    ⟨-, hsame⟩ | ⟨environments, -, haccepted, -, -, hentries, -⟩
  · rw [hsame]
    exact hfile
  · rw [hentries, loadable_iff]
    exact Or.inr ⟨environments, rfl, haccepted⟩

/-- A call is precise exactly when it does not replace the file without securing it. -/
theorem EditCall.precise_iff (hfile : Loadable path store.file) :
    Precise path call store (call.run fromStr path store).1 (call.run fromStr path store).2 ↔
      ∀ file, call.prepare fromStr path store.file = .ok file →
        ∀ error, call.weather.configWrite ≠ .failedAfter error := by
  have hloads : (call.run fromStr path store).2.file = .missing ∨
      LoadsWell path (call.run fromStr path store).2.file :=
    loads_of_loadable (call.loadable_run hfile)
  constructor
  · intro h file hprepare error hwrite
    have hunsecured : (call.run fromStr path store).1 = .unsecured error := by
      rw [EditCall.run, hprepare]
      simp only [hwrite]
    exact h.secured error hunsecured
  · intro h
    rcases call.run_cases fromStr hfile with ⟨⟨error, hrefused⟩, hsame⟩ |
      ⟨environments, hprepare, -, hchanges, hsorted, hentries, hothers, hrefused, hunsecured⟩
    · refine ⟨hloads, fun hno ↦ absurd hrefused (hno error), fun _ _ ↦ by rw [hsame],
        fun _ _ ↦ hsame, fun _ heq ↦ ?_⟩
      rw [hrefused] at heq
      cases heq
    · refine ⟨hloads, fun _ ↦ ?_, hothers, fun error heq ↦ absurd heq (hrefused error),
        fun error heq ↦ ?_⟩
      · rw [hentries]
        exact ⟨hchanges, hsorted⟩
      · obtain ⟨error', hwrite⟩ := hunsecured.mp ⟨error, heq⟩
        exact h _ hprepare error' hwrite

/-- The file stays loadable in every run. -/
theorem loadable_runEdits (hfile : Loadable path store.file) (calls : List EditCall) :
    Loadable path (runEdits fromStr path store calls).file := by
  induction calls generalizing store with
  | nil => exact hfile
  | cons call calls ih => exact ih (call.loadable_run hfile)

/-- From a file that loads, or none, every call of a run is precise exactly when none of them
replaces the file and then fails to secure it. -/
theorem edits_precise_iff (calls : List EditCall) (hfile : Loadable path store.file) :
    EditsPrecise fromStr path store calls ↔ Secured fromStr path store calls := by
  constructor
  · intro h pre call post hcalls
    exact (call.precise_iff (loadable_runEdits hfile pre)).mp (h pre call post hcalls)
  · intro h pre call post hcalls
    exact (call.precise_iff (loadable_runEdits hfile pre)).mpr (h pre call post hcalls)

/-- What a call does in fair weather is what a save that cannot fail does. -/
theorem EditCall.run_save_fair (environment : EnvironmentConfig) (credentialJson : Option String)
    (allowCredentialWrite : Bool) :
    EditCall.run fromStr path ⟨.save environment credentialJson, allowCredentialWrite, .fair⟩
        store =
      match saveEnvironment fromStr path environment credentialJson allowCredentialWrite store with
      | .ok saved => (.done, saved)
      | .error error => (.refused error, store) := by
  unfold EditCall.run EditCall.prepare saveEnvironment Edit.validate
  dsimp only
  cases validateEnvironment environment with
  | error error => rfl
  | ok u =>
    cases credentialJson with
    | none => cases hload : loadOrEmpty path store.file <;> simp [hload, Weather.fair, bind,
        Except.bind, pure, Except.pure, Edit.change, EditCall.storeCredential, Edit.credential]
    | some blob =>
      cases allowCredentialWrite with
      | false => rfl
      | true =>
        cases hvalid : validateCredential fromStr environment.authMethod blob with
        | error error => simp [hvalid, bind, Except.bind]
        | ok u =>
          cases hload : loadOrEmpty path store.file <;> simp [hvalid, hload, Weather.fair, bind,
            Except.bind, pure, Except.pure, Edit.change, EditCall.storeCredential,
            Edit.credential, Edit.id]

/-- What a call does in fair weather is what a delete that cannot fail does. -/
theorem EditCall.run_delete_fair (id : String) (allowCredentialWrite : Bool) :
    EditCall.run fromStr path ⟨.delete id, allowCredentialWrite, .fair⟩ store =
      match deleteEnvironment path id allowCredentialWrite store with
      | .ok kept => (.done, kept)
      | .error error => (.refused error, store) := by
  unfold EditCall.run EditCall.prepare deleteEnvironment Edit.validate
  dsimp only
  cases allowCredentialWrite with
  | false => rfl
  | true =>
    cases hload : loadOrEmpty path store.file with
    | error error => simp [hload, Weather.fair, bind, Except.bind, pure, Except.pure]
    | ok environments =>
      by_cases hlength : (environments.filter fun e ↦ e.id ≠ id).length = environments.length
      · have hchange : Edit.change environments (.delete id) =
            .error s!"unknown environment {id}" := if_pos hlength
        simp only [Weather.fair, hchange, Bool.not_true, Bool.false_eq_true, if_false, hload, bind,
          Except.bind, pure, Except.pure]
        rw [if_pos hlength]
        rfl
      · have hchange : Edit.change environments (.delete id) =
            .ok (environments.filter fun e ↦ e.id ≠ id) := if_neg hlength
        simp only [Weather.fair, hchange, Bool.not_true, Bool.false_eq_true, if_false, hload, bind,
          Except.bind, pure, Except.pure]
        rw [if_neg hlength]
        rfl

end Calls

/-- An Environment that every check accepts. -/
def savedEnvironment : EnvironmentConfig where
  id := "prod"
  label := "Prod"
  instanceUrl := "https://prod.example.com"
  authMethod := .basic
  sortOrder := 0
  cloneSource := false
  platform := .servicenow
  thresholds := .default
  expectedDrift := []

/-- No file and no Credentials. -/
def emptyStore : EnvironmentsStore := ⟨.missing, fun _ ↦ none⟩

/-- A save whose write replaces the file and cannot set its mode. -/
def unsecuredSave : EditCall :=
  ⟨.save savedEnvironment none, true, { Weather.fair with configWrite := .failedAfter "securing" }⟩

theorem edits_precise_fair :
    EditsPrecise (fun _ ↦ none) "environments.json" emptyStore
      [⟨.save savedEnvironment none, true, .fair⟩, ⟨.delete "prod", true, .fair⟩] := by
  refine (edits_precise_iff _ (Or.inl rfl)).mpr ?_
  intro pre call post hcalls file _ error
  have hmem : call ∈ [⟨.save savedEnvironment none, true, .fair⟩,
      (⟨.delete "prod", true, .fair⟩ : EditCall)] := by
    rw [hcalls]
    simp
  simp only [List.mem_cons, List.not_mem_nil, or_false] at hmem
  rcases hmem with rfl | rfl <;> simp [Weather.fair]

/-- A call fails after its file is replaced, and not at the Credential step. -/
theorem edits_imprecise :
    ¬∀ (fromStr : FromStr) (path : String) (store : EnvironmentsStore) (calls : List EditCall),
      Loadable path store.file → EditsPrecise fromStr path store calls := by
  intro h
  have hprecise := h (fun _ ↦ none) "environments.json" emptyStore [unsecuredSave] (Or.inl rfl)
    [] unsecuredSave [] rfl
  have hend : (unsecuredSave.run (fun _ ↦ none) "environments.json" emptyStore).1 =
      .unsecured "securing" := by
    decide +kernel
  exact hprecise.secured "securing" hend

end Daku.Environments
