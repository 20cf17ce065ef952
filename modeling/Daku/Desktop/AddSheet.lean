import Daku.Desktop.EnvSheet
import Daku.Environments.Edits
import Daku.Http.Client

/-!
# Adding an Environment

The sheet for a new Environment, `src/env_sheet.rs:75–193, 741–785` and `src/app.rs:448–592`, and
what becomes of it in the daemon (`crates/daku-core/src/environments.rs:172–201`). The sheet checks
what the daemon will check, with checks of its own. `str::to_lowercase` is a parameter: nothing
depends on what it does. Debug quoting of an id is plain quoting, as for the file.
-/

namespace Daku.Desktop

open Daku.Base Daku.Protocol Daku.Environments Daku.Store
open Daku.Health (EnvironmentSummary)

/-- `trim_matches` with a character. -/
def trimMatches (c : Char) (text : List Char) : List Char :=
  (((text.dropWhile (· = c)).reverse).dropWhile (· = c)).reverse

/-- One turn of the loop of `derive_id_from_label` (`env_sheet.rs:756–766`): the id so far, and
whether a dash is due. -/
def deriveStep (state : List Char × Bool) (c : Char) : List Char × Bool :=
  let (out, dash) := state
  if c.isAlphanum then
    (if dash = true ∧ out ≠ [] then out ++ ['-', c] else out ++ [c], false)
  else if c = '-' ∨ c = '_' ∨ isUnicodeSpace c = true then (out, true)
  else (out, dash)

/-- `derive_id_from_label` (`env_sheet.rs:753–773`). -/
def deriveIdFromLabel (lowercase : String → String) (label : String) : String :=
  let (out, _) := (lowercase (trim label)).toList.foldl deriveStep ([], false)
  let trimmed := trimMatches '-' out
  if trimmed = [] then "env" else String.ofList trimmed

/-- `resolve_sheet_id` (`env_sheet.rs:778–785`). -/
def resolveSheetId (lowercase : String → String) (typedId label : String) : String :=
  let trimmed := trim typedId
  if trimmed = "" then deriveIdFromLabel lowercase label else trimmed

/-- `validate_id_unique` (`env_sheet.rs:743–748`). -/
def validateIdUnique (id : String) (existingIds : List String) : Except String Unit :=
  if id ∈ existingIds then .error s!"duplicate environment id \"{id}\"" else .ok ()

/-- A sheet for a new Environment (`EnvSheet`, `env_sheet.rs:16–62`), with the texts its fields
hold. -/
structure AddSheet where
  idField : String
  labelField : String
  urlField : String
  auth : AuthMethod
  platform : Platform
  cloneSource : Bool
  secretA : String
  secretB : String
  thresholds : ThresholdTexts
  expectedDriftField : String
  busy : Bool
  deriving DecidableEq, Repr

namespace DashboardState

variable (s : DashboardState) (lowercase : String → String) (fromStr : FromStr)
  (toText : Value → String)

/-- `read_sheet` (`app.rs:478–525`). -/
def readAddSheet (sheet : AddSheet) : EnvironmentConfig × Option String :=
  (buildConfig (resolveSheetId lowercase sheet.idField sheet.labelField) (trim sheet.labelField)
    (trim sheet.urlField) sheet.auth sheet.platform sheet.cloneSource s.environments.length none,
    credentialBlob toText sheet.auth sheet.secretA sheet.secretB)

/-- `validate_sheet` (`app.rs:537–592`), with the notice of a refusal. -/
def validateAddSheet (sheet : AddSheet) : Except String (EnvironmentConfig × Option String) :=
  let (config, blob) := s.readAddSheet lowercase toText sheet
  let fields := validateFields config.id config.label config.instanceUrl config.platform
  let unique := validateIdUnique config.id (s.environments.map EnvironmentSummary.id)
  let thresholds := parseThresholds sheet.thresholds
  let expectedDrift := parseExpectedDriftText sheet.expectedDriftField
  let tuned := match thresholds, expectedDrift with
    | .ok thresholds, .ok expectedDrift => applySheetTuning config thresholds expectedDrift
    | _, _ => config
  let credential := (blob.map (validateCredential fromStr tuned.authMethod)).getD (.ok ())
  let problems := problemOf fields ++ problemOf unique ++ problemOf thresholds ++
    problemOf expectedDrift ++ problemOf credential
  if problems = [] then .ok (tuned, blob) else .error (String.intercalate " · " problems)

/-- `save_sheet` (`app.rs:674–687`). -/
def saveAddSheet (sheet : AddSheet) : SaveOutcome :=
  if sheet.busy then .ignored
  else
    match s.validateAddSheet lowercase fromStr toText sheet with
    | .ok (environment, credentialJson) => .sent environment credentialJson
    | .error notice => .refused notice

end DashboardState

/-! ## Derived ids -/

section Derived

/-- What an id may be made of, but for underscores. -/
def IsIdChar (c : Char) : Prop := c.isAlphanum = true ∨ c = '-'

theorem isIdChar_deriveStep {state : List Char × Bool} {c : Char}
    (h : ∀ d ∈ state.1, IsIdChar d) : ∀ d ∈ (deriveStep state c).1, IsIdChar d := by
  obtain ⟨out, dash⟩ := state
  intro d hd
  simp only [deriveStep] at hd
  split at hd
  · next hc =>
    split at hd
    · rcases List.mem_append.mp hd with hd | hd
      · exact h d hd
      · simp only [List.mem_cons, List.not_mem_nil, or_false] at hd
        rcases hd with rfl | rfl
        · exact Or.inr rfl
        · exact Or.inl hc
    · rcases List.mem_append.mp hd with hd | hd
      · exact h d hd
      · rw [List.mem_singleton.mp hd]
        exact Or.inl hc
  · split at hd <;> exact h d hd

theorem isIdChar_derive (text : List Char) :
    ∀ state : List Char × Bool, (∀ d ∈ state.1, IsIdChar d) →
      ∀ d ∈ (text.foldl deriveStep state).1, IsIdChar d := by
  induction text with
  | nil => exact fun _ h ↦ h
  | cons c text ih => exact fun state h ↦ ih _ (isIdChar_deriveStep h)

theorem mem_of_mem_trimMatches {c d : Char} {text : List Char} (h : d ∈ trimMatches c text) :
    d ∈ text := by
  have h := List.mem_reverse.mp h
  have h := List.mem_reverse.mp ((List.dropWhile_sublist _).subset h)
  exact (List.dropWhile_sublist _).subset h

/-- A derived id is refused for nothing but its length. -/
theorem environmentIdError_derive (lowercase : String → String) (label : String) :
    environmentIdError (deriveIdFromLabel lowercase label) = none ↔
      (deriveIdFromLabel lowercase label).utf8ByteSize ≤ 64 := by
  have hchars : ∀ d ∈ (deriveIdFromLabel lowercase label).toList, IsIdChar d := by
    intro d hd
    simp only [deriveIdFromLabel] at hd
    split at hd
    · have henv : "env".toList = ['e', 'n', 'v'] := rfl
      rw [henv] at hd
      simp only [List.mem_cons, List.not_mem_nil, or_false] at hd
      rcases hd with rfl | rfl | rfl <;> exact Or.inl rfl
    · rw [String.toList_ofList] at hd
      exact isIdChar_derive _ ([], false) (fun e he ↦ by cases he) d (mem_of_mem_trimMatches hd)
  have hne : deriveIdFromLabel lowercase label ≠ "" := by
    simp only [deriveIdFromLabel]
    split
    · decide
    · next hnil =>
      intro hempty
      exact hnil (String.ofList_inj.mp (hempty.trans (by rfl : "" = String.ofList [])))
  have hall : (deriveIdFromLabel lowercase label).toList.all
      (fun c ↦ c.isAlphanum || c == '-' || c == '_') = true := by
    rw [List.all_eq_true]
    intro d hd
    rcases hchars d hd with halnum | rfl
    · simp [halnum]
    · rfl
  rw [environmentIdError, if_neg hne]
  by_cases hlength : 64 < (deriveIdFromLabel lowercase label).utf8ByteSize
  · rw [if_pos hlength]
    exact iff_of_false (Option.some_ne_none _) (Nat.not_le.mpr hlength)
  · rw [if_neg hlength, if_neg (by rw [hall]; exact not_not_intro rfl)]
    exact iff_of_true rfl (Nat.not_lt.mp hlength)

end Derived

/-! ## Checks of the sheet and of the daemon -/

section Checks

variable {s : DashboardState} {lowercase : String → String} {fromStr : FromStr}
  {toText : Value → String} {sheet : AddSheet} {e : EnvironmentConfig} {cj : Option String}

theorem problemOf_eq_nil_iff {α : Type} {r : Except String α} :
    problemOf r = [] ↔ ∃ a, r = .ok a := by
  cases r <;> simp [problemOf]

theorem exists_validateIdUnique_iff {id : String} {existingIds : List String} :
    (∃ u, validateIdUnique id existingIds = .ok u) ↔ id ∉ existingIds := by
  rw [validateIdUnique]
  split
  · next hid => exact iff_of_false (fun ⟨_, h⟩ ↦ by cases h) (not_not_intro hid)
  · next hid => exact iff_of_true ⟨(), rfl⟩ hid

/-- The sheet and the daemon refuse the same fields. -/
theorem validateFields_iff :
    validateFields e.id e.label e.instanceUrl e.platform = .ok () ↔
      validateEnvironment e = .ok () := by
  rw [validateFields, validateEnvironment]
  cases environmentIdError e.id with
  | some reason => exact iff_of_false (fun h ↦ by cases h) fun h ↦ by cases h
  | none =>
    by_cases hlabel : trim e.label = ""
    · simp only [hlabel, if_true]
      exact iff_of_false (fun h ↦ by cases h) fun h ↦ by cases h
    · simp only [hlabel, if_false]
      rw [validateInstanceUrl, validatePlatformUrl]
      cases instanceUrlError e.instanceUrl with
      | some reason => exact iff_of_false (fun h ↦ by cases h) fun h ↦ by cases h
      | none =>
        by_cases hrepo : e.platform = .github ∧ splitGithubRepo e.instanceUrl = none
        · simp only [hrepo, and_self, if_true]
          exact iff_of_false (fun h ↦ by cases h) fun h ↦ by cases h
        · rw [if_neg hrepo]
          exact iff_of_true rfl rfl

/-- What a daemon on the machine itself checks before it reads its file. -/
theorem validate_save_iff :
    (Edit.save e cj).validate fromStr true = .ok () ↔
      validateEnvironment e = .ok () ∧
        (cj.map (validateCredential fromStr e.authMethod)).getD (.ok ()) = .ok () := by
  show (validateEnvironment e >>= _) = _ ↔ _
  rw [bind_eq_ok]
  cases cj with
  | none => exact ⟨fun ⟨_, h, _⟩ ↦ ⟨h, rfl⟩, fun h ↦ ⟨(), h.1, rfl⟩⟩
  | some blob => exact ⟨fun ⟨_, h, hblob⟩ ↦ ⟨h, hblob⟩, fun h ↦ ⟨(), h.1, h.2⟩⟩

/-- The sheet passes on what the daemon will not refuse, under an id that is not shown yet. -/
theorem validateAddSheet_eq_ok_iff :
    s.validateAddSheet lowercase fromStr toText sheet = .ok (e, cj) ↔
      (∃ thresholds expectedDrift, parseThresholds sheet.thresholds = .ok thresholds ∧
        parseExpectedDriftText sheet.expectedDriftField = .ok expectedDrift ∧
        e = applySheetTuning (s.readAddSheet lowercase toText sheet).1 thresholds
          expectedDrift) ∧
      cj = (s.readAddSheet lowercase toText sheet).2 ∧
      e.id ∉ s.environments.map EnvironmentSummary.id ∧
      (Edit.save e cj).validate fromStr true = .ok () := by
  have hok : ∀ {p : Prop} [Decidable p] {a b : EnvironmentConfig × Option String} {error : String},
      (if p then Except.ok a else .error error) = .ok b ↔ p ∧ a = b := by
    intro p _ a b error
    split
    · next hp => exact ⟨fun h ↦ ⟨hp, Except.ok.inj h⟩, fun h ↦ congrArg Except.ok h.2⟩
    · next hp => exact iff_of_false (fun h ↦ by cases h) fun h ↦ hp h.1
  rw [DashboardState.validateAddSheet, validate_save_iff, ← validateFields_iff]
  generalize s.readAddSheet lowercase toText sheet = r
  obtain ⟨config, blob⟩ := r
  dsimp only
  rw [hok]
  simp only [List.append_eq_nil_iff, problemOf_eq_nil_iff, exists_validateIdUnique_iff]
  cases hthresholds : parseThresholds sheet.thresholds with
  | error error =>
    exact iff_of_false (fun h ↦ by obtain ⟨_, h⟩ := h.1.1.1.2; cases h)
      fun ⟨⟨_, _, h, _⟩, _⟩ ↦ by cases h
  | ok thresholds =>
    cases hdrift : parseExpectedDriftText sheet.expectedDriftField with
    | error error =>
      exact iff_of_false (fun h ↦ by obtain ⟨_, h⟩ := h.1.1.2; cases h)
        fun ⟨⟨_, _, _, h, _⟩, _⟩ ↦ by cases h
    | ok expectedDrift =>
      constructor
      · rintro ⟨⟨⟨⟨⟨hfields, hid⟩, -⟩, -⟩, hblob⟩, htuned⟩
        obtain ⟨rfl, rfl⟩ := Prod.mk.inj htuned
        exact ⟨⟨thresholds, expectedDrift, rfl, rfl, rfl⟩, rfl, hid, hfields.choose_spec,
          hblob.choose_spec⟩
      · rintro ⟨⟨_, _, ht, hd, rfl⟩, rfl, hid, hfields, hblob⟩
        obtain rfl := Except.ok.inj ht
        obtain rfl := Except.ok.inj hd
        exact ⟨⟨⟨⟨⟨⟨(), hfields⟩, hid⟩, ⟨_, rfl⟩⟩, ⟨_, rfl⟩⟩, ⟨(), hblob⟩⟩, rfl⟩

/-- A sheet is sent exactly if nothing is under way and its checks pass. -/
theorem saveAddSheet_eq_sent_iff (hidle : sheet.busy = false) :
    s.saveAddSheet lowercase fromStr toText sheet = .sent e cj ↔
      s.validateAddSheet lowercase fromStr toText sheet = .ok (e, cj) := by
  rw [DashboardState.saveAddSheet, if_neg (by rw [hidle]; exact Bool.false_ne_true)]
  cases s.validateAddSheet lowercase fromStr toText sheet with
  | error error => exact iff_of_false (fun h ↦ by cases h) fun h ↦ by cases h
  | ok sent =>
    obtain ⟨e', cj'⟩ := sent
    constructor
    · intro h
      obtain ⟨rfl, rfl⟩ := SaveOutcome.sent.inj h
      rfl
    · intro h
      obtain ⟨rfl, rfl⟩ := Prod.mk.inj (Except.ok.inj h)
      rfl

end Checks

/-! ## What the daemon makes of it -/

section Sorting

variable {α : Type} {r : α → α → Prop} [DecidableRel r] {a e : α} {l : List α}

theorem orderedInsert_concat (h : r a e) :
    (l ++ [e]).orderedInsert r a = l.orderedInsert r a ++ [e] := by
  induction l with
  | nil => rw [List.nil_append, List.orderedInsert_cons, if_pos h]; rfl
  | cons b l ih =>
    rw [List.cons_append, List.orderedInsert_cons, List.orderedInsert_cons]
    split
    · rfl
    · rw [ih, List.cons_append]

/-- What comes last and is not smaller than any other stays last. -/
theorem insertionSort_concat (h : ∀ a ∈ l, r a e) :
    (l ++ [e]).insertionSort r = l.insertionSort r ++ [e] := by
  induction l with
  | nil => rfl
  | cons a l ih =>
    rw [List.cons_append, List.insertionSort_cons, List.insertionSort_cons,
      ih fun b hb ↦ h b (List.mem_cons_of_mem _ hb), orderedInsert_concat (h a List.mem_cons_self)]

end Sorting

section Saving

variable {fromStr : FromStr} {path : String} {store : EnvironmentsStore} {e : EnvironmentConfig}
  {cj : Option String}

/-- What there is to load is read for an edit. -/
theorem loadOrEmpty_of_loadable (h : Loadable path store.file) :
    loadOrEmpty path store.file = .ok store.file.environments ∧
      Accepted store.file.environments := by
  rcases loadable_iff.mp h with hmissing | ⟨environments, hentries, haccepted⟩
  · rw [hmissing]
    exact ⟨rfl, fun d hd ↦ absurd hd List.not_mem_nil, List.nodup_nil⟩
  · rw [hentries]
    refine ⟨?_, haccepted⟩
    rw [loadOrEmpty, rejectDuplicateIds_eq_ok_iff.mpr haccepted.2]
    rfl

/-- The entries after a save. -/
def savedEntries (e : EnvironmentConfig) (store : EnvironmentsStore) : List EnvironmentConfig :=
  sortEnvironments (upsert EnvironmentConfig.id e store.file.environments)

/-- A save that passes the checks, with nothing failing on the way. -/
theorem run_save (hfile : Loadable path store.file)
    (hvalid : (Edit.save e cj).validate fromStr true = .ok ()) :
    EditCall.run fromStr path ⟨.save e cj, true, .fair⟩ store =
      (.done, ⟨.entries (savedEntries e store),
        (cj.map fun blob ↦ Function.update store.credentials e.id (some blob)).getD
          store.credentials⟩) := by
  have hprepare : EditCall.prepare fromStr path ⟨.save e cj, true, .fair⟩ store.file =
      .ok (.entries (savedEntries e store)) := by
    show ((Edit.save e cj).validate fromStr true >>= fun _ ↦ loadOrEmpty path store.file >>= _) = _
    rw [hvalid, (loadOrEmpty_of_loadable hfile).1]
    rfl
  rw [EditCall.run, hprepare]
  cases cj <;> rfl

/-- A save replaces the entry of its id and leaves the others. -/
theorem mem_savedEntries (hfile : Loadable path store.file)
    (hvalid : (Edit.save e cj).validate fromStr true = .ok ()) {d : EnvironmentConfig} :
    d ∈ savedEntries e store ↔ d = e ∨ d ∈ store.file.environments ∧ d.id ≠ e.id := by
  obtain ⟨-, hchanges⟩ := Edit.change_spec (loadOrEmpty_of_loadable hfile).2 hvalid rfl
  exact (List.mem_insertionSort _).trans (hchanges d)

/-- What is saved loads again, in the order it was written. -/
theorem loadEnvironments_savedEntries (hfile : Loadable path store.file)
    (hvalid : (Edit.save e cj).validate fromStr true = .ok ()) :
    loadEnvironments path (.entries (savedEntries e store)) = .ok (savedEntries e store) := by
  obtain ⟨haccepted, -⟩ := Edit.change_spec (loadOrEmpty_of_loadable hfile).2 hvalid rfl
  refine loadEnvironments_entries_iff.mpr ⟨⟨fun d hd ↦ ?_, ?_⟩, ?_⟩
  · exact haccepted.1 d ((List.mem_insertionSort _).mp hd)
  · rw [savedEntries, sortEnvironments, ((List.perm_insertionSort _ _).map _).nodup_iff]
    exact haccepted.2
  · exact ((List.pairwise_insertionSort _ _).insertionSort_eq).symm

/-- The entries of an id that is not there yet. -/
theorem savedEntries_of_new (hnew : e.id ∉ store.file.environments.map EnvironmentConfig.id) :
    savedEntries e store = sortEnvironments (store.file.environments ++ [e]) := by
  have hany : ¬ store.file.environments.any (fun d ↦ d.id = e.id) = true := by
    intro hany
    obtain ⟨d, hd, hid⟩ := List.any_eq_true.mp hany
    exact hnew (List.mem_map.mpr ⟨d, hd, of_decide_eq_true hid⟩)
  rw [savedEntries, upsert, if_neg hany]

/-- A new entry is the last one exactly if no other has a larger sort order. -/
theorem getLast?_sortEnvironments {environments : List EnvironmentConfig} :
    (sortEnvironments (environments ++ [e])).getLast? = some e ↔
      ∀ d ∈ environments, d.sortOrder ≤ e.sortOrder := by
  constructor
  · intro hlast d hd
    have hsorted : (sortEnvironments (environments ++ [e])).Pairwise
        fun a b ↦ a.sortOrder ≤ b.sortOrder := List.pairwise_insertionSort _ _
    have hmem : d ∈ sortEnvironments (environments ++ [e]) :=
      (List.mem_insertionSort _).mpr (List.mem_append_left _ hd)
    obtain ⟨before, hbefore⟩ := List.getLast?_eq_some_iff.mp hlast
    rw [hbefore] at hsorted hmem
    rcases List.mem_append.mp hmem with hmem | hmem
    · exact (List.pairwise_append.mp hsorted).2.2 d hmem e (List.mem_singleton.mpr rfl)
    · rw [List.mem_singleton.mp hmem]
  · intro h
    rw [sortEnvironments, insertionSort_concat h, List.getLast?_concat]

end Saving

/-- **From the sheet to the file.** A sheet for a new Environment is sent exactly if its texts parse,
its id is not shown yet, and a daemon on the machine itself will not refuse it; an id derived from
the label is refused for its length only. What is sent is saved and loads again: the entry of the
id is the one that was sent, the others stay as they are, and so do their Credentials. If the
window shows the Environments that are in the file, no entry is replaced, and the new one comes
last exactly if no sort order is larger than the number of Environments. -/
theorem sheet_adds (lowercase : String → String) (fromStr : FromStr) (toText : Value → String)
    (path : String) (s : DashboardState) (store : EnvironmentsStore)
    (hfile : Loadable path store.file) (sheet : AddSheet) (hidle : sheet.busy = false) :
    (∀ e cj, s.saveAddSheet lowercase fromStr toText sheet = .sent e cj ↔
      (∃ thresholds expectedDrift, parseThresholds sheet.thresholds = .ok thresholds ∧
        parseExpectedDriftText sheet.expectedDriftField = .ok expectedDrift ∧
        e = applySheetTuning (s.readAddSheet lowercase toText sheet).1 thresholds
          expectedDrift) ∧
      cj = (s.readAddSheet lowercase toText sheet).2 ∧
      e.id ∉ s.environments.map EnvironmentSummary.id ∧
      (Edit.save e cj).validate fromStr true = .ok ()) ∧
    (trim sheet.idField = "" →
      (environmentIdError (s.readAddSheet lowercase toText sheet).1.id = none ↔
        (s.readAddSheet lowercase toText sheet).1.id.utf8ByteSize ≤ 64)) ∧
    ∀ e cj, s.saveAddSheet lowercase fromStr toText sheet = .sent e cj →
      ∃ loaded, EditCall.run fromStr path ⟨.save e cj, true, .fair⟩ store =
          (.done, ⟨.entries loaded,
            (cj.map fun blob ↦ Function.update store.credentials e.id (some blob)).getD
              store.credentials⟩) ∧
        loadEnvironments path (.entries loaded) = .ok loaded ∧
        (∀ d, d ∈ loaded ↔ d = e ∨ d ∈ store.file.environments ∧ d.id ≠ e.id) ∧
        ((s.environments.map EnvironmentSummary.id).Perm
            (store.file.environments.map EnvironmentConfig.id) →
          loaded.Perm (e :: store.file.environments) ∧
          (loaded.getLast? = some e ↔
            ∀ d ∈ store.file.environments, d.sortOrder ≤ store.file.environments.length)) := by
  refine ⟨fun e cj ↦ (saveAddSheet_eq_sent_iff hidle).trans validateAddSheet_eq_ok_iff,
    fun htyped ↦ ?_, fun e cj h ↦ ?_⟩
  · have hid : (s.readAddSheet lowercase toText sheet).1.id =
        deriveIdFromLabel lowercase sheet.labelField := if_pos htyped
    rw [hid]
    exact environmentIdError_derive lowercase sheet.labelField
  · obtain ⟨⟨thresholds, expectedDrift, -, -, he⟩, -, hshown, hvalid⟩ :=
      validateAddSheet_eq_ok_iff.mp ((saveAddSheet_eq_sent_iff hidle).mp h)
    refine ⟨savedEntries e store, run_save hfile hvalid, loadEnvironments_savedEntries hfile hvalid,
      fun d ↦ mem_savedEntries hfile hvalid, fun hpublished ↦ ?_⟩
    have hnew : e.id ∉ store.file.environments.map EnvironmentConfig.id := fun hid ↦
      hshown (hpublished.mem_iff.mpr hid)
    have horder : e.sortOrder = store.file.environments.length := by
      have hlength := hpublished.length_eq
      rw [List.length_map, List.length_map] at hlength
      rw [he, ← hlength]
      rfl
    rw [savedEntries_of_new hnew, ← horder]
    exact ⟨(List.perm_insertionSort _ _).trans List.perm_append_comm, getLast?_sortEnvironments⟩

/-- A window that shows one Environment, and the file with its entry. -/
def shownProd : DashboardState := { DashboardState.new with environments := [waitingSummary "prod"] }

def prodStore : EnvironmentsStore := ⟨.entries [Http.sampleEnvironment .basic], fun _ ↦ none⟩

/-- A sheet with a label, a URL and nothing else. -/
def labelledSheet : AddSheet where
  idField := ""
  labelField := " Dev _2 "
  urlField := "https://dev.example.com"
  auth := .basic
  platform := .servicenow
  cloneSource := false
  secretA := ""
  secretB := ""
  thresholds := ⟨"", "", "", "", "", "", "", "", "", "", "", "", "", "", "", "", ""⟩
  expectedDriftField := "b, a"
  busy := false

/-- What it sends. -/
def labelledEnvironment : EnvironmentConfig :=
  ⟨"dev-2", "Dev _2", "https://dev.example.com", .basic, 1, false, .servicenow, .default,
    ["a", "b"]⟩

/-- The new Environment is saved after the one that is there. -/
theorem sheet_adds_labelled :
    ∃ loaded, EditCall.run (fun _ ↦ none) "environments.json"
        ⟨.save labelledEnvironment none, true, .fair⟩ prodStore =
          (.done, ⟨.entries loaded, prodStore.credentials⟩) ∧
      loaded.getLast? = some labelledEnvironment := by
  have hfile : Loadable "environments.json" prodStore.file :=
    Or.inr ⟨[Http.sampleEnvironment .basic], by decide +kernel⟩
  obtain ⟨loaded, hrun, -, -, hlast⟩ := (sheet_adds toAsciiLowercase (fun _ ↦ none) (fun _ ↦ "")
    "environments.json" shownProd prodStore hfile labelledSheet rfl).2.2 labelledEnvironment none
    (by decide +kernel)
  exact ⟨loaded, hrun, (hlast (.refl _)).2.mpr (by decide +kernel)⟩

end Daku.Desktop
