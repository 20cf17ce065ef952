import Daku.Base.Decimal
import Daku.Desktop.EnvSheet
import Daku.Environments.Edits
import Mathlib.Data.List.Dedup

/-!
# Sheets saved without an edit

What saving does with a sheet that was opened for a loaded Environment and not touched,
`src/env_sheet.rs:392–456, 505–635` and `src/app.rs:453–592`. Each threshold is formatted and
parsed, and the expected drift is joined and split again.
-/

namespace Daku.Desktop

open Daku.Base Daku.Protocol
open Daku.Health (EnvironmentSummary DecideOut environmentSummary)
open Daku.Environments (EnvironmentsFile loadEnvironments loadEnvironments_entries_iff
  validateLoaded validateInstanceUrl validatePlatformUrl bind_eq_ok)

/-! ## Thresholds -/

/-- The counts that vote by default. -/
def onByDefault (t : Thresholds) : List Nat :=
  [t.jobsOverdueDegradedAt, t.syslogErrorDegradedAt, t.outboundFailuresDegradedAt,
    t.flowErrorDegradedAt, t.upgradeFailedDegradedAt, t.scanP1DegradedAt, t.actionsFailedDegradedAt,
    t.midUnhealthyDegradedAt, t.eccErrorDegradedAt, t.eccOutputReadyDegradedAt,
    t.driftMismatchesDegradedAt]

/-- The counts that do not. -/
def offByDefault (t : Thresholds) : List Nat :=
  [t.jobsErrorDegradedAt, t.emailFailureDegradedAt, t.updateSetsOpenDegradedAt]

/-- The ceilings. -/
def ceilings (t : Thresholds) : List (Option Nat) :=
  [t.availabilityRttDegradedMs, t.transactionAvgDegradedMs, t.httpProbeRttDegradedMs]

/-- Every threshold is a `u64`. -/
structure InRange (t : Thresholds) : Prop where
  counts : ∀ n ∈ onByDefault t ++ offByDefault t, n ≤ u64Max
  ceilings : ∀ ceiling ∈ ceilings t, ∀ ms, ceiling = some ms → ms ≤ u64Max

/-- The sheet can show these thresholds: no count that votes by default is off, the ceiling of
the availability is given, and the other ceilings are not the largest number. -/
structure Shown (t : Thresholds) : Prop where
  counts : ∀ n ∈ onByDefault t, n ≠ u64Max
  availability : t.availabilityRttDegradedMs ≠ none
  transaction : t.transactionAvgDegradedMs ≠ some u64Max
  probe : t.httpProbeRttDegradedMs ≠ some u64Max

/-- The texts of thresholds. -/
def formatThresholds (t : Thresholds) : ThresholdTexts where
  jobsOverdue := formatU64Threshold t.jobsOverdueDegradedAt
  jobsError := formatU64Threshold t.jobsErrorDegradedAt
  syslog := formatU64Threshold t.syslogErrorDegradedAt
  outbound := formatU64Threshold t.outboundFailuresDegradedAt
  flow := formatU64Threshold t.flowErrorDegradedAt
  email := formatU64Threshold t.emailFailureDegradedAt
  upgrade := formatU64Threshold t.upgradeFailedDegradedAt
  txn := formatRttThreshold t.transactionAvgDegradedMs
  updates := formatU64Threshold t.updateSetsOpenDegradedAt
  scan := formatU64Threshold t.scanP1DegradedAt
  actions := formatU64Threshold t.actionsFailedDegradedAt
  probeRtt := formatRttThreshold t.httpProbeRttDegradedMs
  mid := formatU64Threshold t.midUnhealthyDegradedAt
  eccError := formatU64Threshold t.eccErrorDegradedAt
  eccQueue := formatU64Threshold t.eccOutputReadyDegradedAt
  drift := formatU64Threshold t.driftMismatchesDegradedAt
  rtt := formatRttThreshold t.availabilityRttDegradedMs

/-- A count that was formatted and parsed: off becomes the default. -/
def rereadCount (default n : Nat) : Nat := if n = u64Max then default else n

/-- A ceiling that was formatted and parsed. -/
def rereadCeiling (default off : Option Nat) : Option Nat → Option Nat
  | none => default
  | some ms => if ms = u64Max then off else some ms

/-- Thresholds that were formatted and parsed. -/
def reread (t : Thresholds) : Thresholds :=
  let d := Thresholds.default
  { jobsOverdueDegradedAt := rereadCount d.jobsOverdueDegradedAt t.jobsOverdueDegradedAt
    jobsErrorDegradedAt := rereadCount d.jobsErrorDegradedAt t.jobsErrorDegradedAt
    syslogErrorDegradedAt := rereadCount d.syslogErrorDegradedAt t.syslogErrorDegradedAt
    outboundFailuresDegradedAt :=
      rereadCount d.outboundFailuresDegradedAt t.outboundFailuresDegradedAt
    flowErrorDegradedAt := rereadCount d.flowErrorDegradedAt t.flowErrorDegradedAt
    emailFailureDegradedAt := rereadCount d.emailFailureDegradedAt t.emailFailureDegradedAt
    upgradeFailedDegradedAt := rereadCount d.upgradeFailedDegradedAt t.upgradeFailedDegradedAt
    transactionAvgDegradedMs := rereadCeiling none none t.transactionAvgDegradedMs
    updateSetsOpenDegradedAt := rereadCount d.updateSetsOpenDegradedAt t.updateSetsOpenDegradedAt
    scanP1DegradedAt := rereadCount d.scanP1DegradedAt t.scanP1DegradedAt
    httpProbeRttDegradedMs := rereadCeiling none none t.httpProbeRttDegradedMs
    actionsFailedDegradedAt := rereadCount d.actionsFailedDegradedAt t.actionsFailedDegradedAt
    midUnhealthyDegradedAt := rereadCount d.midUnhealthyDegradedAt t.midUnhealthyDegradedAt
    eccErrorDegradedAt := rereadCount d.eccErrorDegradedAt t.eccErrorDegradedAt
    eccOutputReadyDegradedAt := rereadCount d.eccOutputReadyDegradedAt t.eccOutputReadyDegradedAt
    driftMismatchesDegradedAt :=
      rereadCount d.driftMismatchesDegradedAt t.driftMismatchesDegradedAt
    availabilityRttDegradedMs :=
      rereadCeiling d.availabilityRttDegradedMs (some u64Max) t.availabilityRttDegradedMs }

section Fields

variable {n : Nat} {caption : String}

private theorem isDigit_of_mem_toString {c : Char} (h : c ∈ (toString n).toList) : c.isDigit := by
  have htext : (toString n).toList = Nat.toDigits 10 n := Nat.toList_repr
  rw [htext] at h
  exact isDigit_of_mem_toDigits h

/-- A digit is no white space and no capital letter. -/
private theorem plain_of_isDigit {c : Char} (h : c.isDigit) :
    isUnicodeSpace c = false ∧ c.toLower = c := by
  have hrange := Char.isDigit_iff_toNat.mp h
  have hlow : 48 ≤ c.toNat := hrange.1
  have hhigh : c.toNat ≤ 57 := hrange.2
  constructor
  · simp only [isUnicodeSpace, Bool.or_eq_false_iff, Bool.and_eq_false_iff, decide_eq_false_iff_not,
      beq_eq_false_iff_ne]
    omega
  · apply dif_neg
    rintro ⟨hcapital, -⟩
    have hletter : 65 ≤ c.toNat := hcapital
    omega

/-- A number is neither trimmed nor empty nor the word for off. -/
private theorem plain_toString (n : Nat) : trim (toString n) = toString n ∧ toString n ≠ "" ∧
    eqIgnoreAsciiCase (toString n) "off" = false := by
  refine ⟨trim_of_noSpace fun c hc ↦ (plain_of_isDigit (isDigit_of_mem_toString hc)).1, ?_, ?_⟩
  · intro hempty
    have htext : (toString n).toList = Nat.toDigits 10 n := Nat.toList_repr
    rw [hempty] at htext
    exact Nat.toDigits_ne_nil htext.symm
  · rw [eqIgnoreAsciiCase, decide_eq_false_iff_not]
    intro hword
    have hmem : 'o' ∈ (toString n).toList.map Char.toLower := by
      rw [hword]
      decide
    obtain ⟨c, hc, hlower⟩ := List.mem_map.mp hmem
    have hdigit := isDigit_of_mem_toString hc
    rw [(plain_of_isDigit hdigit).2] at hlower
    rw [hlower] at hdigit
    exact absurd hdigit (by decide)

theorem parseCountField_format (hn : n ≤ u64Max) (default : Nat) (offValue : Option Nat) :
    parseCountField caption (formatU64Threshold n) default offValue =
      .ok (rereadCount default n) := by
  rw [formatU64Threshold, rereadCount]
  by_cases hoff : n = u64Max
  · rw [if_pos hoff, if_pos hoff]
    rfl
  · obtain ⟨htrim, hne, hword⟩ := plain_toString n
    have hrange : n < 2 ^ 64 := by
      rw [u64Max] at hn
      omega
    rw [if_neg hoff, if_neg hoff]
    unfold parseCountField
    dsimp only
    rw [htrim, if_neg hne, hword, if_neg Bool.false_ne_true, parseU64_toString hrange]

theorem parseRttField_format {ceiling : Option Nat} (hn : ∀ ms, ceiling = some ms → ms ≤ u64Max)
    (default offValue : Option Nat) :
    parseRttField caption (formatRttThreshold ceiling) default offValue =
      .ok (rereadCeiling default offValue ceiling) := by
  cases ceiling with
  | none => rfl
  | some ms =>
    rw [formatRttThreshold, rereadCeiling]
    by_cases hoff : ms = u64Max
    · rw [if_pos hoff, if_pos hoff]
      cases offValue <;> rfl
    · obtain ⟨htrim, hne, hword⟩ := plain_toString ms
      have hrange : ms < 2 ^ 64 := by
        have hms := hn ms rfl
        rw [u64Max] at hms
        omega
      rw [if_neg hoff, if_neg hoff]
      unfold parseRttField
      dsimp only
      rw [htrim, if_neg hne, hword, if_neg Bool.false_ne_true, parseU64_toString hrange]

end Fields

section Tuning

variable {t : Thresholds}

/-- Formatted thresholds are accepted. -/
theorem parseThresholds_format (h : InRange t) :
    parseThresholds (formatThresholds t) = .ok (reread t) := by
  have hcount : ∀ n ∈ onByDefault t ++ offByDefault t, ∀ caption default offValue,
      parseCountField caption (formatU64Threshold n) default offValue =
        .ok (rereadCount default n) :=
    fun n hn _ ↦ parseCountField_format (h.counts n hn)
  have hceiling : ∀ ceiling ∈ ceilings t, ∀ caption default offValue,
      parseRttField caption (formatRttThreshold ceiling) default offValue =
        .ok (rereadCeiling default offValue ceiling) :=
    fun ceiling hn _ ↦ parseRttField_format (h.ceilings ceiling hn)
  simp only [onByDefault, offByDefault, ceilings, List.cons_append, List.nil_append,
    List.forall_mem_cons, List.not_mem_nil, IsEmpty.forall_iff, implies_true, and_true]
    at hcount hceiling
  simp only [parseThresholds, formatThresholds, hcount, hceiling]
  rfl

private theorem rereadCount_eq_iff {n default : Nat} (h : default ≠ u64Max) :
    rereadCount default n = n ↔ n ≠ u64Max := by
  rw [rereadCount]
  split
  · next hoff =>
    rw [hoff]
    exact iff_of_false h (not_not_intro rfl)
  · next hon => exact iff_of_true rfl hon

private theorem rereadCount_off (n : Nat) : rereadCount u64Max n = n := by
  rw [rereadCount]
  split
  · next hoff => exact hoff.symm
  · rfl

private theorem rereadCeiling_none_eq_iff {ceiling : Option Nat} :
    rereadCeiling none none ceiling = ceiling ↔ ceiling ≠ some u64Max := by
  cases ceiling with
  | none => exact iff_of_true rfl (Option.some_ne_none u64Max).symm
  | some ms =>
    rw [rereadCeiling, Ne, Option.some.injEq]
    split
    · next hoff => exact iff_of_false (Option.some_ne_none ms).symm (not_not_intro hoff)
    · next hon => exact iff_of_true rfl hon

private theorem rereadCeiling_default_eq_iff {ceiling : Option Nat} {ms : Nat} :
    rereadCeiling (some ms) (some u64Max) ceiling = ceiling ↔ ceiling ≠ none := by
  cases ceiling with
  | none => exact iff_of_false (Option.some_ne_none ms) (not_not_intro rfl)
  | some ms' =>
    rw [rereadCeiling]
    refine iff_of_true ?_ (Option.some_ne_none ms')
    split
    · next hoff => rw [hoff]
    · rfl

/-- They are the same again exactly if the sheet can show them. -/
theorem reread_eq_iff : reread t = t ↔ Shown t := by
  have hshown : Shown t ↔ (∀ n ∈ onByDefault t, n ≠ u64Max) ∧
      t.availabilityRttDegradedMs ≠ none ∧ t.transactionAvgDegradedMs ≠ some u64Max ∧
        t.httpProbeRttDegradedMs ≠ some u64Max :=
    ⟨fun h ↦ ⟨h.counts, h.availability, h.transaction, h.probe⟩,
      fun ⟨hcounts, havailability, htransaction, hprobe⟩ ↦
        ⟨hcounts, havailability, htransaction, hprobe⟩⟩
  rw [hshown]
  cases t
  have hoff : Thresholds.default.jobsErrorDegradedAt = u64Max ∧
      Thresholds.default.emailFailureDegradedAt = u64Max ∧
        Thresholds.default.updateSetsOpenDegradedAt = u64Max := ⟨rfl, rfl, rfl⟩
  have hrtt : Thresholds.default.availabilityRttDegradedMs = some availabilityRttDefaultMs := rfl
  simp (disch := decide) only [reread, Thresholds.mk.injEq, hoff, hrtt, rereadCount_off,
    rereadCeiling_none_eq_iff, rereadCeiling_default_eq_iff, rereadCount_eq_iff, onByDefault,
    List.forall_mem_cons, List.not_mem_nil, IsEmpty.forall_iff, implies_true]
  tauto

end Tuning

/-! ## Expected drift -/

/-- An id has a token with white space in it. -/
def HasSpacedToken (ids : List String) : Prop :=
  ∃ id ∈ ids, ∃ token ∈ tokens isDriftSep id.toList, ∃ c ∈ token.toList, isUnicodeSpace c = true

section Drift

variable {ids drift : List String}

/-- The joined ids have the tokens of each. -/
private theorem tokens_format (ids : List String) :
    tokens isDriftSep (formatExpectedDriftText ids).toList =
      ids.flatMap fun id ↦ tokens isDriftSep id.toList :=
  @tokens_intercalate isDriftSep ',' ' ' (by decide) (by decide) (by decide) ids

/-- White space in a token is refused. -/
theorem exists_error_of_hasSpacedToken (h : HasSpacedToken ids) :
    ∃ error, parseExpectedDriftText (formatExpectedDriftText ids) = .error error := by
  obtain ⟨id, hid, token, htoken, c, hc, hspace⟩ := h
  rw [parseExpectedDriftText, tokens_format]
  split
  · exact ⟨_, rfl⟩
  · next hnone =>
    have hmem : token ∈ ids.flatMap fun id ↦ tokens isDriftSep id.toList :=
      List.mem_flatMap.mpr ⟨id, hid, htoken⟩
    have hplain := List.find?_eq_none.mp hnone token hmem
    exact absurd (List.any_eq_true.mpr ⟨c, hc, hspace⟩) hplain

/-- Otherwise the tokens are kept. -/
theorem exists_parse_format (h : ¬ HasSpacedToken ids) :
    ∃ drift, parseExpectedDriftText (formatExpectedDriftText ids) = .ok drift ∧
      ∀ token, token ∈ drift ↔ token ∈ ids.flatMap fun id ↦ tokens isDriftSep id.toList := by
  rw [parseExpectedDriftText, tokens_format]
  split
  · next token hfound =>
    obtain ⟨id, hid, htoken⟩ := List.mem_flatMap.mp (List.mem_of_find?_eq_some hfound)
    have hspaced := @List.find?_some _ _ _ _ hfound
    obtain ⟨c, hc, hspace⟩ := List.any_eq_true.mp hspaced
    exact absurd ⟨id, hid, token, htoken, c, hc, hspace⟩ h
  · refine ⟨_, rfl, fun token ↦ ?_⟩
    rw [List.mem_dedup, List.mem_insertionSort]

end Drift

/-! ## Saving -/

/-- Saving changes nothing: it is refused, or the configuration is sent as it is, with its drift
ids in any order and any number of times, and without a Credential. -/
def Unchanged (c : EnvironmentConfig) : SaveOutcome → Prop
  | .ignored => True
  | .refused _ => True
  | .sent environment credentialJson =>
    { environment with expectedDrift := c.expectedDrift } = c ∧
      (∀ id, id ∈ environment.expectedDrift ↔ id ∈ c.expectedDrift) ∧ credentialJson = none

/-- The window has what the daemon publishes of this Environment. -/
def Publishes (s : DashboardState) (c : EnvironmentConfig) : Prop :=
  ∃ (decided : DecideOut) (snapshots : List Store.SignalSnapshot) (pollIntervalSecs : Nat),
    s.environments.find? (fun env ↦ env.id = c.id) =
      some (environmentSummary decided snapshots pollIntervalSecs c)

section Saving

variable {c : EnvironmentConfig} {s : DashboardState} {value : String → String}

theorem parsePlatform_id (platform : Platform) : parsePlatform platform.id = some platform := by
  cases platform <;> rfl

/-- What is published is the configuration. -/
theorem configOf_environmentSummary (decided : DecideOut) (snapshots : List Store.SignalSnapshot)
    (pollIntervalSecs : Nat) :
    configOf (environmentSummary decided snapshots pollIntervalSecs c) = c := by
  rw [configOf, environmentSummary, parsePlatform_id]
  rfl

/-- A loaded Environment passes the checks of the sheet. -/
private theorem validateFields_of_loaded (hvalid : validateLoaded c = .ok ())
    (hlabel : trim c.label ≠ "") :
    validateFields c.id c.label c.instanceUrl c.platform = .ok () := by
  rw [validateLoaded] at hvalid
  cases hid : environmentIdError c.id with
  | some reason =>
    rw [hid] at hvalid
    cases hvalid
  | none =>
    rw [hid] at hvalid
    obtain ⟨⟨⟩, hinstance, hplatform⟩ := bind_eq_ok.mp hvalid
    rw [validateInstanceUrl] at hinstance
    rw [validatePlatformUrl] at hplatform
    rw [validateFields, hid]
    dsimp only
    rw [if_neg hlabel]
    cases hurl : instanceUrlError c.instanceUrl with
    | some reason =>
      rw [hurl] at hinstance
      cases hinstance
    | none =>
      dsimp only
      split at hplatform
      · cases hplatform
      · next hrepo => rw [if_neg hrepo]

/-- Fields of an untouched sheet hold what it was opened with. -/
private theorem edit_eq (hvalue : ∀ text, value text = text) :
    EnvSheet.edit value c =
      { editingId := c.id, labelField := c.label, urlField := c.instanceUrl, auth := c.authMethod
        platform := c.platform, cloneSource := c.cloneSource, secretA := "", secretB := ""
        thresholds := formatThresholds c.thresholds
        expectedDriftField := formatExpectedDriftText c.expectedDrift, busy := false } := by
  rw [show value = id from funext hvalue]
  rfl

variable {fromStr : FromStr} {toText : Value → String}

/-- What is validated of an untouched sheet: only the expected drift can be refused. -/
theorem validateSheet_edit (hvalue : ∀ text, value text = text) (hvalid : validateLoaded c = .ok ())
    (hlabel : c.label ≠ "" ∧ trim c.label = c.label) (hurl : trim c.instanceUrl = c.instanceUrl)
    (hrange : InRange c.thresholds) (hs : Publishes s c) {parsed : Except String (List String)}
    (hparsed : parseExpectedDriftText (formatExpectedDriftText c.expectedDrift) = parsed) :
    s.validateSheet fromStr toText (EnvSheet.edit value c) =
      parsed.map fun drift ↦
        ({ c with thresholds := reread c.thresholds, expectedDrift := drift }, none) := by
  obtain ⟨decided, snapshots, pollIntervalSecs, hfind⟩ := hs
  have hfields : validateFields c.id c.label c.instanceUrl c.platform = .ok () := by
    apply validateFields_of_loaded hvalid
    rw [hlabel.2]
    exact hlabel.1
  have hblob : credentialBlob toText c.authMethod "" "" = none := rfl
  rw [edit_eq hvalue, DashboardState.validateSheet, DashboardState.readSheet, hfind, hlabel.2, hurl,
    hblob, hparsed, parseThresholds_format hrange]
  simp only [buildConfig, hfields]
  cases parsed with
  | error error =>
    show Except.error (String.intercalate " · " [error]) = _
    rw [String.intercalate_singleton]
    rfl
  | ok drift => rfl

/-- A sheet that was opened for a loaded Environment and not touched, saved: nothing changes
exactly if the expected drift is refused for white space in a token, or the sheet can show the
thresholds and every id of the expected drift is a token. -/
theorem unedited_sheet_iff (hvalue : ∀ text, value text = text) {path : String}
    {file : EnvironmentsFile} {environments : List EnvironmentConfig}
    (hload : loadEnvironments path file = .ok environments) (hc : c ∈ environments)
    (hlabel : c.label ≠ "" ∧ trim c.label = c.label)
    (hurl : c.instanceUrl ≠ "" ∧ trim c.instanceUrl = c.instanceUrl)
    (hrange : InRange c.thresholds) {opened saved : DashboardState}
    (hselected : opened.selectedId = some c.id) (hopened : Publishes opened c)
    (hsaved : Publishes saved c) :
    ∃ sheet, opened.openEditSheet value = some sheet ∧
      (Unchanged c (saved.saveSheet fromStr toText sheet) ↔
        HasSpacedToken c.expectedDrift ∨
          Shown c.thresholds ∧ ∀ id ∈ c.expectedDrift, IsToken isDriftSep id) := by
  have hvalid : validateLoaded c = .ok () := by
    cases file with
    | entries entries =>
      obtain ⟨haccepted, rfl⟩ := loadEnvironments_entries_iff.mp hload
      exact haccepted.1 c ((List.perm_insertionSort _ _).mem_iff.mp hc)
    | _ => cases hload
  refine ⟨EnvSheet.edit value c, ?_, ?_⟩
  · obtain ⟨decided, snapshots, pollIntervalSecs, hfind⟩ := hopened
    rw [DashboardState.openEditSheet, DashboardState.selected, hselected, Option.bind_some, hfind,
      Option.map_some, configOf_environmentSummary]
  · have hidle : ¬ (EnvSheet.edit value c).busy = true := Bool.false_ne_true
    rw [DashboardState.saveSheet, if_neg hidle]
    by_cases hspaced : HasSpacedToken c.expectedDrift
    · obtain ⟨error, herror⟩ := exists_error_of_hasSpacedToken hspaced
      rw [validateSheet_edit hvalue hvalid hlabel hurl.2 hrange hsaved herror]
      exact iff_of_true trivial (Or.inl hspaced)
    · obtain ⟨drift, hdrift, htokens⟩ := exists_parse_format hspaced
      rw [validateSheet_edit hvalue hvalid hlabel hurl.2 hrange hsaved hdrift,
        or_iff_right hspaced, ← reread_eq_iff, ← mem_flatMap_tokens_iff]
      simp only [← htokens]
      constructor
      · rintro ⟨hsame, hids, -⟩
        exact ⟨congrArg EnvironmentConfig.thresholds hsame, hids⟩
      · rintro ⟨hsame, hids⟩
        refine ⟨?_, hids, rfl⟩
        rw [hsame]

end Saving

/-- An Environment with these thresholds and this expected drift. -/
def tunedWith (thresholds : Thresholds) (expectedDrift : List String) : EnvironmentConfig :=
  ⟨"dev", "Dev", "https://dev.example.com", .basic, 3, false, .servicenow, thresholds,
    expectedDrift⟩

/-- With a higher count of errors, and with none that votes. -/
def tuned : EnvironmentConfig :=
  tunedWith { Thresholds.default with syslogErrorDegradedAt := 10 } ["b", "a"]

def switchedOff : EnvironmentConfig :=
  tunedWith { Thresholds.default with syslogErrorDegradedAt := u64Max } ["a"]

/-- The window after the publication of an Environment. -/
def windowWith (c : EnvironmentConfig) : DashboardState :=
  { DashboardState.new with
    environments := [environmentSummary ⟨.reachable, .waiting, none, []⟩ [] 60 c]
    selectedId := some c.id }

/-- What saving sends if its sheet was not touched. -/
def savedUnedited (c : EnvironmentConfig) : Option SaveOutcome :=
  ((windowWith c).openEditSheet id).map
    ((windowWith c).saveSheet (fun _ ↦ none) fun _ ↦ "")

theorem unedited_sheet_tuned :
    ∃ sheet, (windowWith tuned).openEditSheet id = some sheet ∧
      (Unchanged tuned ((windowWith tuned).saveSheet (fun _ ↦ none) (fun _ ↦ "") sheet) ↔
        HasSpacedToken tuned.expectedDrift ∨
          Shown tuned.thresholds ∧ ∀ id ∈ tuned.expectedDrift, IsToken isDriftSep id) := by
  have hload : loadEnvironments "" (.entries [tuned]) = .ok [tuned] := by decide +kernel
  have hpublished : Publishes (windowWith tuned) tuned := ⟨_, _, _, rfl⟩
  have hceilings : ∀ ceiling ∈ ceilings tuned.thresholds, ∀ ms, ceiling = some ms →
      ms ≤ u64Max := by
    have hsome : ∀ ceiling ∈ ceilings tuned.thresholds, ceiling.getD 0 ≤ u64Max := by decide
    rintro _ hmem ms rfl
    exact hsome _ hmem
  exact unedited_sheet_iff (fun _ ↦ rfl) hload List.mem_cons_self (by decide +kernel)
    (by decide +kernel) ⟨by decide, hceilings⟩ rfl hpublished hpublished

/-- Errors of the system log that were switched off vote again, from the first one on. -/
theorem unedited_sheet_switches_on :
    loadEnvironments "" (.entries [switchedOff]) = .ok [switchedOff] ∧
      savedUnedited switchedOff = some (.sent (tunedWith .default ["a"]) none) ∧
      ¬ Unchanged switchedOff (.sent (tunedWith .default ["a"]) none) := by
  refine ⟨by decide +kernel, by decide +kernel, fun h ↦ ?_⟩
  have hthresholds := congrArg EnvironmentConfig.thresholds h.1
  have hsyslog := congrArg Thresholds.syslogErrorDegradedAt hthresholds
  exact absurd hsyslog (by decide)

end Daku.Desktop
