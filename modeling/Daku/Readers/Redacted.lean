import Daku.Readers.Tools
import Mathlib.Logic.Function.Basic

/-!
# What the redacted rows show

The rows of `signals_get` are a function of the allowed part of a payload, by
`crates/daku-core/src/mcp.rs:293–369`: for each list of the table its length, its display field
and its flag.
-/

namespace Daku.Readers

open Daku.Base Daku.Protocol Daku.Health

/-- The allowed part of a list. -/
structure ListView where
  /-- The length, if the payload has such an array. -/
  length : Option ℕ
  /-- The display field of each row, where it is a text. -/
  names : List (Option String)
  /-- The list's own flag, if it is a truth value. -/
  flag : Option Bool
  deriving DecidableEq, Repr

/-- The display field of a row, where one is named and it is a text. -/
def displayField (nameKey : Option String) (row : Value) : Option String :=
  nameKey.bind fun key ↦ (row.get key).bind Value.asStr

/-- The array of a payload that an entry of the table is about. -/
def listOf (entry : RedactedList) (payload : Value) : Option (List Value) :=
  (payload.get entry.listKey).bind Value.asArray

/-- The allowed part of a payload for an entry. -/
def listView (entry : RedactedList) (payload : Value) : ListView where
  length := (listOf entry payload).map List.length
  names := ((listOf entry payload).getD []).map (displayField entry.nameKey)
  flag := (payload.get s!"{entry.listKey}_truncated").bind Value.asBool

/-- A text that is no JSON has no lists. -/
def textView (fromStr : FromStr) (entry : RedactedList) (payloadJson : String) : ListView :=
  ((fromStr payloadJson).map (listView entry)).getD ⟨none, [], none⟩

/-- The names among the display fields: those that are not empty, at most ten. -/
def shownNames (names : List (Option String)) : List String :=
  (names.filterMap fun name ↦ name.filter (· ≠ "")).take rowNamesCap

/-- The redacted list, from the allowed part only. -/
def shownList (entry : RedactedList) (view : ListView) : Option Value :=
  match view.length with
  | none => none
  | some 0 => none
  | some (length + 1) =>
    let names := shownNames view.names
    some <| .object [
      ("count", .number (.posInt (length + 1))),
      ("list", .string entry.listKey),
      ("names", .array (names.map .string)),
      ("truncated", .bool (view.flag.getD false ||
        (entry.nameKey.isSome && names.length < length + 1)))]

section Shown

variable {entry : RedactedList} {payload : Value} {nameKey : Option String} {list : List Value}

theorem rowNames_eq (nameKey : Option String) (list : List Value) :
    rowNames nameKey list = shownNames (list.map (displayField nameKey)) := by
  rw [shownNames, List.filterMap_map]
  cases nameKey with
  | none => simp [rowNames, displayField, Function.comp_def]
  | some key => rfl

/-- A redacted list is made from the allowed part of its payload. -/
theorem redactedList_eq (entry : RedactedList) (payload : Value) :
    redactedList payload entry = shownList entry (listView entry payload) := by
  rw [redactedList, shownList, listView, listOf]
  cases (payload.get entry.listKey).bind Value.asArray with
  | none => rfl
  | some list =>
    cases list with
    | nil => rfl
    | cons row rows =>
      dsimp only
      rw [rowNames_eq]
      rfl

theorem length_shownNames_le (names : List (Option String)) :
    (shownNames names).length ≤ rowNamesCap :=
  List.length_take_le _ _

/-- Every name shown is a display field. -/
theorem some_mem_of_mem_shownNames {names : List (Option String)} {name : String}
    (h : name ∈ shownNames names) : some name ∈ names := by
  obtain ⟨field, hfield, hname⟩ := List.mem_filterMap.mp (List.mem_of_mem_take h)
  rwa [← (Option.filter_eq_some_iff.mp hname).1]

/-- Without a field left out, the texts are the fields. -/
private theorem map_some_filterMap {names : List (Option String)} {keep : String → Bool}
    (h : names.length ≤ (names.filterMap fun name ↦ name.filter keep).length) :
    (names.filterMap fun name ↦ name.filter keep).map some = names := by
  induction names with
  | nil => rfl
  | cons name names ih =>
    have hrest := List.length_filterMap_le (fun name : Option String ↦ name.filter keep) names
    rw [List.filterMap_cons] at h ⊢
    cases hname : name.filter keep with
    | none =>
      rw [hname] at h
      simp only [List.length_cons] at h
      omega
    | some text =>
      rw [hname] at h
      simp only [List.length_cons] at h
      rw [(Option.filter_eq_some_iff.mp hname).1]
      simp only [List.map_cons]
      rw [ih (by omega)]

/-- With as many names as fields, every field is shown. -/
theorem shownNames_complete {names : List (Option String)}
    (h : names.length ≤ (shownNames names).length) : (shownNames names).map some = names := by
  have htake := List.length_take_le' rowNamesCap
    (names.filterMap fun name ↦ name.filter (· ≠ ""))
  have hall : shownNames names = names.filterMap fun name ↦ name.filter (· ≠ "") := by
    apply List.take_of_length_le
    have hle := List.length_filterMap_le (fun name : Option String ↦ name.filter (· ≠ "")) names
    have hcap := length_shownNames_le names
    omega
  rw [hall] at h ⊢
  exact map_some_filterMap h

/-- What is shown of a list: at most ten names, all from the display field, and the flag where
rows of a list with a display field are not named. -/
structure ShownList (entry : RedactedList) (payload : Value) where
  rows : List Value
  names : List String
  truncated : Bool
  rows_eq : listOf entry payload = some rows
  names_le : names.length ≤ rowNamesCap
  names_mem : ∀ name ∈ names, some name ∈ rows.map (displayField entry.nameKey)
  truncated_of_unnamed : entry.nameKey.isSome →
    names.map some ≠ rows.map (displayField entry.nameKey) → truncated = true

/-- A shown list in JSON. -/
def ShownList.toValue (list : ShownList entry payload) : Value :=
  .object [("count", .number (.posInt list.rows.length)), ("list", .string entry.listKey),
    ("names", .array (list.names.map .string)), ("truncated", .bool list.truncated)]

/-- A redacted list shows names of its rows, and says where it does not show all. -/
theorem exists_shownList {shown : Value} (h : redactedList payload entry = some shown) :
    ∃ list : ShownList entry payload, shown = list.toValue := by
  rw [redactedList_eq, shownList, listView] at h
  cases hlist : listOf entry payload with
  | none =>
    rw [hlist] at h
    cases h
  | some rows =>
    cases rows with
    | nil =>
      rw [hlist] at h
      cases h
    | cons row rows =>
      rw [hlist] at h
      let names := shownNames ((row :: rows).map (displayField entry.nameKey))
      let flag := ((payload.get s!"{entry.listKey}_truncated").bind Value.asBool).getD false
      have hunnamed : entry.nameKey.isSome →
          names.map some ≠ (row :: rows).map (displayField entry.nameKey) →
          (flag || (entry.nameKey.isSome && names.length < rows.length + 1)) = true := by
        intro hkey hne
        have hfew : names.length < rows.length + 1 := by
          by_contra hall
          apply hne
          apply shownNames_complete
          rw [List.length_map, List.length_cons]
          exact not_lt.mp hall
        rw [hkey, Bool.true_and, decide_eq_true hfew, Bool.or_true]
      exact ⟨⟨row :: rows, names, _, hlist, length_shownNames_le _, fun name hname ↦
        some_mem_of_mem_shownNames hname, hunnamed⟩, (Option.some.inj h).symm⟩

end Shown

/-- The redacted rows of a Signal are a function of the allowed part of its payload; each list
shows at most ten names and says where it does not show all. -/
theorem redacted_rows_allowed_only (fromStr : FromStr) (signalId : String) :
    (∀ p q : String,
      (∀ entry ∈ redactedRowTable, entry.signalId = signalId →
        textView fromStr entry p = textView fromStr entry q) →
      redactedRows fromStr signalId p = redactedRows fromStr signalId q) ∧
    ∀ p, ∀ shown ∈ redactedRows fromStr signalId p, ∃ entry ∈ redactedRowTable,
      entry.signalId = signalId ∧ ∃ payload, fromStr p = some payload ∧
        ∃ list : ShownList entry payload, shown = list.toValue := by
  have hview : ∀ p, redactedRows fromStr signalId p =
      (redactedRowTable.filter fun entry ↦ entry.signalId = signalId).filterMap
        fun entry ↦ shownList entry (textView fromStr entry p) := by
    intro p
    rw [redactedRows]
    cases hp : fromStr p with
    | none => simp [textView, hp, shownList]
    | some payload => simp only [textView, hp, redactedList_eq, Option.map_some, Option.getD_some]
  constructor
  · intro p q hagree
    rw [hview, hview]
    apply List.filterMap_congr
    intro entry hentry
    obtain ⟨htable, hsignal⟩ := List.mem_filter.mp hentry
    rw [hagree entry htable (of_decide_eq_true hsignal)]
  · intro p shown hshown
    rw [redactedRows] at hshown
    cases hp : fromStr p with
    | none =>
      rw [hp] at hshown
      cases hshown
    | some payload =>
      rw [hp] at hshown
      obtain ⟨entry, hentry, hlist⟩ := List.mem_filterMap.mp hshown
      obtain ⟨htable, hsignal⟩ := List.mem_filter.mp hentry
      exact ⟨entry, htable, of_decide_eq_true hsignal, payload, rfl, exists_shownList hlist⟩

/-- A payload of the jobs Signal with one overdue job. -/
def overduePayload (message : String) : Value :=
  .object [("overdue_rows", .array [.object [("name", .string "Nightly"),
    ("script", .string message)]]), ("overdue_rows_truncated", .bool false)]

/-- Two payloads that differ in the job's script. -/
theorem redacted_rows_allowed_only_jobs :
    let fromStr : FromStr := fun text ↦ some (overduePayload text)
    redactedRows fromStr "jobs" "a" = redactedRows fromStr "jobs" "b" ∧
      (redactedRows fromStr "jobs" "a").length = 1 := by
  intro fromStr
  have hview : ∀ entry ∈ redactedRowTable, entry.signalId = "jobs" →
      textView fromStr entry "a" = textView fromStr entry "b" := by
    decide +kernel
  exact ⟨(redacted_rows_allowed_only fromStr "jobs").1 "a" "b" hview, by decide +kernel⟩

end Daku.Readers
