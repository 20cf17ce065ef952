import Daku.Desktop.DrillIn
import Daku.Signals.NoFalseHealthy
import Daku.Signals.RowQueries

/-!
# Rows that are not shown

Each drill-in of `src/dashboard_state.rs:969–1519` shows the first entries of the lists of a
payload, and says so if there are others; the one of watched tables never says so.
-/

namespace Daku.Desktop

open Daku.Base Daku.Protocol Daku.Http Daku.Signals

/-- The lists of a payload that the drill-in of a Signal renders. -/
def renderedLists : String → List String
  | "drift" => ["mismatch_list"]
  | "mid_ecc" => ["agents_unhealthy_list"]
  | "jobs" => ["overdue_rows", "error_rows"]
  | "syslog" => ["error_rows"]
  | "outbound" => ["failure_rows"]
  | "flow" => ["error_rows"]
  | "email" => ["error_rows"]
  | "upgrade" => ["upgrades"]
  | "table_growth" => ["tables"]
  | "slow_txn" => ["slow_rows"]
  | "update_sets" => ["open_rows"]
  | "scan" => ["finding_rows"]
  | "sessions" => ["session_rows"]
  | "actions" => ["run_rows"]
  | _ => []

/-- The entries of a list, none without it. -/
def entriesOf (value : Value) (listKey : String) : List Value :=
  ((value.get listKey).bind Value.asArray).getD []

/-- The entries that the drill-in of a Signal renders. -/
def renderedEntries (signalId : String) (value : Value) : List Value :=
  (renderedLists signalId).flatMap (entriesOf value)

/-- Some entry is not among the rows, or a flag says that there are others. -/
def Hides (signalId : String) (value : Value) (drillIn : DrillInRows) : Prop :=
  drillIn.rows.length < (renderedEntries signalId value).length ∨
    ∃ listKey ∈ renderedLists signalId, listTruncated value listKey = true

/-- The rows are those of the first entries. -/
def ShowsFirst (signalId : String) (value : Value) (drillIn : DrillInRows) : Prop :=
  ∃ row : Value → DrillInRow,
    drillIn.rows = ((renderedEntries signalId value).take drillIn.rows.length).map row

section Lists

variable {signalId listKey : String} {value : Value} {drillIn : DrillInRows} {n : ℕ}
  {row : Value → DrillInRow}

theorem renderedEntries_of_one (h : renderedLists signalId = [listKey]) :
    renderedEntries signalId value = entriesOf value listKey := by
  rw [renderedEntries, h, List.flatMap_cons, List.flatMap_nil, List.append_nil]

theorem showsFirst_of_take
    (hrows : drillIn.rows = ((renderedEntries signalId value).take n).map row) :
    ShowsFirst signalId value drillIn := by
  refine ⟨row, ?_⟩
  rw [hrows, List.length_map, List.length_take, ← List.take_eq_take_min]

theorem hides_iff_of_one (h : renderedLists signalId = [listKey])
    (hrows : drillIn.rows = ((entriesOf value listKey).take drillInRowLimit).map row) :
    Hides signalId value drillIn ↔
      drillInRowLimit < (entriesOf value listKey).length ∨ listTruncated value listKey = true := by
  rw [Hides, renderedEntries_of_one h, h, hrows, List.length_map, List.length_take]
  simp only [List.mem_singleton, exists_eq_left]
  apply or_congr_left
  omega

/-- A drill-in of one list says so if it hides an entry. -/
theorem truncated_of_hides (h : renderedLists signalId = [listKey])
    (hrows : drillIn.rows = ((entriesOf value listKey).take drillInRowLimit).map row)
    (htruncated : drillIn.truncated = (listTruncated value listKey ||
      decide (drillInRowLimit < (entriesOf value listKey).length))) :
    Hides signalId value drillIn → drillIn.truncated = true := by
  rw [hides_iff_of_one h hrows, htruncated, Bool.or_eq_true, decide_eq_true_eq]
  exact Or.symm

theorem listRows_eq {headers : List String}
    (h : listRows headers listKey row value = some drillIn) :
    drillIn.rows = ((entriesOf value listKey).take drillInRowLimit).map row ∧
      drillIn.truncated = (listTruncated value listKey ||
        decide (drillInRowLimit < (entriesOf value listKey).length)) := by
  obtain ⟨list, hlist, rfl⟩ := Option.map_eq_some_iff.mp h
  have hentries : entriesOf value listKey = list := by
    rw [entriesOf, (Option.filter_eq_some_iff.mp hlist).1, Option.getD_some]
  rw [hentries]
  exact ⟨rfl, rfl⟩

/-- Lists cut one by one and then together are as one list. -/
private theorem take_append_take {α : Type} (n : ℕ) (xs ys : List α) :
    (xs.take n ++ ys.take n).take n = (xs ++ ys).take n := by
  rw [List.take_append, List.take_append, List.take_take, List.take_take, List.length_take,
    min_self]
  rcases le_total n xs.length with hle | hle
  · rw [min_eq_left hle, Nat.sub_self, Nat.sub_eq_zero_of_le hle, Nat.min_eq_left (Nat.zero_le n)]
  · rw [min_eq_right hle, Nat.min_eq_left (Nat.sub_le n xs.length)]

theorem renderedEntries_jobs :
    renderedEntries "jobs" value =
      entriesOf value "overdue_rows" ++ entriesOf value "error_rows" := by
  rw [renderedEntries, renderedLists, List.flatMap_cons, List.flatMap_cons, List.flatMap_nil,
    List.append_nil]

/-- Jobs are shown as one list. -/
theorem jobRows_eq {s : DashboardState} (h : s.jobRows value = some drillIn) :
    (∃ row, drillIn.rows = ((renderedEntries "jobs" value).take drillInRowLimit).map row) ∧
      drillIn.truncated = (listTruncated value "overdue_rows" ||
        listTruncated value "error_rows" || decide (drillInRowLimit ≤ drillIn.rows.length)) := by
  rw [DashboardState.jobRows] at h
  split at h
  · cases h
  · obtain rfl := Option.some.inj h
    refine ⟨⟨s.recordRow ["name", "detail"] "sys_trigger" "sys_id", ?_⟩, rfl⟩
    dsimp only
    rw [← List.map_append, ← List.map_take, take_append_take, renderedEntries_jobs]
    rfl

theorem truncated_of_hides_jobs {s : DashboardState} (h : s.jobRows value = some drillIn) :
    Hides "jobs" value drillIn → drillIn.truncated = true := by
  obtain ⟨⟨row, hrows⟩, htruncated⟩ := jobRows_eq h
  have hlength : drillIn.rows.length =
      min drillInRowLimit (renderedEntries "jobs" value).length := by
    rw [hrows, List.length_map, List.length_take]
  rw [htruncated, Bool.or_eq_true, Bool.or_eq_true, decide_eq_true_eq]
  rintro (hless | ⟨listKey, hmem, hflag⟩)
  · right
    omega
  · left
    rcases List.mem_pair.mp hmem with rfl | rfl
    · exact Or.inl hflag
    · exact Or.inr hflag

/-- The plugins that differ are one list, also if it is empty. -/
theorem driftRows_eq (h : driftRows value = some drillIn) :
    (∃ row, drillIn.rows = ((entriesOf value "mismatch_list").take drillInRowLimit).map row) ∧
      drillIn.truncated = (listTruncated value "mismatch_list" ||
        decide (drillInRowLimit < (entriesOf value "mismatch_list").length)) := by
  obtain ⟨list, hlist, rfl⟩ := Option.map_eq_some_iff.mp h
  have hentries : entriesOf value "mismatch_list" = list := by
    rw [entriesOf, hlist, Option.getD_some]
  rw [hentries]
  exact ⟨⟨_, rfl⟩, rfl⟩

/-- The watched tables are never said to be cut. -/
theorem tableRows_eq {s : DashboardState} (h : s.tableRows value = some drillIn) :
    (∃ row, drillIn.rows = ((entriesOf value "tables").take drillInRowLimit).map row) ∧
      drillIn.truncated = false := by
  obtain ⟨list, hlist, rfl⟩ := Option.map_eq_some_iff.mp h
  have hentries : entriesOf value "tables" = list := by
    rw [entriesOf, (Option.filter_eq_some_iff.mp hlist).1, Option.getD_some]
  rw [hentries]
  exact ⟨⟨_, rfl⟩, rfl⟩

end Lists

/-- Watched tables are neither hidden nor cut. -/
def TablesShown (value : Value) : Prop :=
  (entriesOf value "tables").length ≤ drillInRowLimit ∧ listTruncated value "tables" = false

/-- Drill-ins show the first entries, and say so if they hide any, but that of watched tables
never says so; probes list the first usable rows, and say so if there are others. -/
theorem hidden_rows_iff (d : DashboardState) (signalId : String) (drillIn : DrillInRows)
    (x : ProbeInput) (s : Session) (o : Collector.Observation) :
    (d.drillInRows signalId = some drillIn →
      (renderedLists signalId ≠ [] → ShowsFirst signalId (d.payload signalId) drillIn) ∧
      ((Hides signalId (d.payload signalId) drillIn → drillIn.truncated = true) ↔
        (signalId = "table_growth" → TablesShown (d.payload signalId)))) ∧
    (∀ sig : VotingSignal, outcome (sig.probe x) s = .ok o →
      ∀ q ∈ rowQueries x sig, q.Tells s o) ∧
    (outcome (sessionsProbe x.codec x.environment x.credentials) s = .ok o →
      (sessionsQuery x).Tells s o) := by
  refine ⟨fun h ↦ ?_, fun _ h _ hquery ↦ tells_of_probe hquery h, fun h ↦ sessionsQuery_tells h⟩
  unfold DashboardState.drillInRows at h
  generalize d.payload signalId = value at h ⊢
  have hone : ∀ {id listKey : String}, renderedLists id = [listKey] → id ≠ "table_growth" →
      ((∃ row, drillIn.rows = ((entriesOf value listKey).take drillInRowLimit).map row) ∧
        drillIn.truncated = (listTruncated value listKey ||
          decide (drillInRowLimit < (entriesOf value listKey).length))) →
      (renderedLists id ≠ [] → ShowsFirst id value drillIn) ∧
        ((Hides id value drillIn → drillIn.truncated = true) ↔
          (id = "table_growth" → TablesShown value)) := by
    rintro id listKey hlists hid ⟨⟨row, hrows⟩, htruncated⟩
    refine ⟨fun _ ↦ ?_, iff_of_true (truncated_of_hides hlists hrows htruncated) (absurd · hid)⟩
    rw [← renderedEntries_of_one hlists] at hrows
    exact showsFirst_of_take hrows
  have hlist : ∀ {headers : List String} {listKey : String} {row : Value → DrillInRow},
      listRows headers listKey row value = some drillIn →
      (∃ row, drillIn.rows = ((entriesOf value listKey).take drillInRowLimit).map row) ∧
        drillIn.truncated = (listTruncated value listKey ||
          decide (drillInRowLimit < (entriesOf value listKey).length)) :=
    fun h ↦ ⟨⟨_, (listRows_eq h).1⟩, (listRows_eq h).2⟩
  split at h
  · exact hone rfl (by decide) (driftRows_eq h)
  · exact hone rfl (by decide) (hlist h)
  · refine ⟨fun hlists ↦ absurd rfl hlists, iff_of_true ?_ fun hid ↦ absurd hid (by decide)⟩
    rintro (hless | ⟨listKey, hmem, -⟩)
    · exact absurd hless (Nat.not_lt_zero _)
    · cases hmem
  · obtain ⟨row, hrows⟩ := (jobRows_eq h).1
    exact ⟨fun _ ↦ showsFirst_of_take hrows,
      iff_of_true (truncated_of_hides_jobs h) fun hid ↦ absurd hid (by decide)⟩
  · exact hone rfl (by decide) (hlist h)
  · exact hone rfl (by decide) (hlist h)
  · exact hone rfl (by decide) (hlist h)
  · exact hone rfl (by decide) (hlist h)
  · exact hone rfl (by decide) (hlist h)
  · obtain ⟨⟨row, hrows⟩, htruncated⟩ := tableRows_eq h
    have hlists : renderedLists "table_growth" = ["tables"] := rfl
    refine ⟨fun _ ↦ ?_, ?_⟩
    · rw [← renderedEntries_of_one hlists] at hrows
      exact showsFirst_of_take hrows
    rw [hides_iff_of_one hlists hrows, htruncated, TablesShown]
    simp only [Bool.false_eq_true, imp_false, not_or, not_lt, Bool.not_eq_true, forall_const]
  · exact hone rfl (by decide) (hlist h)
  · exact hone rfl (by decide) (hlist h)
  · exact hone rfl (by decide) (hlist h)
  · exact hone rfl (by decide) (hlist h)
  · exact hone rfl (by decide) (hlist h)
  · cases h

/-- A window of one Environment that has sent this payload for every Signal. -/
def windowOn (payload : Value) : DashboardState :=
  { DashboardState.new with
    selectedId := some "test"
    snapshots := fun _ ↦ some fun signalId ↦ some ⟨⟨signalId, "degraded", 0, ""⟩, payload⟩ }

/-- A payload with 51 rows of errors, cut by the daemon. -/
def manyErrors : Value :=
  .object [("error_rows", .array (List.replicate 51 (.object [("message", .string "timeout")]))),
    ("error_rows_truncated", .bool true)]

/-- A page of 30 sessions. -/
def sessionsPage : Value :=
  .object [("result", .array (List.replicate 30 (.object [("sys_id", .string "glide-1")])))]

/-- The sample texts, and `sessions` for that page. -/
def sessionsCodec : Codec :=
  { sampleCodec with fromStr := fun text ↦
      if text = "sessions" then some sessionsPage else sampleCodec.fromStr text }

/-- The sample input with that page. -/
def sessionsInput : ProbeInput := { sampleInput with codec := sessionsCodec }

theorem hidden_rows_many :
    (∃ drillIn, (windowOn manyErrors).drillInRows "syslog" = some drillIn ∧
      drillIn.rows.length = 50 ∧ (renderedEntries "syslog" manyErrors).length = 51 ∧
      ShowsFirst "syslog" manyErrors drillIn ∧ drillIn.truncated = true) ∧
    ∃ o, outcome (sessionsProbe sessionsInput.codec sessionsInput.environment
        sessionsInput.credentials) (answered "sessions") = .ok o ∧
      (entriesOf o.payload "session_rows").length = 10 ∧
      (sessionsQuery sessionsInput).Tells (answered "sessions") o := by
  constructor
  · obtain ⟨hfirst, htells⟩ := (hidden_rows_iff (windowOn manyErrors) "syslog" _ sessionsInput
      (answered "sessions") ⟨.healthy, .null, none⟩).1 rfl
    refine ⟨_, rfl, rfl, rfl, hfirst (by decide), htells.mpr (fun h ↦ ?_) (Or.inl ?_)⟩
    · exact absurd h (by decide)
    · show 50 < 51
      decide
  · have hprobe : (outcome (sessionsProbe sessionsInput.codec sessionsInput.environment
        sessionsInput.credentials) (answered "sessions")).isOk := by decide +kernel
    obtain ⟨o, houtcome⟩ := exists_of_isOk hprobe
    have hlisted : (outcome (sessionsProbe sessionsInput.codec sessionsInput.environment
        sessionsInput.credentials) (answered "sessions")).map
          (fun o ↦ (entriesOf o.payload "session_rows").length) = .ok 10 := by decide +kernel
    rw [houtcome] at hlisted
    exact ⟨o, houtcome, Except.ok.inj hlisted, (hidden_rows_iff DashboardState.new "syslog"
      ⟨[], [], false⟩ sessionsInput (answered "sessions") o).2.2 houtcome⟩

/-- The last of 51 watched tables is hidden, and nobody says so. -/
theorem hidden_table :
    let entry : Value := .object [("count", .number (.posInt 1)), ("table", .string "incident")]
    let payload : Value := .object [("tables", .array (List.replicate 51 entry))]
    ∃ drillIn, (windowOn payload).drillInRows "table_growth" = some drillIn ∧
      drillIn.rows.length = 50 ∧ (renderedEntries "table_growth" payload).length = 51 ∧
      Hides "table_growth" payload drillIn ∧ drillIn.truncated = false := by
  refine ⟨_, rfl, rfl, rfl, Or.inl ?_, rfl⟩
  show 50 < 51
  decide

end Daku.Desktop
