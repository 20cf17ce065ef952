import Daku.Base.Text
import Mathlib.Data.List.Basic

/-!
# The table of migrations

`MIGRATIONS` as `crates/daku-core/build.rs` emits it, and the query by which
`crates/daku-core/src/persistence.rs:46–56` finds a migration among the recorded rows. A
migration is known by its numeric prefix; a row may carry it under another suffix.
-/

namespace Daku.Store

open Daku.Base

/-- The file stem of a migration and its SQL. -/
abbrev Migration := String × String

/-- The text before the first underscore (`persistence.rs:45`, `build.rs:29–33`). -/
def migrationPrefix (tag : String) : String := ((splitChar '_' tag).head?).getD tag

/-- The files of `db/migrations` in the order of their numbers, where the build does not stop:
every name has a number, and the numbers count up from zero (`build.rs:19–51`). -/
def buildMigrations (files : List Migration) : Option (List Migration) := do
  let indexed ← files.mapM fun file ↦
    (parseU32 (migrationPrefix file.1)).map fun index ↦ (index, file)
  let sorted := indexed.mergeSort fun a b ↦ a.1 ≤ b.1
  if sorted.map Prod.fst = List.range sorted.length then
    some (sorted.map Prod.snd)
  else none

/-- A row of the `migrations` table (`persistence.rs:19–22`). -/
structure MigrationRow where
  tag : String
  appliedAt : Int
  deriving DecidableEq

/-- The query for a prefix; SQLite counts characters, the parameter is the length in bytes
(`persistence.rs:46–52, 63–69`). -/
def alreadyApplied (rows : List MigrationRow) (pre : String) : Bool :=
  rows.any fun row ↦ String.ofList (row.tag.toList.take pre.utf8ByteSize) = pre

/-- The prefixes of the migrations are the numbers of their positions. -/
def Numbered (migrations : List Migration) : Prop :=
  ∀ i m, migrations[i]? = some m → parseU32 (migrationPrefix m.1) = some i

/-- The rows are those of the first `k` migrations, under any suffixes. -/
def Recorded (migrations : List Migration) (k : ℕ) (rows : List MigrationRow) : Prop :=
  ∀ pre, (∃ row ∈ rows, migrationPrefix row.tag = pre) ↔
    ∃ m ∈ migrations.take k, migrationPrefix m.1 = pre

theorem toList_migrationPrefix (tag : String) :
    (migrationPrefix tag).toList = tag.toList.takeWhile (· ≠ '_') := by
  rw [migrationPrefix, splitChar, List.head?_map, head?_splitChars]
  simp

/-- The text of a prefix is ASCII. -/
private theorem ascii_prefix {pre : String} {i : ℕ} (h : parseU32 pre = some i) :
    ∀ c ∈ pre.toList, c.val ≤ 127 ∧ c ≠ '_' := by
  intro c hc
  rcases isDigit_of_parseU32 h c hc with rfl | hdigit
  · decide
  · rw [Char.isDigit, Bool.and_eq_true, decide_eq_true_eq, decide_eq_true_eq] at hdigit
    refine ⟨UInt32.le_trans hdigit.2 (by decide), ?_⟩
    rintro rfl
    exact absurd hdigit.2 (by decide)

/-- The query finds the rows whose tags begin with a prefix. -/
theorem alreadyApplied_iff {rows : List MigrationRow} {pre : String} {i : ℕ}
    (h : parseU32 pre = some i) :
    alreadyApplied rows pre = true ↔
      ∃ row ∈ rows, pre.toList <+: (migrationPrefix row.tag).toList := by
  have hascii := ascii_prefix h
  have hsize := utf8ByteSize_of_ascii fun c hc ↦ (hascii c hc).1
  simp only [alreadyApplied, List.any_eq_true, decide_eq_true_eq, hsize]
  refine exists_congr fun row ↦ and_congr_right fun _ ↦ ?_
  rw [toList_migrationPrefix]
  constructor
  · intro htake
    have hlist : row.tag.toList.take pre.toList.length = pre.toList := by
      rw [← String.toList_ofList (l := row.tag.toList.take _), htake]
    have hbegins := List.prefix_iff_eq_take.mpr hlist.symm
    obtain ⟨rest, hrest⟩ := hbegins
    rw [← hrest, List.takeWhile_append_of_pos fun c hc ↦ by simpa using (hascii c hc).2]
    exact List.prefix_append _ _
  · intro hbegins
    have := List.prefix_iff_eq_take.mp (hbegins.trans (List.takeWhile_prefix _))
    rw [← this, String.ofList_toList]

/-- A migration is found exactly when it is among the recorded ones. -/
theorem alreadyApplied_iff_lt {migrations : List Migration} {k i : ℕ} {m : Migration}
    {rows : List MigrationRow} (hnum : Numbered migrations) (hrec : Recorded migrations k rows)
    (hm : migrations[i]? = some m) :
    alreadyApplied rows (migrationPrefix m.1) = true ↔ i < k := by
  rw [alreadyApplied_iff (hnum i m hm)]
  constructor
  · rintro ⟨row, hrow, hbegins⟩
    obtain ⟨m', hm', heq⟩ := (hrec _).mp ⟨row, hrow, rfl⟩
    obtain ⟨j, hj⟩ := List.mem_iff_getElem?.mp hm'
    rw [List.getElem?_take] at hj
    split at hj
    · rename_i hlt
      rw [← heq] at hbegins
      have := parseU32_le_of_prefix (hnum i m hm) (hnum j m' hj) hbegins
      omega
    · cases hj
  · intro hlt
    have htake : (migrations.take k)[i]? = some m := by rw [List.getElem?_take_of_lt hlt, hm]
    obtain ⟨row, hrow, heq⟩ := (hrec _).mpr ⟨m, List.mem_of_getElem? htake, rfl⟩
    exact ⟨row, hrow, heq ▸ List.prefix_rfl⟩

/-- Recording the next migration under its own name. -/
theorem Recorded.succ {migrations : List Migration} {k : ℕ} {m : Migration}
    {rows : List MigrationRow} (hrec : Recorded migrations k rows)
    (hm : migrations[k]? = some m) (now : Int) :
    Recorded migrations (k + 1) (rows ++ [⟨m.1, now⟩]) := by
  intro pre
  have htake : migrations.take (k + 1) = migrations.take k ++ [m] := by
    rw [List.take_add_one, hm]
    rfl
  simp only [htake, List.mem_append, List.mem_singleton, or_and_right, exists_or, exists_eq_left,
    hrec pre]

private theorem parse_of_mem_mapM {files : List Migration} {indexed : List (ℕ × Migration)}
    {file : ℕ × Migration}
    (h : (files.mapM fun file ↦
      (parseU32 (migrationPrefix file.1)).map fun index ↦ (index, file)) = some indexed)
    (hfile : file ∈ indexed) : parseU32 (migrationPrefix file.2.1) = some file.1 := by
  induction files generalizing indexed with
  | nil =>
    rw [List.mapM_nil, Option.pure_def, Option.some.injEq] at h
    rw [← h] at hfile
    cases hfile
  | cons head files ih =>
    simp only [List.mapM_cons, Option.bind_eq_bind, Option.bind_eq_some_iff, Option.map_eq_some_iff,
      Option.pure_def, Option.some.injEq] at h
    obtain ⟨_, ⟨index, hindex, rfl⟩, rest, hrest, rfl⟩ := h
    rcases List.mem_cons.mp hfile with rfl | hmem
    · exact hindex
    · exact ih hrest hmem

/-- What the build emits is numbered. -/
theorem numbered_of_build {files migrations : List Migration}
    (h : buildMigrations files = some migrations) : Numbered migrations := by
  simp only [buildMigrations, Option.bind_eq_bind, Option.bind_eq_some_iff,
    Option.ite_none_right_eq_some, Option.some.injEq] at h
  obtain ⟨indexed, hindexed, hrange, rfl⟩ := h
  intro i m hm
  rw [List.getElem?_map, Option.map_eq_some_iff] at hm
  obtain ⟨file, hfile, rfl⟩ := hm
  have hindex : file.1 = i := by
    have hlt := (List.getElem?_eq_some_iff.mp hfile).1
    have hith := congrArg (·[i]?) hrange
    rw [List.getElem?_map, hfile, List.getElem?_range hlt, Option.map_some] at hith
    exact Option.some.inj hith
  rw [parse_of_mem_mapM hindexed (List.mem_mergeSort.mp (List.mem_of_getElem? hfile)), hindex]

end Daku.Store
