import Daku.Desktop.Summaries
import Daku.Protocol.Payload
import Daku.Signals.NoFalseHealthy
import Daku.Signals.Written

/-!
# Sums of counts

Counts are added in three places: the sample of the jobs Signal (`crates/daku-core/src/jobs.rs:128`),
`count_for` of its payload (`crates/daku-protocol/src/payload.rs:142–152`) and the rows of all
tables on a card (`src/dashboard_state.rs:2435–2451`). None of them is bounded.
-/

namespace Daku.Desktop

open Daku.Base Daku.Protocol Daku.Http Daku.Collector Daku.Signals

/-- The sample of a jobs probe, with or without overflow checks (`jobs.rs:128`). -/
def jobsSample (checks : Bool) (overdueReady error : ℕ) : Option (Option ℚ) :=
  (addU64 checks overdueReady error).map fun total ↦ (toF64 (total : ℕ)).toRat

/-- The counts of the tables (`dashboard_state.rs:2436–2443`). -/
def tableCounts (value : Value) : List ℕ :=
  (((value.get "tables").bind Value.asArray).getD []).filterMap fun row ↦
    (row.get "count").bind Value.asU64

/-- The card of table growth with a total. -/
def tableGrowthText (value : Value) (total : ℕ) : String :=
  let tables := ((value.get "tables").bind Value.asArray).getD []
  let rows := compactCount total
  s!"{tables.length} tables · {rows} rows"

/-- The arm of table growth, with or without overflow checks (`dashboard_state.rs:2435–2451`). -/
def summarizeTableGrowthIn (checks : Bool) (value : Value) : Option String :=
  (sumU64 checks (tableCounts value)).map (tableGrowthText value)

/-- A release build has the card that is modelled without checks. -/
theorem summarizeTableGrowthIn_false (value : Value) :
    summarizeTableGrowthIn false value = some (summarizeTableGrowth value) := by
  rw [summarizeTableGrowthIn, sumU64_unchecked]
  rfl

section Exact

variable {overdueReady error : ℕ} {payload value : Value}

theorem jobsSample_exact_iff :
    (∀ checks, jobsSample checks overdueReady error =
      some (toF64 (overdueReady + error : ℕ)).toRat) ↔ overdueReady + error < 2 ^ 64 := by
  constructor
  · intro h
    by_contra hnot
    have hexact := h true
    rw [jobsSample, addU64_checked hnot] at hexact
    cases hexact
  · intro h checks
    rw [jobsSample, addU64_of_lt h]
    rfl

/-- A number that is not zero is a count. -/
private theorem isSome_countAt {key : String} {keys : List String} (hmem : key ∈ keys)
    (h : numberAt payload key ≠ 0) : (countAt payload keys).isSome := by
  rw [countAt, List.findSome?_isSome_iff]
  refine ⟨key, hmem, ?_⟩
  rw [numberAt] at h
  cases hitem : payload.get key with
  | none =>
    rw [hitem] at h
    exact absurd rfl h
  | some item =>
    rw [hitem, Option.bind_some] at h
    rw [Option.bind_some]
    cases hnumber : item.asU64 with
    | none =>
      rw [hnumber] at h
      exact absurd rfl h
    | some n => rfl

/-- The count of a jobs payload, without any bound. -/
def exactJobsCount (payload : Value) : Option ℕ :=
  (countAt payload jobsKeys).map fun _ ↦
    numberAt payload "overdue_ready" + numberAt payload "error"

theorem countForIn_jobs_exact_iff :
    (∀ checks, countForIn checks "jobs" payload = some (exactJobsCount payload)) ↔
      numberAt payload "overdue_ready" + numberAt payload "error" < 2 ^ 64 := by
  constructor
  · intro h
    by_contra hnot
    have hexact := h true
    have hsome : (countAt payload jobsKeys).isSome := by
      by_cases hzero : numberAt payload "overdue_ready" = 0
      · have herror : numberAt payload "error" ≠ 0 := by omega
        exact isSome_countAt (by simp [jobsKeys]) herror
      · exact isSome_countAt (by simp [jobsKeys]) hzero
    obtain ⟨n, hn⟩ := Option.isSome_iff_exists.mp hsome
    rw [countForIn, hn] at hexact
    dsimp only at hexact
    rw [addU64_checked hnot] at hexact
    cases hexact
  · intro h checks
    rw [countForIn, exactJobsCount]
    cases countAt payload jobsKeys with
    | none => rfl
    | some n =>
      dsimp only
      rw [addU64_of_lt h]
      rfl

theorem summarizeTableGrowthIn_exact_iff :
    (∀ checks, summarizeTableGrowthIn checks value =
      some (tableGrowthText value (tableCounts value).sum)) ↔ (tableCounts value).sum < 2 ^ 64 := by
  constructor
  · intro h
    by_contra hnot
    have hexact := h true
    rw [summarizeTableGrowthIn, sumU64_checked hnot] at hexact
    cases hexact
  · intro h checks
    rw [summarizeTableGrowthIn, sumU64_exact_iff.mpr h]
    rfl

end Exact

/-- A sum of counts neither panics nor wraps around, with or without overflow checks, exactly if
it is below `2 ^ 64`: in the sample of every jobs probe, in the count of every jobs payload and on
every card of table growth. -/
theorem count_sums_exact_iff (codec : Codec) (texts : Texts) (environment : EnvironmentConfig)
    (credentials : CredentialStore) (s : Session) (o : Observation) (payload value : Value) :
    (outcome (jobsProbe codec texts environment credentials) s = .ok o →
      ∃ overdueReady error, JobsCounts codec texts environment credentials s overdueReady error ∧
        jobsSample false overdueReady error = some o.sample ∧
        ((∀ checks, jobsSample checks overdueReady error =
          some (toF64 (overdueReady + error : ℕ)).toRat) ↔ overdueReady + error < 2 ^ 64)) ∧
    ((∀ checks, countForIn checks "jobs" payload = some (exactJobsCount payload)) ↔
      numberAt payload "overdue_ready" + numberAt payload "error" < 2 ^ 64) ∧
    ((∀ checks, summarizeTableGrowthIn checks value =
      some (tableGrowthText value (tableCounts value).sum)) ↔
        (tableCounts value).sum < 2 ^ 64) := by
  refine ⟨fun hprobe ↦ ?_, countForIn_jobs_exact_iff, summarizeTableGrowthIn_exact_iff⟩
  obtain ⟨overdueReady, error, _, _, _, _, _, hcounts, -, hsample⟩ := jobsProbe_written hprobe
  refine ⟨overdueReady, error, hcounts, ?_, jobsSample_exact_iff⟩
  rw [jobsSample, addU64_unchecked, hsample]
  rfl

/-- The body of an aggregate with this count. -/
def countBody (text : String) : Value :=
  .object [("result", .object [("stats", .object [("count", .string text)])])]

/-- The sample texts, and a body that is a count of its digits. -/
def countCodec : Codec :=
  { sampleCodec with fromStr := fun text ↦
      if (parseU64 text).isSome then some (countBody text) else sampleCodec.fromStr text }

theorem count_sums_exact_large :
    ∃ overdueReady error : ℕ,
      JobsCounts countCodec sampleInput.texts sampleInput.environment sampleInput.credentials
        (answered "9223372036854775807") overdueReady error ∧
      overdueReady + error = 2 ^ 64 - 2 ∧
      ((∀ checks, jobsSample checks overdueReady error =
        some (toF64 (overdueReady + error : ℕ)).toRat) ↔ overdueReady + error < 2 ^ 64) := by
  have hprobe : (outcome (jobsProbe countCodec sampleInput.texts sampleInput.environment
      sampleInput.credentials) (answered "9223372036854775807")).isOk := by decide +kernel
  obtain ⟨o, houtcome⟩ := exists_of_isOk hprobe
  obtain ⟨overdueReady, error, hcounts, -, hexact⟩ := (count_sums_exact_iff countCodec
    sampleInput.texts sampleInput.environment sampleInput.credentials
    (answered "9223372036854775807") o .null .null).1 houtcome
  have hread : JobsCounts countCodec sampleInput.texts sampleInput.environment
      sampleInput.credentials (answered "9223372036854775807") 9223372036854775807
      9223372036854775807 := by
    constructor <;> decide +kernel
  have hoverdue : overdueReady = 9223372036854775807 :=
    Except.ok.inj (hcounts.1.symm.trans hread.1)
  have herror : error = 9223372036854775807 := Except.ok.inj (hcounts.2.symm.trans hread.2)
  exact ⟨overdueReady, error, hcounts, by omega, hexact⟩

/-- A jobs payload with the largest count and one more. -/
def largeJobs : Value :=
  .object [("error", countValue 1), ("overdue_ready", countValue 18446744073709551615)]

/-- Two tables with the largest count and one more. -/
def largeTables : Value :=
  .object [("tables", .array [.object [("count", countValue 1)],
    .object [("count", countValue 18446744073709551615)]])]

/-- The largest count and one more panic with checks and are zero without; twice the largest
count is a sample of half the sum. -/
theorem count_sums_wrap :
    jobsSample true 18446744073709551615 1 = none ∧
      jobsSample false 18446744073709551615 1 = some (some 0) ∧
      (outcome (jobsProbe countCodec sampleInput.texts sampleInput.environment
        sampleInput.credentials) (answered "18446744073709551615")).map Observation.sample =
          .ok (some (2 ^ 64)) ∧
      countForIn true "jobs" largeJobs = none ∧ countFor "jobs" largeJobs = some 0 ∧
      summarizeTableGrowthIn true largeTables = none ∧
      summarizeTableGrowth largeTables = "2 tables · 0 rows" := by
  decide +kernel

end Daku.Desktop
