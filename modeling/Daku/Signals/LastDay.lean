import Daku.Base.Civil
import Daku.Base.Cuts
import Daku.Base.Decimal
import Daku.Signals.Counted
import Daku.Signals.DayNumbers

/-!
# Failed runs of the last day

The window of the Actions Signal, by `crates/daku-core/src/github.rs:9–10, 81–123`, and the age
in calendar days it is kept with (`last_clone.rs:101–146`).
-/

namespace Daku.Signals

open Daku.Base Daku.Protocol Daku.Http

/-- `YYYY-MM-DD`. -/
def dateChars (d : CivilDate) : List Char :=
  padded 4 d.year ++ '-' :: (padded 2 d.month ++ '-' :: padded 2 d.day)

/-- `HH:MM:SS`. -/
def timeChars (t : TimeOfDay) : List Char :=
  padded 2 t.hour ++ ':' :: (padded 2 t.minute ++ ':' :: padded 2 t.second)

/-- A UTC time as GitHub writes it. -/
structure Timestamp where
  date : CivilDate
  time : TimeOfDay
  year_lt : date.year < 10000

namespace Timestamp

/-- `YYYY-MM-DDTHH:MM:SSZ`. -/
def text (t : Timestamp) : String :=
  String.ofList (dateChars t.date ++ 'T' :: (timeChars t.time ++ ['Z']))

/-- The day since 1970-01-01. -/
def unixDay (t : Timestamp) : Int := t.date.dayNumber - 719528

/-- Seconds since 1970-01-01T00:00:00Z. -/
def unixSeconds (t : Timestamp) : Int := t.unixDay * 86400 + t.time.seconds

end Timestamp

/-- Remainders of years are those of natural numbers. -/
private theorem tmod_eq_zero_iff (year n : ℕ) : (year : Int).tmod n = 0 ↔ year % n = 0 := by
  rw [← Int.ofNat_tmod]
  omega

/-- The days of a month as the source counts them. -/
theorem daysInMonth_eq {year month : ℕ} (hpos : 1 ≤ month) (hle : month ≤ 12) :
    daysInMonth year month = monthLength year month := by
  have hleap : ((year : Int).tmod 4 = 0 ∧ ((year : Int).tmod 100 ≠ 0 ∨ (year : Int).tmod 400 = 0)) ↔
      IsLeap year := by
    rw [IsLeap, ← tmod_eq_zero_iff year 4, ← tmod_eq_zero_iff year 400, Ne, Ne,
      ← tmod_eq_zero_iff year 100]
    rfl
  rw [daysInMonth, monthLength]
  simp only [hleap]
  interval_cases month <;> simp [apply_ite]

/-- The leap years before a year, and the year itself where it is one. -/
private theorem leaps_before (year : ℕ) :
    (year + 3) / 4 + year / 100 + (year + 399) / 400 + (if IsLeap year then 1 else 0) =
      year / 4 + (year + 99) / 100 + year / 400 + 1 := by
  have hfour : (year + 3) / 4 = year / 4 + if year % 4 = 0 then 0 else 1 := by
    split <;> omega
  have hcentury : (year + 99) / 100 = year / 100 + if year % 100 = 0 then 0 else 1 := by
    split <;> omega
  have hera : (year + 399) / 400 = year / 400 + if year % 400 = 0 then 0 else 1 := by
    split <;> omega
  rw [hfour, hcentury, hera]
  unfold IsLeap
  by_cases h4 : year % 4 = 0 <;> by_cases h100 : year % 100 = 0 <;>
    by_cases h400 : year % 400 = 0 <;> simp only [h4, h100, h400] <;> simp <;> omega

theorem monthLength_le (year month : ℕ) : monthLength year month ≤ 31 := by
  rw [monthLength]
  split
  · omega
  · split
    · split <;> omega
    · omega

/-- The source counts days as the calendar does, from the day 1970-01-01 on. -/
theorem daysFromCivil_eq (d : CivilDate) (h : d.year < 10000) :
    daysFromCivil wrapI64 d.year d.month d.day = (d.dayNumber : Int) - 719528 := by
  have hpos := d.month_pos
  have hle := d.month_le
  have hday := d.day_pos
  have hday' := d.day_le.trans (monthLength_le d.year d.month)
  rw [daysFromCivil_wrapI64 (by omega) (by omega) (by omega) (by omega), CivilDate.dayNumber,
    GregorianDate.marchYear, GregorianDate.marchDays]
  dsimp only
  by_cases hfirst : d.month ≤ 2
  · have hfour : ((d.year : Int) - 1) / 4 = ((d.year + 3) / 4 : ℕ) - 1 := by omega
    have hcentury : ((d.year : Int) - 1) / 100 = ((d.year + 99) / 100 : ℕ) - 1 := by omega
    have hera : ((d.year : Int) - 1) / 400 = ((d.year + 399) / 400 : ℕ) - 1 := by omega
    have hdays : (153 * ((d.month : Int) + 9) + 2) / 5 = 31 * d.month + 275 := by omega
    have hfirst' : (d.month : Int) ≤ 2 ∧ ¬ 2 < (d.month : Int) := by omega
    rw [if_pos hfirst'.1, if_neg hfirst'.2, daysOfMonths_eq hpos hle, if_pos hfirst, hfour,
      hcentury, hera, hdays]
    have hyears := daysOfYears_eq d.year
    generalize (d.year + 3) / 4 = four at *
    generalize (d.year + 99) / 100 = century at *
    generalize (d.year + 399) / 400 = era at *
    omega
  · have hdays : (153 * ((d.month : Int) - 3) + 2) / 5 = ((153 * (d.month - 3) + 2) / 5 : ℕ) := by
      omega
    have hfirst' : ¬ (d.month : Int) ≤ 2 ∧ 2 < (d.month : Int) := by omega
    rw [if_neg hfirst'.1, if_pos hfirst'.2, daysOfMonths_eq hpos hle, if_neg hfirst, hdays]
    have hyears := daysOfYears_eq d.year
    have hleaps := leaps_before d.year
    generalize (153 * (d.month - 3) + 2) / 5 = days
    generalize (if IsLeap d.year then 1 else 0) = leap at *
    generalize (d.year + 3) / 4 = four at *
    generalize (d.year + 99) / 100 = century at *
    generalize (d.year + 399) / 400 = era at *
    omega

section Age

variable {t : Timestamp} {unixNow : Int}

private theorem notMem_padded {width n : ℕ} {c : Char} (h : ¬ c.isDigit) : c ∉ padded width n :=
  fun hmem ↦ h (isDigit_of_mem_padded hmem)

/-- The date part of a timestamp. -/
private theorem date_text (t : Timestamp) :
    (splitChar 'T' ((splitChar ' ' t.text).headD "")).headD "" =
      String.ofList (dateChars t.date) := by
  have hspace : ¬ ' '.isDigit := by decide
  have hT : ¬ 'T'.isDigit := by decide
  have hwhole : ' ' ∉ t.text.toList := by
    simp [Timestamp.text, dateChars, timeChars, notMem_padded hspace]
  have hdate : 'T' ∉ dateChars t.date := by
    simp [dateChars, notMem_padded hT]
  have hfirst : (splitChar ' ' t.text).headD "" = t.text := by
    rw [splitChar_headD, cutAt_of_notMem hwhole, String.ofList_toList]
  have hcut := cutAt_append hdate (some (timeChars t.time ++ ['Z']))
  rw [follow] at hcut
  rw [hfirst, splitChar_headD, Timestamp.text, String.toList_ofList, hcut]

/-- The three numbers of a date. -/
private theorem splitChar_dateChars (d : CivilDate) :
    splitChar '-' (String.ofList (dateChars d)) =
      [String.ofList (padded 4 d.year), String.ofList (padded 2 d.month),
        String.ofList (padded 2 d.day)] := by
  have hminus : ¬ '-'.isDigit := by decide
  rw [splitChar, String.toList_ofList, dateChars, splitChars_append (notMem_padded hminus),
    splitChars_append (notMem_padded hminus), splitChars_of_notMem (notMem_padded hminus)]
  rfl

/-- The age of a timestamp in calendar days, as long as it is not in the future. -/
theorem ageDays_text (h : t.unixSeconds ≤ unixNow) (hmax : unixNow ≤ i64Max) :
    ageDays t.text unixNow = some (unixNow / 86400 - t.unixDay) := by
  have hpos := t.date.month_pos
  have hle := t.date.month_le
  have hday := t.date.day_pos
  have hlength := t.date.day_le
  have hday' := hlength.trans (monthLength_le t.date.year t.date.month)
  have hyear := t.year_lt
  have hread : ∀ width n : ℕ, n < 2 ^ 63 →
      parseI64 (String.ofList (padded width n)) = some (n : Int) :=
    fun width n hn ↦ parseI64_ofList (digitsValue_padded width n) hn
  have hdays : daysFromCivil wrapI64 t.date.year t.date.month t.date.day = t.unixDay :=
    daysFromCivil_eq t.date t.year_lt
  have hstart : -719528 ≤ t.unixDay := by
    rw [Timestamp.unixDay]
    omega
  have hpast : t.unixDay ≤ unixNow / 86400 := by
    rw [Timestamp.unixSeconds] at h
    omega
  have hage : wrapI64 (unixNow / 86400 - t.unixDay) = unixNow / 86400 - t.unixDay := by
    apply wrapI64_of_mem
    · simp only [i64Min]
      omega
    · simp only [i64Max] at hmax ⊢
      omega
  unfold ageDays
  dsimp only
  rw [date_text, splitChar_dateChars]
  dsimp only
  rw [hread 4 _ (by omega), hread 2 _ (by omega), hread 2 _ (by omega)]
  simp only [Option.bind_eq_bind, Option.bind_some]
  rw [if_neg (by omega), daysInMonth_eq hpos hle, if_neg (by omega), hdays, hage,
    max_eq_left (by omega)]

end Age

/-- A failed run with a link. -/
def Failing (codec : Codec) (run : Value) : Prop :=
  rowText codec run "conclusion" ∈ ["failure", "timed_out"] ∧ rowText codec run "html_url" ≠ ""

/-- The run was created on the UTC day before, at an earlier time of the day. -/
def CreatedEarlierYesterday (t : Timestamp) (unixNow : Int) : Prop :=
  unixNow / 86400 = t.unixDay + 1 ∧ (t.time.seconds : Int) < unixNow % 86400

section Window

variable {codec : Codec} {unixNow : Int} {run : Value}

/-- A failed run is kept unless its age is more than one calendar day. -/
theorem isSome_failedRun (h : Failing codec run) : (failedRun codec unixNow run).isSome ↔
    ∀ days, ageDays (rowText codec run "created_at") unixNow = some days → days ≤ 1 := by
  rw [failedRun, if_neg (not_not.mpr h.1)]
  cases ageDays (rowText codec run "created_at") unixNow with
  | none => simp [h.2]
  | some days =>
    by_cases hdays : 1 < days
    · simp [hdays]
    · have hle : days ≤ 1 := by omega
      simp [hdays, h.2, hle]

/-- The window ends where 24 hours have passed exactly if the run was not created earlier
yesterday. -/
theorem window_iff (t : Timestamp) (h : t.unixSeconds ≤ unixNow) :
    (unixNow / 86400 - t.unixDay ≤ 1 ↔ unixNow - t.unixSeconds ≤ 86400) ↔
      ¬ CreatedEarlierYesterday t unixNow := by
  have hseconds := t.time.seconds_lt
  rw [CreatedEarlierYesterday]
  rw [Timestamp.unixSeconds] at h ⊢
  omega

/-- What is read out of a response has its failed runs of the last 24 hours, as long as none was
created earlier yesterday; a run whose time cannot be read is always kept. -/
theorem last_day_iff (hmax : unixNow ≤ i64Max) {response : HttpResponse} {runs : List Value}
    (hrows : rowsOfResponse codec .actions response = some runs) :
    readFailedRuns codec unixNow response =
        .ok ((runs.filterMap (failedRun codec unixNow)).take rowListLimit) ∧
      ∀ run ∈ runs, Failing codec run →
        (∀ t : Timestamp, rowText codec run "created_at" = t.text → t.unixSeconds ≤ unixNow →
          (((failedRun codec unixNow run).isSome ↔ unixNow - t.unixSeconds ≤ 86400) ↔
            ¬ CreatedEarlierYesterday t unixNow)) ∧
        (ageDays (rowText codec run "created_at") unixNow = none →
          (failedRun codec unixNow run).isSome) := by
  refine ⟨?_, fun run _ hfailing ↦ ⟨fun t htext hpast ↦ ?_, fun hnone ↦ ?_⟩⟩
  · rw [rowsOfResponse] at hrows
    split at hrows
    · next hstatus =>
      rw [CountedSignal.arrayKey] at hrows
      simp [readFailedRuns, hstatus, hrows]
    · cases hrows
  · rw [isSome_failedRun hfailing, htext, ageDays_text hpast hmax, ← window_iff t hpast]
    simp
  · rw [isSome_failedRun hfailing, hnone]
    intro days hdays
    cases hdays

end Window

/-- 2026-01-01T00:00:00Z. -/
def newYear : Timestamp where
  date := ⟨2026, 1, 1, by decide, by decide, by decide, by decide⟩
  time := ⟨0, 0, 0, by decide, by decide, by decide⟩
  year_lt := by decide

/-- A run that failed at that time. -/
def newYearRun : Value :=
  .object [("conclusion", .string "failure"), ("created_at", .string "2026-01-01T00:00:00Z"),
    ("html_url", .string "https://github.com/o/r/actions/runs/1"), ("name", .string "build")]

/-- The sample codec, with this run in a body. -/
def runsCodec : Codec :=
  { sampleCodec with
    fromStr := fun _ ↦ some (.object [("workflow_runs", .array [newYearRun])]) }

theorem last_day_iff_new_year :
    ((failedRun runsCodec (newYear.unixSeconds + 86400) newYearRun).isSome ↔
        newYear.unixSeconds + 86400 - newYear.unixSeconds ≤ 86400) ↔
      ¬ CreatedEarlierYesterday newYear (newYear.unixSeconds + 86400) := by
  have hmax : newYear.unixSeconds + 86400 ≤ i64Max := by decide +kernel
  have hfailing : Failing runsCodec newYearRun := ⟨by decide, by decide⟩
  have htext : rowText runsCodec newYearRun "created_at" = newYear.text := by decide +kernel
  have hrows : rowsOfResponse runsCodec .actions (plainResponse 200 "") = some [newYearRun] := rfl
  exact ((last_day_iff hmax hrows).2 newYearRun (List.mem_singleton_self _) hfailing).1 newYear
    htext (by omega)

/-- A run created at midnight is still counted a second before the end of the next day. -/
theorem run_of_two_days_kept :
    let unixNow := newYear.unixSeconds + 172799
    Failing runsCodec newYearRun ∧ rowText runsCodec newYearRun "created_at" = newYear.text ∧
      (readFailedRuns runsCodec unixNow (plainResponse 200 "")).map List.length = .ok 1 ∧
      ¬ ((failedRun runsCodec unixNow newYearRun).isSome ↔
        unixNow - newYear.unixSeconds ≤ 86400) := by
  have hfailing : Failing runsCodec newYearRun := ⟨by decide, by decide⟩
  refine ⟨hfailing, by decide +kernel, by decide +kernel, fun h ↦ ?_⟩
  have hkept : (failedRun runsCodec (newYear.unixSeconds + 172799) newYearRun).isSome := by
    decide +kernel
  have := h.mp hkept
  omega

end Daku.Signals
