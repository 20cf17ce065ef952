import Daku.Base.Float64
import Daku.Protocol.Health
import Daku.Protocol.Environment
import Mathlib.Algebra.Order.Floor.Ring
import Mathlib.Data.Rat.Floor

/-!
# Texts of a Signal

What the window writes about one snapshot: the label, the summary and the detail of
`src/dashboard_state.rs:70–91, 2275–2295, 2321–2601`.
-/

namespace Daku.Desktop

open Daku.Base Daku.Protocol

/-- `SIGNAL_IDS` (`dashboard_state.rs:12–28`). -/
def signalIds : List String :=
  ["availability", "jobs", "syslog", "mid_ecc", "outbound", "flow", "email", "upgrade", "sessions",
    "table_growth", "slow_txn", "update_sets", "scan", "drift", "last_clone"]

/-- `signal_ids_for` (`dashboard_state.rs:38–44`). -/
def signalIdsFor (platformId : String) : List String :=
  if platformId = "http" then ["http_probe"]
  else if platformId = "github" then ["actions"]
  else signalIds

/-- `is_voting_signal` (`dashboard_state.rs:59–61`). -/
def isVotingSignal (signalId : String) : Bool := signalId ∉ nonVotingSignals

/-- `signal_label` (`dashboard_state.rs:70–91`). -/
def signalLabel : String → String
  | "availability" => "Availability"
  | "jobs" => "Scheduled jobs"
  | "syslog" => "Syslog errors"
  | "mid_ecc" => "MID / ECC"
  | "outbound" => "Outbound"
  | "flow" => "Flow errors"
  | "email" => "Email failures"
  | "upgrade" => "Upgrades"
  | "sessions" => "Sessions"
  | "table_growth" => "Table growth"
  | "slow_txn" => "Slow transactions"
  | "update_sets" => "Update sets"
  | "scan" => "Instance Scan"
  | "http_probe" => "HTTP probe"
  | "actions" => "Actions"
  | "drift" => "Version / plugins"
  | "last_clone" => "Last clone"
  | _ => "Signal"

/-- A count of a payload, zero when it has none. -/
def countOf (value : Value) (key : String) : Nat := ((value.get key).bind Value.asU64).getD 0

/-- A text of a payload. -/
def textOf (value : Value) (key : String) : Option String := (value.get key).bind Value.asStr

/-- What an operation of `f64` leaves of a result below its largest number. -/
def nearestF64 (q : Rat) : Rat := (toF64 q).toRat.getD 0

theorem nearestF64_natCast {n : Nat} (h : n < 2 ^ 53) : nearestF64 n = n := by
  rw [nearestF64, toF64_natCast h]
  rfl

/-- A count in units, rounded to tenths, without a point before a zero
(`dashboard_state.rs:2278–2293`). Each operation rounds once more. -/
def inUnits (count unit : Nat) (suffix : String) : String :=
  let tenths := ⌊nearestF64 (nearestF64 (nearestF64 count / unit) * 10) + 1 / 2⌋
  let rounded := nearestF64 (tenths / 10)
  if rounded.den = 1 then s!"{⌊rounded⌋}{suffix}"
  else
    -- `{rounded:.1}`
    let shown := roundHalfEven (10 * rounded).num.natAbs (10 * rounded).den
    s!"{shown / 10}.{shown % 10}{suffix}"

/-- `compact_count` (`dashboard_state.rs:2275–2295`). -/
def compactCount (count : Nat) : String :=
  if 1000000 ≤ count then inUnits count 1000000 "M"
  else if 1000 ≤ count then inUnits count 1000 "K"
  else toString count

/-- Whole units have no point. -/
theorem inUnits_whole {k unit : Nat} (suffix : String) (hunit : unit ≠ 0)
    (h : k * unit < 2 ^ 53) (hten : k * 10 < 2 ^ 53) :
    inUnits (k * unit) unit suffix = s!"{k}{suffix}" := by
  have hk : k < 2 ^ 53 := by omega
  have hcount : nearestF64 ((k * unit : Nat) : Rat) / unit = k := by
    rw [nearestF64_natCast h, Nat.cast_mul, mul_div_cancel_right₀ _ (Nat.cast_ne_zero.mpr hunit)]
  have htimes : nearestF64 ((k : Rat) * 10) = ((k * 10 : Nat) : Rat) := by
    rw [← nearestF64_natCast hten, Nat.cast_mul, Nat.cast_ofNat]
  have htenths : ⌊((k * 10 : Nat) : Rat) + 1 / 2⌋ = ((k * 10 : Nat) : Int) := by
    have hhalf : ⌊(1 / 2 : Rat)⌋ = 0 := by decide +kernel
    rw [Int.floor_natCast_add, hhalf, add_zero]
  have hrounded : nearestF64 ((((k * 10 : Nat) : Int) : Rat) / 10) = k := by
    rw [Int.cast_natCast, Nat.cast_mul, Nat.cast_ofNat,
      mul_div_cancel_right₀ _ (by decide : (10 : Rat) ≠ 0), nearestF64_natCast hk]
  simp only [inUnits, hcount, nearestF64_natCast hk, htimes, htenths, hrounded]
  rw [if_pos (Rat.den_natCast k), Int.floor_natCast]
  rfl

/-- Whole thousands and millions are shown as such, as long as `f64` has them exactly. -/
theorem compactCount_whole {k : Nat} (hpos : 0 < k) :
    (k < 1000 → compactCount (k * 1000) = s!"{k}K") ∧
      (k * 1000000 < 2 ^ 53 → compactCount (k * 1000000) = s!"{k}M") := by
  constructor
  · intro h
    rw [compactCount, if_neg (by omega), if_pos (by omega)]
    exact inUnits_whole "K" (by decide) (by omega) (by omega)
  · intro h
    rw [compactCount, if_pos (by omega)]
    exact inUnits_whole "M" (by decide) h (by omega)

example : compactCount 41000 = "41K" := by decide +kernel

/-- `f64::round` of a time, as `u64`. -/
def roundMs (ms : Rat) : Nat := min ⌊ms + 1 / 2⌋.toNat u64Max

/-- Days in words (`dashboard_state.rs:2413–2416, 2540–2544`). -/
def daysAgo (days : Int) : String := if days = 1 then "1 day ago" else s!"{days} days ago"

/-- The summary of upgrades (`dashboard_state.rs:2407–2421`). -/
def summarizeUpgrade (value : Value) : String :=
  let failed := countOf value "failed_7d"
  if 0 < failed then s!"{failed} failed · last 7d"
  else
    match textOf value "last_to" with
    | some last =>
      match (value.get "last_age_days").bind Value.asI64 with
      | some days => last ++ " · " ++ daysAgo days
      | none => last
    | none => "No upgrades found"

/-- The summary of MID servers (`dashboard_state.rs:2364–2385`). -/
def summarizeMidEcc (value : Value) : String :=
  let total := countOf value "agents_total"
  let up := total - countOf value "agents_unhealthy"
  let ready := countOf value "ecc_output_ready"
  if total = 0 then "No MID servers" else s!"{up}/{total} MID up · queue {ready}"

/-- The summary of sessions (`dashboard_state.rs:2422–2434`). -/
def summarizeSessions (value : Value) : String :=
  let count := countOf value "active_sessions"
  if (value.get "truncated").bind Value.asBool = some true then "100+ active sessions"
  else if count = 1 then "1 active session"
  else s!"{count} active sessions"

/-- The summary of table growth (`dashboard_state.rs:2435–2451`). -/
def summarizeTableGrowth (value : Value) : String :=
  let tables := ((value.get "tables").bind Value.asArray).getD []
  let counts := tables.filterMap fun row ↦ (row.get "count").bind Value.asU64
  let rows := compactCount (counts.sum % 2 ^ 64)
  s!"{tables.length} tables · {rows} rows"

/-- The summary of update sets (`dashboard_state.rs:2460–2472`). -/
def summarizeUpdateSets (value : Value) : String :=
  match countOf value "open_count" with
  | 0 => "No open update sets"
  | 1 => "1 open update set"
  | count => s!"{count} open update sets"

/-- The summary of scan findings (`dashboard_state.rs:2473–2491`). -/
def summarizeScan (value : Value) : String :=
  let p1 := countOf value "p1_open"
  let p2 := countOf value "p2_open"
  if 0 < p1 ∧ 0 < p2 then s!"{p1} P1 · {p2} P2 findings"
  else if 0 < p1 then s!"{p1} P1 findings"
  else if 0 < p2 then s!"{p2} P2 findings"
  else "No open findings"

/-- The summary of drift (`dashboard_state.rs:2514–2530`). -/
def summarizeDrift (value : Value) : String :=
  if textOf value "role" = some "source" then "Source of truth"
  else
    match (value.get "mismatches").bind Value.asU64 with
    | some count =>
      let expected := countOf value "expected_mismatches"
      if 0 < expected then s!"{count} differ · {expected} expected" else s!"{count} plugins differ"
    | none => ""

/-- The summary of the last clone (`dashboard_state.rs:2531–2560`). -/
def summarizeLastClone (value : Value) : String :=
  if textOf value "role" = some "source" then
    match value.get "supported" with
    | some (.bool false) => "Clone source · cannot list clones"
    | _ => "Clone source"
  else
    match (value.get "age_days").bind Value.asI64 with
    | some days => daysAgo days
    | none =>
      if textOf value "unknown" = some "older_than_page" then "Not in the last 10 clones"
      else
        match value.get "completed" with
        | some .null => "No clone found"
        | _ => ""

/-- The summary of an availability row (`dashboard_state.rs:2338–2345`). -/
def summarizeAvailability (value : Value) : String :=
  match (value.get "rtt_ms").bind Value.asU64, textOf value "build" with
  | some ms, _ => s!"{ms} ms response time"
  | none, some build => build
  | none, none => ""

/-- The summary of workflow runs (`dashboard_state.rs:2503–2513`). -/
def summarizeActions (value : Value) : String :=
  match countOf value "failed_24h" with
  | 1 => "1 failed run · 24h"
  | failed => s!"{failed} failed runs · 24h"

/-- The summary of scheduled jobs (`dashboard_state.rs:2346–2356`). -/
def summarizeJobs (value : Value) : String :=
  let overdue := countOf value "overdue_ready"
  let error := countOf value "error"
  s!"{overdue} overdue · {error} in error"

/-- The summary of an HTTP probe (`dashboard_state.rs:2492–2502`). -/
def summarizeHttpProbe (value : Value) : String :=
  let status := countOf value "http_status"
  let ms := countOf value "rtt_ms"
  s!"{ms} ms · HTTP {status}"

/-- The arms of `summarize_value` (`dashboard_state.rs:2337–2562`). -/
def summarizeArm (signalId : String) (value : Value) : String :=
  match signalId with
  | "availability" => summarizeAvailability value
  | "jobs" => summarizeJobs value
  | "syslog" => toString (countOf value "error_count_1h") ++ " errors · last hour"
  | "mid_ecc" => summarizeMidEcc value
  | "outbound" =>
    toString (countOf value "outbound_http_4xx_5xx_1h") ++ " HTTP failures · last hour"
  | "flow" => toString (countOf value "flow_error_1h") ++ " flow errors · last hour"
  | "email" => toString (countOf value "email_failed_1h") ++ " email failures · last hour"
  | "upgrade" => summarizeUpgrade value
  | "sessions" => summarizeSessions value
  | "table_growth" => summarizeTableGrowth value
  | "slow_txn" =>
    toString ((((value.get "transaction_avg_ms").bind Value.asF64).map roundMs).getD 0) ++
      " ms avg transaction · last hour"
  | "update_sets" => summarizeUpdateSets value
  | "scan" => summarizeScan value
  | "http_probe" => summarizeHttpProbe value
  | "actions" => summarizeActions value
  | "drift" => summarizeDrift value
  | "last_clone" => summarizeLastClone value
  | _ => ""

/-- `summarize_value` (`dashboard_state.rs:2321–2563`). -/
def summarizeValue (signalId : String) (value : Value) : String :=
  match value with
  | .null => ""
  | value =>
    if (value.get "skipped").isSome then ""
    -- The payload of a failed probe has no counts to report.
    else if textOf value "reachability" = some "unreachable" ∧ (value.get "detail").isSome then ""
    else summarizeArm signalId value

/-- Why a probe was skipped, in words (`dashboard_state.rs:2568–2578`). -/
def skippedWords : String → String
  | "asleep" => "Environment asleep"
  | "unreachable" => "Environment unreachable"
  | "need_two_environments" => "Needs two Environments"
  | "no_clone_source" => "No clone source configured"
  | "clone_source_cannot_list_clones" => "Clone source cannot list clones"
  | "clone_source_unreachable" => "Clone source unreachable"
  | "clone_source_asleep" => "Clone source asleep"
  | "scan_unavailable" => "Instance Scan unavailable"
  | other => other

/-- At most 160 characters. -/
def shorten (text : String) : String := String.ofList (text.toList.take 160)

/-- `detail_from_value` (`dashboard_state.rs:2565–2601`). -/
def detailFromValue (signalId : String) (value : Value) : String :=
  match textOf value "skipped" with
  | some reason => skippedWords reason
  | none =>
    if (value.get "throttled").bind Value.asBool = some true then
      match textOf value "throttled_detail" with
      | some detail => shorten detail
      | none => "throttled by ServiceNow (HTTP 429)"
    else if signalId = "drift" ∧ (value.get "truncated").bind Value.asBool = some true then
      "partial inventory — plugin counts may be incomplete"
    else (((textOf value "error").or (textOf value "detail")).map shorten).getD ""

end Daku.Desktop
