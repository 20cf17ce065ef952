import Daku.Base.Sums
import Daku.Base.Text
import Daku.Protocol.Health
import Mathlib.Algebra.Order.Floor.Ring
import Mathlib.Data.Rat.Floor

/-!
# Typed payloads

What a payload means, by the id of its Signal: `crates/daku-protocol/src/payload.rs:17–168`.
-/

namespace Daku.Protocol

open Daku.Base

/-- `TypedPayload` (`payload.rs:19–42`). -/
inductive TypedPayload where
  | availability (reachability : Reachability) (build : Option String) (rttMs : Option ℕ)
      (error : Option String)
  | drift (role : Option String) (buildMatches : Option Bool) (mismatched expected : ℕ)
  | count (count : ℕ)
  | skipped (reason : String)
  | down (reachability : String) (detail : Option String)
  | unknown
  deriving DecidableEq, Repr

/-- `count`: the first key that holds a count (`payload.rs:52–59`). -/
def countAt (value : Value) (keys : List String) : Option ℕ :=
  keys.findSome? fun key ↦ (value.get key).bind fun item ↦
    item.asU64 <|> item.asStr.bind parseU64

/-- A number of a payload, zero if there is none (`payload.rs:144–153`). -/
def numberAt (payload : Value) (key : String) : ℕ := ((payload.get key).bind Value.asU64).getD 0

/-- The keys that make a payload of the jobs Signal a count (`payload.rs:142`). -/
def jobsKeys : List String := ["overdue_ready", "error", "error_count", "count"]

/-- `as u64` of an `f64`: cut off, and held in the range. -/
def truncU64 (q : ℚ) : ℕ := min ⌊q⌋.toNat (2 ^ 64 - 1)

/-- `count_for` with or without overflow checks; nothing is a panic (`payload.rs:139–168`). -/
def countForIn (checks : Bool) (signalId : String) (payload : Value) : Option (Option ℕ) :=
  match signalId with
  | "jobs" =>
    match countAt payload jobsKeys with
    | some _ =>
      (addU64 checks (numberAt payload "overdue_ready") (numberAt payload "error")).map some
    | none => some none
  | "syslog" => some (countAt payload ["error_count_1h", "count"])
  | "outbound" => some (countAt payload ["outbound_http_4xx_5xx_1h", "count"])
  | "flow" => some (countAt payload ["flow_error_1h", "count"])
  | "email" => some (countAt payload ["email_failed_1h", "count"])
  | "mid_ecc" => some (countAt payload ["agents_unhealthy", "ecc_error", "count"])
  | "upgrade" => some (countAt payload ["failed_7d", "count"])
  | "update_sets" => some (countAt payload ["open_count", "count"])
  | "scan" => some (countAt payload ["p1_open", "count"])
  | "actions" => some (countAt payload ["failed_24h", "count"])
  | "slow_txn" =>
    some (((payload.get "avg_ms").bind Value.asF64).map truncU64 <|> countAt payload ["count"])
  | _ => some (countAt payload ["count", "open_count", "failed_7d", "failed_24h"])

/-- `count_for` as a release build has it. -/
def countFor (signalId : String) (payload : Value) : Option ℕ :=
  (countForIn false signalId payload).getD none

/-- The entries of an array. -/
def lengthAt (payload : Value) (key : String) : Option ℕ :=
  ((payload.get key).bind Value.asArray).map List.length

/-- A failed probe without a count of its own (`payload.rs:81–97`). -/
def isDown (signalId : String) (payload : Value) : Bool :=
  textIs "reachability" "unreachable" && (text payload "build").isNone &&
    signalId != "availability" && (payload.get "skipped").isNone &&
    (countAt payload ["count"]).isNone && (countFor signalId payload).isNone
where
  /-- The field is this text. -/
  textIs (key expected : String) : Bool := (payload.get key).bind Value.asStr == some expected

/-- `parse` (`payload.rs:76–132`). -/
def parsePayload (signalId : String) (payload : Value) : TypedPayload :=
  match text payload "skipped" with
  | some reason => .skipped reason
  | none =>
    if isDown signalId payload then
      .down "unreachable" (text payload "detail" <|> text payload "error")
    else
      match signalId with
      | "availability" | "http_probe" =>
        .availability (parseReachability payload) (parseBuild payload)
          ((payload.get "rtt_ms").bind Value.asU64)
          (text payload "error" <|> text payload "detail")
      | "drift" =>
        .drift (text payload "role") ((payload.get "build_matches").bind Value.asBool)
          (((payload.get "mismatches").bind Value.asU64 <|> lengthAt payload "mismatches").getD 0)
          ((lengthAt payload "expected" <|>
            (payload.get "expected_count").bind Value.asU64).getD 0)
      | id =>
        match countFor id payload with
        | some n => .count n
        | none => .unknown

/-- `drift_role` (`payload.rs:171–173`). -/
def driftRole (payload : Value) : Option String := text payload "role"

/-- `drift_mismatch` (`payload.rs:178–188`). -/
def driftMismatch (payload : Value) : Bool :=
  (payload.get "build_matches").bind Value.asBool = some false ||
    ((payload.get "mismatches").bind Value.asU64).any (0 < ·) ||
    (lengthAt payload "mismatches").any (0 < ·)

theorem countForIn_false (signalId : String) (payload : Value) :
    countForIn false signalId payload = some (countFor signalId payload) := by
  have hsome : (countForIn false signalId payload).isSome := by
    unfold countForIn
    split
    · split
      · rw [addU64_unchecked]
        rfl
      · rfl
    all_goals rfl
  rw [countFor]
  obtain ⟨n, hn⟩ := Option.isSome_iff_exists.mp hsome
  rw [hn]
  rfl

/-- A payload reads as skipped exactly if it has the reason. -/
theorem parsePayload_eq_skipped {signalId reason : String} {payload : Value} :
    parsePayload signalId payload = .skipped reason ↔ text payload "skipped" = some reason := by
  unfold parsePayload
  split
  · next htext => rw [htext, TypedPayload.skipped.injEq, Option.some.injEq]
  · next htext =>
    refine iff_of_false ?_ (htext ▸ (Option.some_ne_none reason).symm)
    split
    · simp
    · split
      iterate 3 simp
      split <;> simp

/-- A payload that is neither skipped nor down has its count, if its Signal is one of counts. -/
theorem parsePayload_of_count {signalId : String} {payload : Value} {n : ℕ}
    (hsignal : signalId ∉ ["availability", "http_probe", "drift"])
    (hskipped : text payload "skipped" = none) (hdown : isDown signalId payload = false)
    (hcount : countFor signalId payload = some n) : parsePayload signalId payload = .count n := by
  rw [parsePayload, hskipped]
  dsimp only
  rw [hdown, if_neg Bool.false_ne_true]
  · rw [hcount]
  all_goals
    rintro rfl
    simp at hsignal

end Daku.Protocol
