import Daku.Base.Float64
import Daku.Http.Replies
import Daku.Signals.Platforms

/-!
# Counts, averages and rows

What probes read out of ServiceNow: the counts and averages of the Aggregate API
(`crates/daku-core/src/servicenow.rs:394–463`) and the rows of the Table API
(`signal_eval.rs:34–144`), tolerant where the rows only back the drill-in and strict where they
are what is counted.
-/

namespace Daku.Signals

open Daku.Base Daku.Protocol Daku.Http Daku.Collector Daku.Store

/-- Texts of error messages that libraries write. -/
structure Texts where
  /-- A document as compact JSON. -/
  value : ToText
  /-- What `serde_json` says of a text that is no JSON. -/
  jsonError : String → String
  /-- A text with `{:?}`. -/
  debug : String → String

/-- `is_rate_limited` (`servicenow.rs:18–20`). -/
def isRateLimited (status : Nat) : Bool := status = 429

/-- `Value::pointer` along object keys. -/
def pointer (value : Value) (path : List String) : Option Value :=
  path.foldlM Value.get value

/-- `parse_aggregate_count` (`servicenow.rs:394–410`). -/
def parseAggregateCount (codec : Codec) (texts : Texts) (body : String) : Except String Nat :=
  match codec.fromStr body with
  | none => .error (texts.jsonError body)
  | some value =>
    match pointer value ["result", "stats", "count"] with
    | none => .error "aggregate response missing result.stats.count"
    | some (.string text) =>
      match parseU64 text with
      | some count => .ok count
      | none => .error s!"aggregate count {texts.debug text}"
    | some (.number number) =>
      match (Value.number number).asU64 with
      | some count => .ok count
      | none => .error s!"aggregate count {codec.numberText number} is not a u64"
    | some other => .error s!"aggregate count {texts.value other} is not a string or number"

/-- `parse_aggregate_avg` (`servicenow.rs:428–446`). -/
def parseAggregateAvg (codec : Codec) (texts : Texts) (body field : String) : Except String F64 :=
  match codec.fromStr body with
  | none => .error (texts.jsonError body)
  | some value =>
    match pointer value ["result", "stats", "avg", field] with
    | none => .error s!"aggregate response missing result.stats.avg.{field}"
    | some (.string text) =>
      match parseF64 text with
      | some average => .ok average
      | none => .error s!"aggregate avg {texts.debug text}"
    | some (.number number) =>
      match (Value.number number).asF64 with
      | some average => .ok (toF64 average)
      | none => .error s!"aggregate avg {codec.numberText number} is not a number"
    | some other => .error s!"aggregate avg {texts.value other} is not a string or number"

/-- What an aggregate is read from (`servicenow.rs:419–425, 456–462`). -/
def readAggregate {α : Type} (parse : String → Except String α) (response : HttpResponse) :
    Except String α :=
  if isRateLimited response.status then .error throttledDetail
  else if response.status ≠ 200 then .error s!"HTTP {response.status}"
  else parse response.body

/-- `parse_result_array` (`signal_eval.rs:34–46`). -/
def parseResultArray (codec : Codec) (body : String) : List Value :=
  (((codec.fromStr body).bind fun v ↦ v.get "result").bind Value.asArray).getD []

/-- `parse_result_array_required` (`signal_eval.rs:48–60`). -/
def parseResultArrayRequired (codec : Codec) (body : String) : Except String (List Value) :=
  match ((codec.fromStr body).bind fun v ↦ v.get "result").bind Value.asArray with
  | some items => .ok items
  | none => .error "response has no result array"

/-- `take_bounded` (`collector.rs:49–59`). -/
def takeBounded {α : Type} (rows : List α) : List α × Bool :=
  (rows.take rowListLimit, rowListLimit ≤ rows.length)

/-- What `fetch_table_rows_required` reads out of its response (`signal_eval.rs:131–143`). -/
def readTableRows {α : Type} (codec : Codec) (map : Value → Option α) (response : HttpResponse) :
    Except String (List α × Bool) :=
  if isRateLimited response.status then .error throttledDetail
  else if response.status ≠ 200 then .error s!"HTTP {response.status}"
  else do
    let items ← parseResultArrayRequired codec response.body
    return takeBounded (items.filterMap map)

/-- What `fetch_table_rows_with_throttle` reads out of the end of its request
(`signal_eval.rs:105–118`). -/
def readRowsTolerantly {α : Type} (codec : Codec) (map : Value → Option α) :
    Except String HttpResponse → (List α × Bool) × Bool
  | .error _ => (([], false), false)
  | .ok response =>
    if isRateLimited response.status then (([], false), true)
    else if response.status ≠ 200 then (([], false), false)
    else (takeBounded ((parseResultArray codec response.body).filterMap map), false)

section Fetch

variable {α : Type} (codec : Codec) (texts : Texts) (environment : EnvironmentConfig)
  (credentials : CredentialStore)

/-- A `GET` request of the client. -/
def getPath (path : String) : ClientM HttpResponse :=
  request codec environment credentials "GET" path none

/-- `fetch_aggregate_count` (`servicenow.rs:412–426`). -/
def fetchAggregateCount (path : String) : ClientM Nat := do
  let response ← getPath codec environment credentials path
  ofExcept (readAggregate (parseAggregateCount codec texts) response)

/-- `fetch_aggregate_avg` (`servicenow.rs:448–463`). -/
def fetchAggregateAvg (path field : String) : ClientM F64 := do
  let response ← getPath codec environment credentials path
  ofExcept (readAggregate (parseAggregateAvg codec texts · field) response)

/-- `fetch_table_rows_with_throttle` (`signal_eval.rs:91–118`). -/
def fetchTableRowsWithThrottle (path : String) (map : Value → Option α) :
    ClientM ((List α × Bool) × Bool) := do
  let result ← attemptResult (getPath codec environment credentials path)
  pure (readRowsTolerantly codec map result)

/-- `fetch_table_rows` (`signal_eval.rs:73–89`). -/
def fetchTableRows (path : String) (map : Value → Option α) : ClientM (List α × Bool) := do
  let rows ← fetchTableRowsWithThrottle codec environment credentials path map
  pure rows.1

/-- `fetch_table_rows_required` (`signal_eval.rs:120–144`). -/
def fetchTableRowsRequired (path : String) (map : Value → Option α) :
    ClientM (List α × Bool) := do
  let response ← getPath codec environment credentials path
  ofExcept (readTableRows codec map response)

end Fetch

section Outcome

variable {α β : Type} {s : Session}

theorem outcome_pure (a : α) : outcome (pure a) s = .ok a := rfl

theorem eq_of_outcome_pure {a b : α} (h : outcome (pure a) s = .ok b) : a = b :=
  Except.ok.inj h

theorem outcome_ofExcept (x : Except String α) : outcome (ofExcept x) s = x := by
  cases x <;> rfl

theorem exists_of_isOk {x : ClientM α} (h : (outcome x s).isOk) : ∃ a, outcome x s = .ok a := by
  cases hx : outcome x s with
  | ok a => exact ⟨a, rfl⟩
  | error e =>
    rw [hx] at h
    cases h

/-- A sequence ends with the first error, else as its second program. -/
theorem outcome_bind (x : ClientM α) (f : α → ClientM β) :
    outcome (x >>= f) s = (outcome x s).bind fun a ↦ outcome (f a) (final (x s)) := by
  unfold outcome
  simp only [bind, EStateM.bind]
  cases x s <;> rfl

/-- A sequence that ends has both its parts end. -/
theorem ok_of_outcome_bind {x : ClientM α} {f : α → ClientM β} {b : β}
    (h : outcome (x >>= f) s = .ok b) :
    ∃ a, outcome x s = .ok a ∧ outcome (f a) (final (x s)) = .ok b := by
  rw [outcome_bind] at h
  cases hx : outcome x s with
  | error e =>
    rw [hx] at h
    cases h
  | ok a =>
    rw [hx] at h
    exact ⟨a, rfl, h⟩

/-- What is left of a sequence whose first program is known to end. -/
theorem outcome_rest {x : ClientM α} {f : α → ClientM β} {a : α} {b : β}
    (h : outcome (x >>= f) s = .ok b) (hx : outcome x s = .ok a) :
    outcome (f a) (final (x s)) = .ok b := by
  rw [outcome_bind, hx] at h
  exact h

theorem ok_of_outcome_ofExcept_bind {y : Except String α} {f : α → ClientM β} {b : β}
    (h : outcome (ofExcept y >>= f) s = .ok b) : ∃ a, y = .ok a ∧ outcome (f a) s = .ok b := by
  cases y with
  | error e => cases h
  | ok a => exact ⟨a, rfl, h⟩

/-- An attempt ends with the end of the program as its value. -/
theorem attemptResult_eq (x : ClientM α) :
    attemptResult x s = .ok (outcome x s) (final (x s)) := by
  unfold attemptResult outcome
  cases x s <;> rfl

theorem outcome_attemptResult_bind (x : ClientM α) (f : Except String α → ClientM β) :
    outcome (attemptResult x >>= f) s = outcome (f (outcome x s)) (final (x s)) := by
  rw [outcome_bind]
  unfold outcome
  rw [attemptResult_eq]
  rfl

end Outcome

end Daku.Signals
