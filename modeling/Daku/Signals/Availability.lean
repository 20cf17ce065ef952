import Daku.Collector.Collect
import Daku.Http.Rules

/-!
# Availability of an Environment

The Signal of `crates/daku-core/src/availability.rs:20–95` and `150–230`, the rows of
`signal_eval.rs:17–71`, and the map of other probes onto the same shape. The elapsed time of a
probe is given from outside.
-/

namespace Daku.Signals

open Daku.Base Daku.Protocol Daku.Http Daku.Collector

/-- `AvailabilityObservation` (`availability.rs:20–27`). -/
structure AvailabilityObservation where
  reachability : Reachability
  state : SignalState
  build : Option String
  rttMs : Nat
  error : Option String
  deriving DecidableEq, Repr

/-- `THROTTLED_DETAIL` (`servicenow.rs:15`). -/
def throttledDetail : String := "throttled by ServiceNow (HTTP 429); retry budget exhausted"

/-- `GLIDE_WAR_PATH` (`availability.rs:17`). -/
def glideWarPath : String :=
  "/api/now/table/sys_properties?sysparm_query=name=glide.war&sysparm_fields=value&sysparm_limit=1"

/-- `row_text` (`signal_eval.rs:19–25`). -/
def rowText (codec : Codec) (row : Value) (key : String) : String :=
  match row.get key with
  | some (.string text) => text
  | some (.number n) => codec.numberText n
  | _ => ""

/-- `evaluate_ge` (`signal_eval.rs:65–71`). -/
def evaluateGe (count degradedAt : Nat) : SignalState :=
  if degradedAt ≤ count then .degraded else .healthy

/-- `redact_url` (`signal_eval.rs:29–32`). -/
def redactUrl (url : String) : String :=
  (splitChar '?' ((splitChar '#' url).headD "")).headD ""

/-- `is_hibernating` (`availability.rs:76–80`). -/
def isHibernating (contentType body : String) : Bool :=
  let html := containsText "html" (toAsciiLowercase contentType) ||
    containsText "<html" (toAsciiLowercase body)
  html && containsText "hibernat" (toAsciiLowercase body)

/-- `looks_like_table_api` (`availability.rs:82–87`). -/
def looksLikeTableApi (codec : Codec) (body : String) : Bool :=
  (((codec.fromStr body).bind fun v ↦ v.get "result").bind Value.asArray).isSome

/-- `parse_glide_war` (`availability.rs:241–253`). -/
def parseGlideWar (codec : Codec) (body : String) : Option String := do
  let value ← codec.fromStr body
  let rows ← (← value.get "result").asArray
  let build ← (← (← rows.head?).get "value").asStr
  if build = "" then none else some build

/-- `classify_availability_response` (`availability.rs:29–61`). -/
def classifyAvailabilityResponse (codec : Codec) (status : Nat) (contentType body : String)
    (rttMs : Nat) : AvailabilityObservation :=
  if isHibernating contentType body then ⟨.asleep, .healthy, none, rttMs, none⟩
  else if status = 200 ∧ looksLikeTableApi codec body then
    ⟨.reachable, .healthy, parseGlideWar codec body, rttMs, none⟩
  else ⟨.unreachable, .down, none, rttMs, if status = 429 then some throttledDetail else none⟩

/-- `apply_rtt_threshold` (`availability.rs:189–204`). -/
def applyRttThreshold (observation : AvailabilityObservation) (thresholds : Thresholds) :
    AvailabilityObservation :=
  let maxMs := thresholds.availabilityRttDegradedMs.getD availabilityRttDefaultMs
  if observation.reachability ≠ .reachable ∨ observation.rttMs ≤ maxMs then observation
  else { observation with
    state := .degraded
    error := some s!"rtt {observation.rttMs} ms > {maxMs} ms" }

/-- A program whose error is a value. -/
def attemptResult {α : Type} (x : ClientM α) : ClientM (Except String α) := fun s ↦
  match x s with
  | .ok a t => .ok (.ok a) t
  | .error e t => .ok (.error e) t

/-- The value tells result and error apart, the state is the same. -/
theorem attemptResult_spec {α : Type} {x : ClientM α} {P : Session → Prop}
    {Q : α → Session → Prop} {E F : String → Session → Prop} (h : Triple P x Q E) :
    Triple P (attemptResult x)
      (fun r s ↦ match r with
        | .ok a => Q a s
        | .error e => E e s) F := by
  intro s hs
  have h := h s hs
  unfold attemptResult
  cases hx : x s with
  | ok a t => rwa [hx] at h
  | error e t => rwa [hx] at h

/-- What `observe` makes of the end of its request (`availability.rs:161–176`). -/
def observed (codec : Codec) (thresholds : Thresholds) (rttMs : Nat) :
    Except String HttpResponse → AvailabilityObservation
  | .ok response => applyRttThreshold (classifyAvailabilityResponse codec response.status
      ((response.header "content-type").getD "") response.body rttMs) thresholds
  | .error e => applyRttThreshold ⟨.unreachable, .down, none, rttMs, some e⟩ thresholds

/-- `AvailabilitySignal::observe` (`availability.rs:153–177`). -/
def observe (codec : Codec) (environment : EnvironmentConfig) (credentials : CredentialStore)
    (rttMs : Nat) : ClientM AvailabilityObservation := do
  let result ← attemptResult (request codec environment credentials "GET" glideWarPath none)
  pure (observed codec environment.thresholds rttMs result)

/-- `observe_probe_signal` (`availability.rs:258–288`). -/
def observeProbeSignal (probe : ClientM Observation) : ClientM AvailabilityObservation := do
  match ← attemptResult probe with
  | .ok observation =>
    pure ⟨.reachable, observation.state, none,
      ((observation.payload.get "rtt_ms").bind Value.asU64).getD 0, none⟩
  | .error e => pure ⟨.unreachable, .down, none, 0, some e⟩

variable {I P : Session → Prop} {ε : String → Session → Prop}

theorem observe_spec {codec : Codec} {environment : EnvironmentConfig}
    {credentials : CredentialStore} {rttMs : Nat}
    (h : Triple P (request codec environment credentials "GET" glideWarPath none)
      (fun _ s ↦ I s) (fun _ s ↦ I s)) :
    Triple P (observe codec environment credentials rttMs) (fun _ s ↦ I s) ε := by
  refine Triple.bind _ (attemptResult_spec h) fun result ↦ Triple.pure fun s hs ↦ ?_
  cases result <;> exact hs

theorem observeProbeSignal_spec {probe : ClientM Observation}
    (h : Triple P probe (fun _ s ↦ I s) (fun _ s ↦ I s)) :
    Triple P (observeProbeSignal probe) (fun _ s ↦ I s) ε := by
  refine Triple.bind _ (attemptResult_spec h) fun result ↦ ?_
  cases result <;> exact Triple.pure fun _ hs ↦ hs

end Daku.Signals
