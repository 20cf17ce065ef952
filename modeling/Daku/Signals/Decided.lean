import Daku.Environments.Registry
import Daku.Signals.Probes

/-!
# What decides a state

Each voting Signal decides its state from the answers to a few requests and sends others only for
the rows of the drill-in. `stateOf` is the decision as a function of those answers, and every
probe ends with it, whatever the other requests are answered.
-/

namespace Daku.Signals

open Daku.Base Daku.Protocol Daku.Http Daku.Collector

/-- The voting Signals other than availability that probe one Environment. -/
inductive VotingSignal where
  | jobs
  | syslog
  | midEcc
  | outbound
  | flow
  | email
  | upgrade
  | slowTxn
  | updateSets
  | scan
  | httpProbe
  | actions
  deriving DecidableEq, Repr

/-- The ids of these Signals. -/
def VotingSignal.id : VotingSignal → String
  | jobs => "jobs"
  | syslog => "syslog"
  | midEcc => "mid_ecc"
  | outbound => "outbound"
  | flow => "flow"
  | email => "email"
  | upgrade => "upgrade"
  | slowTxn => "slow_txn"
  | updateSets => "update_sets"
  | scan => "scan"
  | httpProbe => "http_probe"
  | actions => "actions"

/-- What a probe is given. -/
structure ProbeInput where
  codec : Codec
  texts : Texts
  environment : EnvironmentConfig
  credentials : CredentialStore
  unixNow : Int
  rttMs : Nat

/-- What the body of an answer is read as. -/
inductive Shape where
  | count
  | average
  | result
  | workflowRuns
  | anything
  deriving DecidableEq, Repr

/-- The request of an Actions probe, after the checks that need none (`github.rs:140–150`). -/
def sendActions (codec : Codec) (environment : EnvironmentConfig) (credentials : CredentialStore) :
    ClientM HttpResponse :=
  match splitGithubRepo environment.instanceUrl with
  | none => throw "github instance_url must look like https://github.com/<owner>/<repo>"
  | some (owner, repo) => do
    let token ← ofExcept (bearerToken codec environment.id credentials)
    execute (actionsRequest token owner repo) (some (credentials.origin environment.id))

/-- The request of an HTTP probe (`http_probe.rs:74–87`). -/
def sendHttpProbe (codec : Codec) (environment : EnvironmentConfig)
    (credentials : CredentialStore) : ClientM HttpResponse :=
  let header := storedBasicHeader codec environment.id credentials
  execute (httpProbeRequest environment header)
    (header.map fun _ ↦ credentials.origin environment.id)

namespace VotingSignal

/-- The probe of a Signal. -/
def probe (x : ProbeInput) : VotingSignal → ClientM Observation
  | jobs => jobsProbe x.codec x.texts x.environment x.credentials
  | syslog => syslogProbe x.codec x.texts x.environment x.credentials
  | midEcc => midEccProbe x.codec x.texts x.environment x.credentials
  | outbound => outboundProbe x.codec x.texts x.environment x.credentials
  | flow => flowProbe x.codec x.texts x.environment x.credentials
  | email => emailProbe x.codec x.texts x.environment x.credentials
  | upgrade => upgradeProbe x.codec x.environment x.credentials x.unixNow
  | slowTxn => transactionProbe x.codec x.texts x.environment x.credentials
  | updateSets => updateSetsProbe x.codec x.environment x.credentials
  | scan => scanProbe x.codec x.environment x.credentials
  | httpProbe => Signals.httpProbe x.codec x.environment x.credentials x.rttMs
  | actions => actionsProbe x.codec x.environment x.credentials x.unixNow

/-- The requests whose answers decide the state, in the order they are sent, and what the bodies
are read as. -/
def decisive (x : ProbeInput) : VotingSignal → List (Shape × ClientM HttpResponse)
  | jobs => [(.count, get jobsOverduePath), (.count, get jobsErrorPath)]
  | syslog => [(.count, get syslogErrorPath)]
  | midEcc =>
    [(.result, get eccAgentsPath), (.count, get eccOutputReadyPath), (.count, get eccErrorPath)]
  | outbound => [(.count, get outboundHttpPath)]
  | flow => [(.count, get flowErrorPath)]
  | email => [(.count, get emailFailurePath)]
  | upgrade => [(.result, get upgradeHistoryPath)]
  | slowTxn => [(.average, get transactionAvgPath)]
  | updateSets => [(.result, get updateSetsPath)]
  | scan => [(.result, get scanFindingsPath)]
  | httpProbe => [(.anything, sendHttpProbe x.codec x.environment x.credentials)]
  | actions => [(.workflowRuns, sendActions x.codec x.environment x.credentials)]
where
  /-- A request of the client for the probe. -/
  get (path : String) : ClientM HttpResponse := getPath x.codec x.environment x.credentials path

/-- The state these answers decide, or the first error among them. -/
def stateOf (x : ProbeInput) : VotingSignal → List (Except String HttpResponse) →
    Except String SignalState
  | jobs, [overdue, error] => do
    let overdueReady ← overdue.bind readCount
    let error ← error.bind readCount
    return jobsState overdueReady error x.environment.thresholds
  | syslog, [a] => do return syslogState (← a.bind readCount) x.environment.thresholds
  | midEcc, [agents, ready, error] => do
    let agents ← agents.bind (readMidAgents x.codec x.texts)
    let ready ← ready.bind readCount
    let error ← error.bind readCount
    return midEccState agents.2.length error ready x.environment.thresholds
  | outbound, [a] => do return outboundState (← a.bind readCount) x.environment.thresholds
  | flow, [a] => do return flowState (← a.bind readCount) x.environment.thresholds
  | email, [a] => do return emailState (← a.bind readCount) x.environment.thresholds
  | upgrade, [a] => do
    let upgrades ← a.bind (readUpgrades x.codec)
    return upgradeState (failedUpgrades x.unixNow upgrades) x.environment.thresholds
  | slowTxn, [a] => do
    let avgMs ← a.bind (readAggregate (parseAggregateAvg x.codec x.texts · transactionAvgField))
    return transactionState avgMs x.environment.thresholds
  | updateSets, [a] => do
    let sets ← a.bind (readTableRows x.codec (updateSetRow x.codec))
    return updateSetsState (sets.1.filter fun row ↦ updateSetOpen row.state).length
      x.environment.thresholds
  | scan, [a] => do
    let findings ← a.bind (readFindings x.codec)
    return (scanObservation x.environment.thresholds findings).state
  | httpProbe, [a] => do
    let response ← a
    return httpProbeState response.status (min x.rttMs (2 ^ 32 - 1)) x.environment.thresholds
  | actions, [a] => do
    let runs ← a.bind (readFailedRuns x.codec x.unixNow)
    return evaluateGe runs.length x.environment.thresholds.actionsFailedDegradedAt
  | _, _ => .error ""
where
  /-- The count an answer holds. -/
  readCount (response : HttpResponse) : Except String Nat :=
    readAggregate (parseAggregateCount x.codec x.texts) response

end VotingSignal

/-- The answers to requests sent one after the other. -/
def answersOf : List (Shape × ClientM HttpResponse) → Session →
    List (Shape × Except String HttpResponse)
  | [], _ => []
  | (shape, send) :: rest, s => (shape, outcome send s) :: answersOf rest (final (send s))

section Reads

variable {α β : Type} {s : Session}

/-- Reading an answer sends nothing. -/
theorem final_bind_ofExcept (x : ClientM α) (f : α → Except String β) :
    final ((do let a ← x; ofExcept (f a) : ClientM β) s) = final (x s) := by
  simp only [bind, EStateM.bind]
  cases x s with
  | error e t => rfl
  | ok a t => cases h : f a <;> simp [ofExcept, h] <;> rfl

/-- The rows never fail. -/
theorem exists_outcome_fetchTableRowsWithThrottle {ρ : Type} (codec : Codec)
    (environment : EnvironmentConfig) (credentials : CredentialStore) (path : String)
    (map : Value → Option ρ) (s : Session) :
    ∃ rows, outcome (fetchTableRowsWithThrottle codec environment credentials path map) s =
      .ok rows := by
  rw [fetchTableRowsWithThrottle, outcome_attemptResult_bind, outcome_pure]
  exact ⟨_, rfl⟩

theorem exists_outcome_rowsOf {ρ : Type} (codec : Codec) (environment : EnvironmentConfig)
    (credentials : CredentialStore) (count : Nat) (path : String) (map : Value → Option ρ)
    (s : Session) :
    ∃ rows, outcome (rowsOf codec environment credentials count path map) s = .ok rows := by
  rw [rowsOf]
  split
  · exact exists_outcome_fetchTableRowsWithThrottle _ _ _ _ _ _
  · exact ⟨_, outcome_pure _⟩

theorem exists_outcome_slowRowsOf (codec : Codec) (environment : EnvironmentConfig)
    (credentials : CredentialStore) (state : SignalState) (s : Session) :
    ∃ rows, outcome (slowRowsOf codec environment credentials state) s = .ok rows := by
  rw [slowRowsOf]
  split
  · obtain ⟨rows, hrows⟩ := exists_outcome_fetchTableRowsWithThrottle codec environment
      credentials transactionSlowRowsPath (slowRow codec) s
    rw [fetchTableRows, outcome_bind, hrows]
    exact ⟨_, rfl⟩
  · exact ⟨_, outcome_pure _⟩

/-- The state does not depend on a program that never fails. -/
theorem map_state_bind {ρ : Type} {rows : ClientM ρ} {f : ρ → ClientM Observation}
    {r : Except String SignalState} (hrows : ∃ a, outcome rows s = .ok a)
    (hf : ∀ a t, (outcome (f a) t).map Observation.state = r) :
    (outcome (rows >>= f) s).map Observation.state = r := by
  obtain ⟨a, ha⟩ := hrows
  rw [outcome_bind, ha]
  exact hf a _

/-- What is read decides, or the error in its place. -/
theorem map_state_ofExcept_bind {y : Except String α} {f : α → ClientM Observation}
    {g : α → Except String SignalState}
    (h : ∀ a t, (outcome (f a) t).map Observation.state = g a) :
    (outcome (ofExcept y >>= f) s).map Observation.state = y >>= g := by
  rw [outcome_bind, outcome_ofExcept]
  cases y with
  | error e => rfl
  | ok a => exact h a _

/-- The answer to a request, once read, decides. -/
theorem map_state_read {send : ClientM HttpResponse} {read : HttpResponse → Except String α}
    {f : α → ClientM Observation} {g : α → Except String SignalState}
    (h : ∀ a t, (outcome (f a) t).map Observation.state = g a) :
    (outcome (do let response ← send; let a ← ofExcept (read response); f a) s).map
      Observation.state = (outcome send s).bind read >>= g := by
  rw [outcome_bind]
  cases outcome send s with
  | error e => rfl
  | ok response => exact map_state_ofExcept_bind h

/-- So it does if reading it is part of a program of its own. -/
theorem map_state_fetch {send : ClientM HttpResponse} {read : HttpResponse → Except String α}
    {f : α → ClientM Observation} {g : α → Except String SignalState}
    (h : ∀ a t, (outcome (f a) t).map Observation.state = g a) :
    (outcome ((do let response ← send; ofExcept (read response)) >>= f) s).map
      Observation.state = (outcome send s).bind read >>= g := by
  rw [bind_assoc]
  exact map_state_read h

end Reads

/-- The state of a probe is the one its answers decide. -/
theorem map_state_probe (x : ProbeInput) (sig : VotingSignal) (s : Session) :
    (outcome (sig.probe x) s).map Observation.state =
      sig.stateOf x ((answersOf (sig.decisive x) s).map Prod.snd) := by
  have hcounted : ∀ {ρ : Type} (countPath rowsPath : String) (map : Value → Option ρ) (state)
      (payload) (sampled : Bool), (outcome (countedProbe x.codec x.texts x.environment
        x.credentials countPath rowsPath map state payload sampled) s).map Observation.state =
      (outcome (getPath x.codec x.environment x.credentials countPath) s).bind
        (VotingSignal.stateOf.readCount x) >>= fun n ↦ .ok (state n x.environment.thresholds) :=
    fun _ _ _ _ _ _ ↦ map_state_fetch fun _ _ ↦
      map_state_bind (exists_outcome_rowsOf _ _ _ _ _ _ _) fun _ _ ↦ rfl
  cases sig with
  | syslog =>
    rw [VotingSignal.probe, syslogProbe]
    exact hcounted _ _ _ _ _ _
  | outbound =>
    rw [VotingSignal.probe, outboundProbe]
    exact hcounted _ _ _ _ _ _
  | flow =>
    rw [VotingSignal.probe, flowProbe]
    exact hcounted _ _ _ _ _ _
  | email =>
    rw [VotingSignal.probe, emailProbe]
    exact hcounted _ _ _ _ _ _
  | jobs =>
    simp only [VotingSignal.probe, jobsProbe, fetchAggregateCount, outcome_attemptResult_bind,
      outcome_bind_ofExcept, final_bind_ofExcept]
    exact map_state_ofExcept_bind fun _ _ ↦ map_state_ofExcept_bind fun _ _ ↦
      map_state_bind (exists_outcome_rowsOf _ _ _ _ _ _ _) fun _ _ ↦
        map_state_bind (exists_outcome_rowsOf _ _ _ _ _ _ _) fun _ _ ↦ rfl
  | midEcc =>
    simp only [VotingSignal.probe, midEccProbe, fetchMidAgents, fetchAggregateCount,
      outcome_attemptResult_bind, outcome_bind_ofExcept, final_bind_ofExcept]
    exact map_state_ofExcept_bind fun _ _ ↦ map_state_ofExcept_bind fun _ _ ↦
      map_state_ofExcept_bind fun _ _ ↦ rfl
  | upgrade => exact map_state_read fun _ _ ↦ rfl
  | slowTxn =>
    exact map_state_fetch fun _ _ ↦
      map_state_bind (exists_outcome_slowRowsOf _ _ _ _ _) fun _ _ ↦ rfl
  | updateSets => exact map_state_fetch fun _ _ ↦ rfl
  | scan => exact map_state_read fun _ _ ↦ rfl
  | httpProbe =>
    simp only [VotingSignal.probe, httpProbe, outcome_bind]
    change _ = (outcome (sendHttpProbe x.codec x.environment x.credentials) s).bind _
    rw [sendHttpProbe]
    cases outcome (execute _ _) s <;> rfl
  | actions =>
    simp only [VotingSignal.probe, actionsProbe]
    change _ = ((outcome (sendActions x.codec x.environment x.credentials) s).bind _).bind _
    rw [sendActions]
    cases splitGithubRepo x.environment.instanceUrl with
    | none => rfl
    | some repo =>
      dsimp only
      rw [outcome_bind, outcome_bind, outcome_ofExcept]
      cases bearerToken x.codec x.environment.id x.credentials with
      | error e => rfl
      | ok token => exact map_state_read fun _ _ ↦ rfl

end Daku.Signals
