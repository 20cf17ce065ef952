import Daku.Environments.File
import Daku.Signals.Platforms

/-!
# Testing an Environment

The TestEnvironment command of `crates/daku-core/src/environments.rs:75–106` and `231–273`, and
the rotation of a Credential that probes with it first (`rotate.rs:14–36`). Elapsed time and the
wall clock of a probe are given from outside.
-/

namespace Daku.Environments

open Daku.Base Daku.Protocol Daku.Http Daku.Signals

/-- Readings of other clocks during a probe. -/
structure ProbeClock where
  /-- Elapsed milliseconds. -/
  rttMs : Nat
  /-- `unix_now`, in seconds. -/
  unixNow : Int
  deriving DecidableEq, Repr

/-- The store that holds one given blob (`environments.rs:244–249`). -/
def ephemeralStore (environmentId blob : String) : CredentialStore where
  get id := .ok (if id = environmentId then some blob else none)
  origin _ := .given

/-- The Credential store of the daemon with these contents. -/
def storedCredentials (get : String → Except String (Option String)) : CredentialStore where
  get := get
  origin := .stored

/-- Dispatch by Platform (`environments.rs:254–272`). -/
def probeEnvironment (codec : Codec) (environment : EnvironmentConfig)
    (credentials : CredentialStore) (clock : ProbeClock) : ClientM AvailabilityObservation :=
  match environment.platform with
  | .servicenow => observe codec environment credentials clock.rttMs
  | .http => observeProbeSignal (httpProbe codec environment credentials clock.rttMs)
  | .github => observeProbeSignal (actionsProbe codec environment credentials clock.unixNow)

/-- The checks before a probe (`environments.rs:239–246`). -/
def validateTest (codec : Codec) (environment : EnvironmentConfig)
    (credentialJson : Option String) : Except String Unit := do
  validateEnvironment environment
  match credentialJson with
  | some blob => validateCredential codec.fromStr environment.authMethod blob
  | none => pure ()

/-- The store a probe reads: the given blob, else the stored ones. -/
def testStore (environment : EnvironmentConfig) (credentialJson : Option String)
    (credentials : CredentialStore) : CredentialStore :=
  match credentialJson with
  | some blob => ephemeralStore environment.id blob
  | none => credentials

/-- `test_environment` (`environments.rs:231–273`). -/
def testEnvironment (codec : Codec) (environment : EnvironmentConfig)
    (credentialJson : Option String) (credentials : CredentialStore) (clock : ProbeClock) :
    ClientM AvailabilityObservation :=
  match validateTest codec environment credentialJson with
  | .error e => throw e
  | .ok () =>
    probeEnvironment codec environment (testStore environment credentialJson credentials) clock

/-- The entry the file has for an id, if the file can be read. -/
def savedEntry (path : String) (file : EnvironmentsFile) (id : String) :
    Option EnvironmentConfig :=
  match loadOrEmpty path file with
  | .ok saved => saved.find? fun item ↦ item.id = id
  | .error _ => none

/-- The saved entry has another URL (`environments.rs:83–88`). -/
def urlDiffers (path : String) (file : EnvironmentsFile) (environment : EnvironmentConfig) :
    Bool :=
  match savedEntry path file environment.id with
  | some previous => previous.instanceUrl ≠ environment.instanceUrl
  | none => false

/-- A TestEnvironment command with what it is handled against. -/
structure TestCommand where
  environment : EnvironmentConfig
  credentialJson : Option String
  /-- What a read of `environments.json` finds. -/
  file : EnvironmentsFile
  /-- Contents of the Credential store. -/
  stored : String → Except String (Option String)
  clock : ProbeClock

/-- `EnvironmentsBackend::handle` on TestEnvironment (`environments.rs:75–106`). -/
def TestCommand.handle (codec : Codec) (path : String) (command : TestCommand) :
    ClientM AvailabilityObservation :=
  if command.credentialJson = none ∧ urlDiffers path command.file command.environment then
    throw s!"environment {command.environment.id} URL differs from the saved one; provide the credential to probe the new URL"
  else
    testEnvironment codec command.environment command.credentialJson
      (storedCredentials command.stored) command.clock

/-- The client after commands handled one after the other. -/
def handleAll (codec : Codec) (path : String) (s : Session) (commands : List TestCommand) :
    Session :=
  commands.foldl (fun s command ↦ final (command.handle codec path s)) s

/-- What a rotation makes of its probe (`rotate.rs:26–32`). -/
def rotateVerdict (environment : EnvironmentConfig) (observation : AvailabilityObservation) :
    Except String Unit :=
  if observation.reachability = .unreachable then
    let reason := observation.error.getD "no route"
    .error s!"new credential for {environment.id} does not reach ({reason}); old item kept"
  else .ok ()

/-- `rotate_credential` up to the write of the store, with its probe (`rotate.rs:16–33`). -/
def rotateProbe (codec : Codec) (environment : EnvironmentConfig) (secret : String)
    (credentials : CredentialStore) (clock : ProbeClock) : ClientM Unit := do
  ofExcept (validateCredential codec.fromStr environment.authMethod secret)
  let observation ← testEnvironment codec environment (some secret) credentials clock
  ofExcept (rotateVerdict environment observation)

variable {codec : Codec} {environment : EnvironmentConfig} {credentials : CredentialStore}
variable {s₀ : Session}

theorem probeEnvironment_later {clock : ProbeClock} :
    Triple s₀.Later (probeEnvironment codec environment credentials clock)
      (fun _ s ↦ s₀.Later s) (fun _ s ↦ s₀.Later s) := by
  unfold probeEnvironment
  split
  · exact observe_spec request_later
  · exact observeProbeSignal_spec (Triple.bind _ execute_later fun _ ↦ Triple.pure fun _ h ↦ h)
  · refine observeProbeSignal_spec ?_
    unfold actionsProbe
    split
    · exact Triple.throw fun _ h ↦ h
    · exact Triple.ofExcept_bind (fun _ _ ↦ Triple.bind _ execute_later fun _ ↦
        Triple.ofExcept_bind (fun _ _ ↦ Triple.pure fun _ h ↦ h) fun _ _ _ h ↦ h)
        fun _ _ _ h ↦ h

theorem handle_later {path : String} {command : TestCommand} :
    Triple s₀.Later (command.handle codec path)
      (fun _ s ↦ s₀.Later s) (fun _ s ↦ s₀.Later s) := by
  unfold TestCommand.handle testEnvironment
  split
  · exact Triple.throw fun _ h ↦ h
  · split
    · exact Triple.throw fun _ h ↦ h
    · exact probeEnvironment_later

/-- Commands keep transport and clock and only add requests and readings. -/
theorem handleAll_later (codec : Codec) (path : String) (s : Session)
    (commands : List TestCommand) : s.Later (handleAll codec path s commands) := by
  have hgo : ∀ t, s.Later t → s.Later (handleAll codec path t commands) := by
    induction commands with
    | nil => exact fun _ h ↦ h
    | cons command commands ih =>
      intro t ht
      exact ih _ (final_of_triple handle_later (fun _ _ h ↦ h) (fun _ _ h ↦ h) ht)
  exact hgo s .refl

/-- The file of the runs stated below. -/
def sampleFile : EnvironmentsFile := .entries [sampleEnvironment .basic]

/-- A Test of an Environment at a URL; the store has the old password. -/
def sampleTest (id url : String) (credentialJson : Option String) (file : EnvironmentsFile) :
    TestCommand where
  environment := { sampleEnvironment .basic with id := id, instanceUrl := url }
  credentialJson := credentialJson
  file := file
  stored _ := .ok (some (basicText "old"))
  clock := ⟨20, 1000⟩

end Daku.Environments
