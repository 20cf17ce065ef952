import Daku.Protocol.Environment
import Daku.Protocol.Health
import Daku.Store.Db

/-!
# Deciding health

`votes`, `decide` and `health_rollup` of `crates/daku-core/src/health.rs:28–166`: the pure
verdict over the stored snapshots of one Environment.
-/

namespace Daku.Health

open Daku.Protocol Daku.Store

/-- Signal id of the ServiceNow availability probe. -/
def availabilitySignalId : String := "availability"

/-- Signal id of the HTTP platform probe. -/
def httpProbeSignalId : String := "http_probe"

/-- Signal id of the GitHub platform probe. -/
def actionsSignalId : String := "actions"

/-- Whether one vote counts toward Environment health (`health.rs:31–33`). -/
def votes (signalId : String) (state : SignalState) : Bool :=
  signalId ∉ nonVotingSignals && state ≠ .skipped

/-- What `decide` returns (`health.rs:38–43`). -/
structure DecideOut where
  reachability : Reachability
  health : EnvironmentHealth
  build : Option String
  votes : List (String × SignalState)
  deriving DecidableEq, Repr

/-- Roll-up of the votes of one Environment (`health.rs:120–149`). -/
def healthRollup (reachability : Reachability) (signals : List (String × SignalState)) :
    EnvironmentHealth :=
  match reachability with
  | .unreachable => .down
  | .asleep => .healthy
  | .reachable =>
    if signals = [] then .waiting
    else if signals.any fun (id, state) ↦
        !(decide (id ∈ nonVotingSignals) || state == .skipped) &&
          (state == .down || state == .degraded) then .degraded
    else .healthy

section Payloads

variable (fromStr : FromStr)

/-- Reachability a stored payload carries (`health.rs:151–156`). -/
def wireReachability (payloadJson : String) : Reachability :=
  match fromStr payloadJson with
  | none => .reachable
  | some value => parseReachability value

/-- Build a stored payload carries (`health.rs:382–385`). -/
def wireBuild (payloadJson : String) : Option String :=
  (fromStr payloadJson).bind parseBuild

/-- Voting state of a snapshot: unknown text never votes (`health.rs:64, 84`). -/
def snapshotState (snapshot : SignalSnapshot) : SignalState :=
  (SignalState.parse snapshot.state).getD .skipped

/-- The loop over snapshots that carry their own reachability (`health.rs:58–74`). An
`unreachable` payload ends it; a down primary probe is remembered. -/
def platformReachability (acc : Reachability) : List SignalSnapshot → Reachability
  | [] => acc
  | snapshot :: rest =>
    if wireReachability fromStr snapshot.payloadJson = .unreachable then .unreachable
    else if (snapshot.signalId = httpProbeSignalId ∨ snapshot.signalId = actionsSignalId) ∧
        snapshotState snapshot = .down then platformReachability .unreachable rest
    else platformReachability acc rest

/-- The verdict over one Environment's snapshots (`health.rs:45–102`). -/
def decide (envSnaps : List SignalSnapshot) : DecideOut :=
  let availability := envSnaps.find? fun s ↦ s.signalId = availabilitySignalId
  let reachability :=
    match availability with
    | some snapshot => wireReachability fromStr snapshot.payloadJson
    | none => platformReachability fromStr .reachable envSnaps
  let votes := envSnaps.map fun s ↦ (s.signalId, snapshotState s)
  { reachability
    health := healthRollup reachability votes
    build := availability.bind fun s ↦ wireBuild fromStr s.payloadJson
    votes }

end Payloads

/-- Only silence reads as waiting. -/
theorem healthRollup_eq_waiting_iff (r : Reachability) (signals : List (String × SignalState)) :
    healthRollup r signals = .waiting ↔ r = .reachable ∧ signals = [] := by
  cases r with
  | unreachable => simp [healthRollup]
  | asleep => simp [healthRollup]
  | reachable =>
    simp only [healthRollup, true_and]
    split
    · next h => simp [h]
    · next h =>
      simp only [h, iff_false]
      split <;> decide

/-- A reachable Environment is degraded exactly when a Signal that votes is in trouble. -/
theorem healthRollup_eq_degraded_iff (r : Reachability) (signals : List (String × SignalState)) :
    healthRollup r signals = .degraded ↔ r = .reachable ∧
      ∃ vote ∈ signals, votes vote.1 vote.2 ∧ (vote.2 = .down ∨ vote.2 = .degraded) := by
  have hany : (signals.any fun (id, state) ↦
      !(Decidable.decide (id ∈ nonVotingSignals) || state == .skipped) &&
        (state == .down || state == .degraded)) = true ↔
      ∃ vote ∈ signals, votes vote.1 vote.2 ∧ (vote.2 = .down ∨ vote.2 = .degraded) := by
    simp [votes]
  cases r with
  | unreachable => simp [healthRollup]
  | asleep => simp [healthRollup]
  | reachable =>
    rw [← hany]
    simp only [healthRollup, true_and]
    split
    · next h => simp [h]
    · split
      · next h => simp only [h]
      · next h => simp only [h, reduceCtorEq]

/-- The text of a state that is not skipped. -/
theorem state_of_snapshotState {snapshot : SignalSnapshot} {state : SignalState}
    (h : snapshotState snapshot = state) (hstate : state ≠ .skipped) :
    snapshot.state = state.asStr := by
  simp only [snapshotState, SignalState.parse] at h
  split at h
  · next htext =>
    subst h
    exact htext
  · split at h
    · next htext =>
      subst h
      exact htext
    · split at h
      · next htext =>
        subst h
        exact htext
      · split at h <;> exact absurd h.symm hstate

/-- A degraded verdict has a stored snapshot of a Signal that votes behind it. -/
theorem exists_degrading {fromStr : FromStr} {envSnaps : List SignalSnapshot}
    (h : (decide fromStr envSnaps).health = .degraded) :
    ∃ r ∈ envSnaps, r.signalId ∉ nonVotingSignals ∧
      (r.state = "down" ∨ r.state = "degraded") := by
  obtain ⟨-, vote, hvote, hvotes, hstate⟩ := (healthRollup_eq_degraded_iff _ _).mp h
  obtain ⟨r, hr, rfl⟩ := List.mem_map.mp hvote
  simp only [votes, Bool.and_eq_true, decide_eq_true_eq] at hvotes
  refine ⟨r, hr, hvotes.1, hstate.imp ?_ ?_⟩
  · exact fun hdown ↦ state_of_snapshotState hdown (by simp)
  · exact fun hdegraded ↦ state_of_snapshotState hdegraded (by simp)

/-- An Environment without snapshots is reachable and waiting. -/
theorem decide_nil (fromStr : FromStr) :
    decide fromStr [] = ⟨.reachable, .waiting, none, []⟩ := by
  simp [decide, platformReachability, healthRollup]

end Daku.Health
