import Daku.Desktop.DashboardState
import Daku.Desktop.Summaries

/-!
# Alert surfaces

The readers of `src/dashboard_state.rs:1755–1800, 1992–2036` that name the Signals behind a bad
health, and the banner of `src/app.rs:260–311` with its gate (`src/notifications.rs:56–84,
152–181`). Each scans the snapshots with a filter of its own.
-/

namespace Daku.Desktop

open Daku.Protocol Daku.Store Daku.Wire
open Daku.Health (EnvironmentSummary HealthEventDto exists_degrading)

/-- A snapshot as it is published (`health.rs:262–270`). -/
def snapshotDto (snapshot : SignalSnapshot) : SignalSnapshotDto where
  signalId := snapshot.signalId
  state := snapshot.state
  observedAt := snapshot.observedAt
  payloadJson := snapshot.payloadJson

/-- The state text of a Signal in trouble. -/
def isProblem (snapshot : Snapshot) : Bool :=
  snapshot.dto.state = "degraded" ∨ snapshot.dto.state = "down"

/-- "Label: summary", with the detail where there is no summary (`dashboard_state.rs:1790–1797`). -/
def problemLine (signalId : String) (snapshot : Snapshot) : String :=
  let summary := summarizeValue signalId snapshot.payload
  let detail := detailFromValue signalId snapshot.payload
  let body := if summary ≠ "" then summary else detail
  if body = "" then signalLabel signalId else signalLabel signalId ++ ": " ++ body

/-- The first Signal of a list that is in trouble. -/
def firstProblem (snapshots : String → Option Snapshot) (ids : List String) :
    Option (String × Snapshot) :=
  ids.findSome? fun signalId ↦
    ((snapshots signalId).filter isProblem).map fun snapshot ↦ (signalId, snapshot)

namespace DashboardState

/-- Platform of an Environment, ServiceNow where it is not listed. -/
def platformIdOf (s : DashboardState) (id : String) : String :=
  ((s.environments.find? fun e ↦ e.id = id).map EnvironmentSummary.platformId).getD "servicenow"

/-- `degraded_voting_ids` (`dashboard_state.rs:1758–1780`). -/
def degradedVotingIds (s : DashboardState) (id : String) : List String :=
  match s.snapshots id with
  | none => []
  | some snapshots =>
    ((signalIdsFor (s.platformIdOf id)).filter isVotingSignal).filter fun signalId ↦
      (snapshots signalId).any isProblem

/-- `health_explain_for` (`dashboard_state.rs:1784–1800`). -/
def healthExplainFor (s : DashboardState) (id : String) : List String :=
  match s.snapshots id with
  | none => []
  | some snapshots =>
    (s.degradedVotingIds id).filterMap fun signalId ↦
      (snapshots signalId).map (problemLine signalId)

/-- `headline_for` (`dashboard_state.rs:1992–2014`). -/
def headlineFor (s : DashboardState) (id : String) : Option (EnvironmentHealth × String) := do
  let environment ← s.environments.find? fun e ↦ e.id = id
  let snapshots ← s.snapshots id
  let (signalId, snapshot) ← firstProblem snapshots (signalIdsFor environment.platformId)
  some (environment.health, problemLine signalId snapshot)

/-- `worst_signal_id` (`dashboard_state.rs:2020–2036`). -/
def worstSignalId (s : DashboardState) (id : String) : Option String := do
  let snapshots ← s.snapshots id
  let (signalId, _) ← firstProblem snapshots (signalIdsFor (s.platformIdOf id))
  some signalId

end DashboardState

/-- What decides whether a banner is posted; `quiet` says that the hour is a quiet one
(`notifications.rs:154–160`). -/
structure NotifyGate where
  master : Bool
  muted : Bool
  headlineSignal : Option String
  notifySignals : String → Option Bool
  quiet : Bool

/-- `gate_allows` (`notifications.rs:162–181`). -/
def gateAllows (gate : NotifyGate) : Bool :=
  gate.master && !gate.muted &&
    (gate.headlineSignal.all fun signalId ↦ (gate.notifySignals signalId).getD true) && !gate.quiet

/-- `notification_body_grouped` (`notifications.rs:73–90`). -/
def notificationBodyGrouped (health : EnvironmentHealth) (lines : List String) : String :=
  match lines.take 3 with
  | [] => "back to " ++ health.asStr
  | lines => health.asStr ++ ": " ++ "; ".intercalate lines

/-- The settings a banner asks for (`app.rs:263–269`). -/
structure NotifySettings where
  master : Bool
  notifySignals : String → Option Bool
  muted : Bool
  quiet : Bool

namespace DashboardState

/-- The gate of a banner (`app.rs:273–279`). -/
def notifyGate (s : DashboardState) (settings : NotifySettings) (id : String) : NotifyGate where
  master := settings.master
  muted := settings.muted
  headlineSignal := s.worstSignalId id
  notifySignals := settings.notifySignals
  quiet := settings.quiet

/-- Title and body of the banner of an event that was offered to the gate
(`app.rs:290–311`). -/
def banner (s : DashboardState) (settings : NotifySettings) (id : String)
    (event : HealthEventDto) : Option (String × String) :=
  if gateAllows (s.notifyGate settings id) then
    let label := ((s.environments.find? fun e ↦ e.id = id).map EnvironmentSummary.label).getD id
    let health := ((s.headlineFor id).map Prod.fst).getD event.toHealth
    some ("daku — " ++ label, notificationBodyGrouped health (s.healthExplainFor id))
  else none

/-- The Signals a banner names. -/
def bannerIds (s : DashboardState) (id : String) : List String := (s.degradedVotingIds id).take 3

/-- The window holds these stored snapshots, one of a Signal and all of Signals its platform
has. -/
structure Holds (fromStr : FromStr) (s : DashboardState) (id : String)
    (stored : List SignalSnapshot) : Prop where
  snapshots : s.snapshots id = some (collectSnapshots fromStr (stored.map snapshotDto))
  keyed : (stored.map SignalSnapshot.signalId).Nodup
  known : ∀ r ∈ stored, r.signalId ∈ signalIdsFor (s.platformIdOf id)

/-- A line about a voting Signal in trouble. -/
def VotingLine (s : DashboardState) (id line : String) : Prop :=
  ∃ signalId snapshot, isVotingSignal signalId ∧
    (s.snapshots id).bind (fun snapshots ↦ snapshots signalId) = some snapshot ∧
    isProblem snapshot ∧ line = problemLine signalId snapshot

/-- The surfaces agree: the same first Signal and line everywhere, only Signals that vote, and a
line whenever the stored snapshots are decided degraded. -/
structure AlertsAgree (fromStr : FromStr) (s : DashboardState) (id : String) : Prop where
  worst : s.worstSignalId id = (s.degradedVotingIds id).head?
  headline : (s.headlineFor id).map Prod.snd = (s.healthExplainFor id).head?
  gate : ∀ settings, (s.notifyGate settings id).headlineSignal = (s.bannerIds id).head?
  idsVote : ∀ signalId ∈ s.degradedVotingIds id, isVotingSignal signalId
  worstVotes : ∀ signalId, s.worstSignalId id = some signalId → isVotingSignal signalId
  linesVote : ∀ line ∈ s.healthExplainFor id, s.VotingLine id line
  headlineVotes : ∀ health line, s.headlineFor id = some (health, line) → s.VotingLine id line
  explained : ∀ stored, Holds fromStr s id stored →
    (Health.decide fromStr stored).health = .degraded → s.healthExplainFor id ≠ []

/-- The first Signal of the platform that is in trouble is one that votes. -/
def FirstProblemVotes (s : DashboardState) (id : String) : Prop :=
  ∀ snapshots, s.snapshots id = some snapshots →
    ∀ problem, firstProblem snapshots (signalIdsFor (s.platformIdOf id)) = some problem →
      isVotingSignal problem.1

end DashboardState

section Collect

variable {fromStr : FromStr}

/-- The last snapshot of a Signal counts. -/
private theorem collectSnapshots_concat (dtos : List SignalSnapshotDto) (dto : SignalSnapshotDto) :
    collectSnapshots fromStr (dtos ++ [dto]) =
      Function.update (collectSnapshots fromStr dtos) dto.signalId
        (some ⟨dto, (fromStr dto.payloadJson).getD .null⟩) := by
  rw [collectSnapshots, List.foldl_append]
  rfl

/-- With one snapshot of a Signal each of them is there. -/
theorem collectSnapshots_of_mem {dtos : List SignalSnapshotDto}
    (hkeyed : (dtos.map SignalSnapshotDto.signalId).Nodup) {dto : SignalSnapshotDto}
    (h : dto ∈ dtos) :
    collectSnapshots fromStr dtos dto.signalId =
      some ⟨dto, (fromStr dto.payloadJson).getD .null⟩ := by
  induction dtos using List.reverseRecOn with
  | nil => cases h
  | append_singleton dtos last ih =>
    rw [List.map_append, List.map_singleton, List.nodup_append] at hkeyed
    rw [collectSnapshots_concat]
    rcases List.mem_append.mp h with h | h
    · have hne : dto.signalId ≠ last.signalId :=
        hkeyed.2.2 _ (List.mem_map_of_mem h) _ (List.mem_singleton_self _)
      rw [Function.update_of_ne hne, ih hkeyed.1 h]
    · rw [List.mem_singleton.mp h, Function.update_self]

end Collect

section Problems

variable {snapshots : String → Option Snapshot} {ids : List String} {problem : String × Snapshot}

/-- What the search for a problem finds. -/
theorem firstProblem_spec (h : firstProblem snapshots ids = some problem) :
    problem.1 ∈ ids ∧ snapshots problem.1 = some problem.2 ∧ isProblem problem.2 := by
  obtain ⟨signalId, hmem, hsome⟩ := List.exists_of_findSome?_eq_some h
  obtain ⟨snapshot, hfilter, rfl⟩ := Option.map_eq_some_iff.mp hsome
  obtain ⟨hget, hproblem⟩ := Option.filter_eq_some_iff.mp hfilter
  exact ⟨hmem, hget, hproblem⟩

/-- The id that the search finds is the first in trouble. -/
theorem firstProblem_map_fst :
    (firstProblem snapshots ids).map Prod.fst =
      ids.find? fun signalId ↦ (snapshots signalId).any isProblem := by
  induction ids with
  | nil => rfl
  | cons signalId ids ih =>
    rw [firstProblem, List.findSome?_cons, List.find?_cons]
    by_cases hproblem : (snapshots signalId).any isProblem
    · obtain ⟨snapshot, hget, hsnapshot⟩ := (Option.any_eq_true _ _).mp hproblem
      have hfilter : (snapshots signalId).filter isProblem = some snapshot := by
        rw [Option.filter_eq_some_iff]
        exact ⟨hget, hsnapshot⟩
      rw [hproblem, hfilter]
      rfl
    · have hfilter : (snapshots signalId).filter isProblem = none := by
        rw [Option.filter_eq_none_iff]
        intro snapshot hget hsnapshot
        exact hproblem ((Option.any_eq_true _ _).mpr ⟨snapshot, hget, hsnapshot⟩)
      rw [Bool.not_eq_true] at hproblem
      rw [hproblem, hfilter]
      exact ih

/-- The first one in trouble is the first voting one in trouble exactly when it votes. -/
private theorem find?_eq_head?_voting_iff (p : String → Bool) :
    ids.find? p = ((ids.filter isVotingSignal).filter p).head? ↔
      ∀ signalId, ids.find? p = some signalId → isVotingSignal signalId := by
  rw [List.head?_filter, List.find?_filter]
  constructor
  · intro heq signalId hfind
    rw [heq] at hfind
    have hboth := List.find?_some hfind
    simp only [decide_eq_true_eq] at hboth
    exact hboth.1
  · intro hvotes
    cases hfind : ids.find? p with
    | none =>
      rw [List.find?_eq_none] at hfind
      symm
      rw [List.find?_eq_none]
      intro signalId hmem hboth
      simp only [decide_eq_true_eq] at hboth
      exact hfind signalId hmem hboth.2
    | some first =>
      rw [List.find?_eq_some_iff_append] at hfind
      obtain ⟨hp, before, after, hsplit, hbefore⟩ := hfind
      symm
      rw [List.find?_eq_some_iff_append]
      have hfirst : ids.find? p = some first := by
        rw [List.find?_eq_some_iff_append]
        exact ⟨hp, before, after, hsplit, hbefore⟩
      refine ⟨by simpa [hp] using hvotes first hfirst, before, after, hsplit, ?_⟩
      intro signalId hmem
      have hno := hbefore signalId hmem
      simp only [Bool.not_eq_true'] at hno
      simp [hno]

/-- Dropping what is missing drops nothing where nothing is. -/
private theorem map_some_filterMap {α β : Type} {f : α → Option β} {l : List α}
    (h : ∀ a ∈ l, (f a).isSome) : (l.filterMap f).map some = l.map f := by
  induction l with
  | nil => rfl
  | cons a l ih =>
    obtain ⟨b, hb⟩ := Option.isSome_iff_exists.mp (h a List.mem_cons_self)
    rw [List.filterMap_cons_some hb, List.map_cons, List.map_cons, hb,
      ih fun a' ha' ↦ h a' (List.mem_cons_of_mem _ ha')]

end Problems

namespace DashboardState

variable {fromStr : FromStr} {s : DashboardState} {id : String}

theorem mem_degradedVotingIds {signalId : String} :
    signalId ∈ s.degradedVotingIds id ↔ ∃ snapshots, s.snapshots id = some snapshots ∧
      signalId ∈ signalIdsFor (s.platformIdOf id) ∧ isVotingSignal signalId ∧
        (snapshots signalId).any isProblem := by
  rw [degradedVotingIds]
  cases s.snapshots id with
  | none => simp
  | some snapshots => simp [and_assoc, and_comm]

/-- Every id behind the explanation has a line. -/
theorem healthExplainFor_eq {snapshots : String → Option Snapshot}
    (hsnapshots : s.snapshots id = some snapshots) :
    (s.healthExplainFor id).map some = (s.degradedVotingIds id).map fun signalId ↦
      (snapshots signalId).map (problemLine signalId) := by
  have hsome : ∀ signalId ∈ s.degradedVotingIds id,
      ((snapshots signalId).map (problemLine signalId)).isSome := by
    intro signalId hmem
    obtain ⟨snapshots', hsnapshots', -, -, hany⟩ := mem_degradedVotingIds.mp hmem
    cases hsnapshots.symm.trans hsnapshots'
    obtain ⟨snapshot, hget, -⟩ := (Option.any_eq_true _ _).mp hany
    simp [hget]
  simp only [healthExplainFor, hsnapshots]
  exact map_some_filterMap hsome

/-- A line is there exactly when an id is. -/
theorem healthExplainFor_ne_nil_iff :
    s.healthExplainFor id ≠ [] ↔ s.degradedVotingIds id ≠ [] := by
  cases hsnapshots : s.snapshots id with
  | none => simp [healthExplainFor, degradedVotingIds, hsnapshots]
  | some snapshots =>
    have hlength := congrArg List.length (healthExplainFor_eq hsnapshots)
    rw [List.length_map, List.length_map] at hlength
    rw [← List.length_pos_iff, ← List.length_pos_iff, hlength]

/-- The Signal that gates a banner, as a search. -/
theorem worstSignalId_eq {snapshots : String → Option Snapshot}
    (hsnapshots : s.snapshots id = some snapshots) :
    s.worstSignalId id = (signalIdsFor (s.platformIdOf id)).find? fun signalId ↦
      (snapshots signalId).any isProblem := by
  rw [← firstProblem_map_fst, worstSignalId, hsnapshots, Option.bind_eq_bind, Option.bind_some]
  cases firstProblem snapshots (signalIdsFor (s.platformIdOf id)) <;> rfl

theorem firstProblemVotes_iff {snapshots : String → Option Snapshot}
    (hsnapshots : s.snapshots id = some snapshots) :
    s.FirstProblemVotes id ↔
      ∀ signalId, s.worstSignalId id = some signalId → isVotingSignal signalId := by
  have hworst : s.worstSignalId id =
      (firstProblem snapshots (signalIdsFor (s.platformIdOf id))).map Prod.fst := by
    rw [worstSignalId_eq hsnapshots, firstProblem_map_fst]
  rw [hworst]
  constructor
  · intro h signalId hsome
    obtain ⟨problem, hproblem, rfl⟩ := Option.map_eq_some_iff.mp hsome
    exact h snapshots hsnapshots problem hproblem
  · intro h snapshots' hsnapshots' problem hproblem
    cases hsnapshots.symm.trans hsnapshots'
    exact h problem.1 (by rw [hproblem]; rfl)

/-- The gate and the explanation name the same Signal first exactly when the first one in trouble
votes. -/
theorem worstSignalId_eq_head?_iff :
    s.worstSignalId id = (s.degradedVotingIds id).head? ↔ s.FirstProblemVotes id := by
  cases hsnapshots : s.snapshots id with
  | none =>
    have hnone : s.worstSignalId id = (s.degradedVotingIds id).head? := by
      simp [worstSignalId, degradedVotingIds, hsnapshots]
    refine ⟨fun _ snapshots hsome ↦ ?_, fun _ ↦ hnone⟩
    cases hsnapshots.symm.trans hsome
  | some snapshots =>
    rw [firstProblemVotes_iff hsnapshots, worstSignalId_eq hsnapshots, ← find?_eq_head?_voting_iff,
      degradedVotingIds, hsnapshots]

/-- A voting Signal that decides degraded is explained. -/
theorem healthExplainFor_of_degraded {stored : List SignalSnapshot}
    (h : Holds fromStr s id stored)
    (hdegraded : (Health.decide fromStr stored).health = .degraded) :
    s.healthExplainFor id ≠ [] := by
  rw [healthExplainFor_ne_nil_iff]
  obtain ⟨r, hr, hvotes, hstate⟩ := exists_degrading hdegraded
  have hkeyed : ((stored.map snapshotDto).map SignalSnapshotDto.signalId).Nodup := by
    rw [List.map_map]
    exact h.keyed
  have hget : collectSnapshots fromStr (stored.map snapshotDto) (snapshotDto r).signalId =
      some ⟨snapshotDto r, (fromStr r.payloadJson).getD .null⟩ :=
    collectSnapshots_of_mem hkeyed (List.mem_map_of_mem hr)
  have hmem : r.signalId ∈ s.degradedVotingIds id := by
    rw [mem_degradedVotingIds]
    refine ⟨_, h.snapshots, h.known r hr, by simpa [isVotingSignal] using hvotes, ?_⟩
    rw [show r.signalId = (snapshotDto r).signalId from rfl, hget]
    simpa [isProblem, snapshotDto, or_comm] using hstate
  exact List.ne_nil_of_mem hmem

/-- The first line of the explanation is about the first id. -/
theorem head?_healthExplainFor {snapshots : String → Option Snapshot}
    (hsnapshots : s.snapshots id = some snapshots) :
    (s.healthExplainFor id).head?.map some = (s.degradedVotingIds id).head?.map fun signalId ↦
      (snapshots signalId).map (problemLine signalId) := by
  rw [← List.head?_map, healthExplainFor_eq hsnapshots, List.head?_map]

/-- The platform of a listed Environment is the one it is listed with. -/
theorem exists_listed (hlisted : lists s.environments id) :
    ∃ e, s.environments.find? (fun e ↦ e.id = id) = some e ∧ s.platformIdOf id = e.platformId := by
  rw [lists, List.any_eq_true] at hlisted
  obtain ⟨e, he, hid⟩ := hlisted
  obtain ⟨e', he'⟩ : ∃ e', s.environments.find? (fun e ↦ e.id = id) = some e' := by
    rw [← Option.isSome_iff_exists, List.find?_isSome]
    exact ⟨e, he, hid⟩
  refine ⟨e', he', ?_⟩
  rw [platformIdOf, he']
  rfl

/-- The headline is about the first Signal in trouble. -/
theorem headlineFor_eq (hlisted : lists s.environments id)
    {snapshots : String → Option Snapshot} (hsnapshots : s.snapshots id = some snapshots) :
    (s.headlineFor id).map Prod.snd =
      (firstProblem snapshots (signalIdsFor (s.platformIdOf id))).map fun problem ↦
        problemLine problem.1 problem.2 := by
  obtain ⟨e, hfind, hplatform⟩ := exists_listed hlisted
  rw [headlineFor, hfind, hsnapshots, hplatform]
  simp only [Option.bind_eq_bind, Option.bind_some]
  cases firstProblem snapshots (signalIdsFor e.platformId) <;> rfl

/-- A line of the explanation is about a voting Signal. -/
theorem votingLine_of_mem {line : String} (h : line ∈ s.healthExplainFor id) :
    s.VotingLine id line := by
  cases hsnapshots : s.snapshots id with
  | none => simp [healthExplainFor, hsnapshots] at h
  | some snapshots =>
    simp only [healthExplainFor, hsnapshots, List.mem_filterMap] at h
    obtain ⟨signalId, hmem, hline⟩ := h
    obtain ⟨snapshot, hget, rfl⟩ := Option.map_eq_some_iff.mp hline
    obtain ⟨snapshots', hsnapshots', -, hvotes, hany⟩ := mem_degradedVotingIds.mp hmem
    cases hsnapshots.symm.trans hsnapshots'
    rw [hget] at hany
    exact ⟨signalId, snapshot, hvotes, by rw [hsnapshots]; exact hget, hany, rfl⟩

/-- Where the first Signal in trouble votes, the headline is the first line of the explanation. -/
theorem headline_eq_head? (hlisted : lists s.environments id) (h : s.FirstProblemVotes id) :
    (s.headlineFor id).map Prod.snd = (s.healthExplainFor id).head? := by
  cases hsnapshots : s.snapshots id with
  | none =>
    obtain ⟨e, hfind, -⟩ := exists_listed hlisted
    simp [headlineFor, healthExplainFor, hfind, hsnapshots]
  | some snapshots =>
    have hworst := worstSignalId_eq_head?_iff.mpr h
    have hhead := head?_healthExplainFor hsnapshots
    rw [← hworst, worstSignalId_eq hsnapshots, ← firstProblem_map_fst] at hhead
    rw [headlineFor_eq hlisted hsnapshots]
    apply Option.map_injective (Option.some_injective String)
    rw [hhead, Option.map_map, Option.map_map]
    cases hproblem : firstProblem snapshots (signalIdsFor (s.platformIdOf id)) with
    | none => rfl
    | some problem =>
      have hget := (firstProblem_spec hproblem).2.1
      simp [hget]

/-- The alert surfaces agree exactly when the first Signal in trouble votes. -/
theorem alertsAgree_of_listed_iff (hlisted : lists s.environments id) :
    AlertsAgree fromStr s id ↔ s.FirstProblemVotes id := by
  constructor
  · exact fun h ↦ worstSignalId_eq_head?_iff.mp h.worst
  · intro h
    have hworst := worstSignalId_eq_head?_iff.mpr h
    have hheadline := headline_eq_head? hlisted h
    have hvotes : ∀ signalId ∈ s.degradedVotingIds id, isVotingSignal signalId := by
      intro signalId hmem
      obtain ⟨-, -, -, hvotes, -⟩ := mem_degradedVotingIds.mp hmem
      exact hvotes
    refine ⟨hworst, hheadline, fun settings ↦ ?_, hvotes, fun signalId hsome ↦ ?_,
      fun line hline ↦ votingLine_of_mem hline, fun health line hline ↦ ?_,
      fun stored hholds hdegraded ↦ healthExplainFor_of_degraded hholds hdegraded⟩
    · show s.worstSignalId id = ((s.degradedVotingIds id).take 3).head?
      rw [hworst, List.head?_take, if_neg (by omega)]
    · exact hvotes signalId (List.mem_of_head? (hworst.symm.trans hsome))
    · rw [hline] at hheadline
      exact votingLine_of_mem (List.mem_of_head? hheadline.symm)

/-- In every state that messages lead to, the alert surfaces agree about a listed Environment
exactly when its first Signal in trouble votes. -/
theorem alertsAgree_iff (messages : List ServerMessage)
    (hlisted : lists (applyAll fromStr new messages).environments id) :
    AlertsAgree fromStr (applyAll fromStr new messages) id ↔
      (applyAll fromStr new messages).FirstProblemVotes id :=
  alertsAgree_of_listed_iff hlisted

/-- One listed Environment with these states of its Signals. -/
def reported (states : List (String × String)) : List ServerMessage :=
  [.environmentsUpdated [waitingSummary "prod"],
    .signalSnapshotsUpdated "prod" (states.map fun (signalId, state) ↦ ⟨signalId, state, 0, "{}"⟩)]

theorem alertsAgree_slow_txn :
    AlertsAgree (fun _ ↦ none) (applyAll (fun _ ↦ none) new (reported [("slow_txn", "degraded")]))
      "prod" := by
  refine (alertsAgree_iff (reported [("slow_txn", "degraded")]) (by decide +kernel)).mpr ?_
  intro snapshots hsnapshots problem hproblem
  cases hsnapshots
  cases hproblem
  decide +kernel

/-- Sessions come before slow transactions, are down, and gate the banner about those. -/
theorem alerts_disagree :
    ¬∀ (fromStr : FromStr) (messages : List ServerMessage) (id : String),
      lists (applyAll fromStr new messages).environments id →
        AlertsAgree fromStr (applyAll fromStr new messages) id := by
  intro h
  have hagree := h (fun _ ↦ none) (reported [("sessions", "down"), ("slow_txn", "degraded")])
    "prod" (by decide +kernel)
  have hworst := hagree.worst
  revert hworst
  decide +kernel

end DashboardState

end Daku.Desktop
