import Daku.Collector.Ticks

/-!
# Failures of a tick

What a tick of `CollectorLoop` calls and what it tells of failures
(`crates/daku-core/src/collector.rs:316–392, 479–502`), in any order its threads run: an error or
a panic stops nobody else, but a panic hides the errors of its own stage.
-/

namespace Daku.Collector

open Daku.Base

namespace CollectorLoop

variable (l : CollectorLoop) (tick : ℕ)

/-- What fails in a stage: every error of a collector that is called, and the panic. -/
def failuresOf (stage : Stage) : List String :=
  errorsOf ((l.collectors stage).take (reached (l.collectors stage))) ++
    (if .panicked ∈ l.collectors stage then [stage.panicText] else [])

/-- What fails in a tick. -/
def failures : List String := (l.stages tick).flatMap l.failuresOf

/-- Every stage of the tick calls its collectors in order, up to the first one that panics, and
the stages follow each other. -/
structure RunsAll (calls : List (Stage × ℕ)) : Prop where
  called : ∀ stage, (calls.filter fun c ↦ c.1 = stage).map Prod.snd =
    if stage ∈ l.stages tick then List.range (reached (l.collectors stage)) else []
  ordered : calls.Pairwise fun a b ↦ a.1.rank ≤ b.1.rank

/-- The message names these failures, each of them once. -/
def Names (message : String) (failures : List String) : Prop :=
  ∃ parts : List String, parts.Perm failures ∧ message = String.intercalate "; " parts

/-- The tick is fine if nothing failed; else it has one error, which names all failures. -/
def NamesAll (result : Except TickError Unit) : Prop :=
  match result with
  | .ok () => l.failures tick = []
  | .error error => l.failures tick ≠ [] ∧ error.context = s!"tick {tick}" ∧
      Names error.message (l.failures tick)

/-- No stage of the tick has an error before its panic. -/
def NothingLost : Prop :=
  ∀ stage ∈ l.stages tick, .panicked ∈ l.collectors stage →
    errorsOf ((l.collectors stage).take (reached (l.collectors stage))) = []

section Finished

variable {l tick} {s : Ticking}

/-- A tick that has finished called everything it had to. -/
theorem Follows.runsAll (h : l.Follows tick s) {result : Except TickError Unit}
    (hfinished : s.phase = .finished result) : l.RunsAll tick s.calls where
  called := by
    intro stage
    rw [h.calls]
    split
    · next hstage =>
      have hspawned : (s.threads stage).isSome := by
        rw [h.spawned, hfinished]
        exact hstage
      obtain ⟨thread, hthread⟩ := Option.isSome_iff_exists.mp hspawned
      have hended := h.ended stage (by rw [hfinished]; exact hstage) thread hthread
      rw [hthread, Option.map_some, Option.getD_some,
        ((h.threads stage thread hthread).ended hended).1]
    · next hstage =>
      have hnone : s.threads stage = none := by
        rw [← Option.not_isSome_iff_eq_none, h.spawned, hfinished]
        exact hstage
      rw [hnone]
      rfl
  ordered := h.ordered

/-- Its result is read off what the stages report. -/
theorem Follows.result_eq (h : l.Follows tick s) {result : Except TickError Unit}
    (hfinished : s.phase = .finished result) :
    result = resultOf tick ((l.stages tick).flatMap l.report) := by
  have hphase := h.phase
  have herrors := h.errors
  rw [PhaseHolds, hfinished] at hphase
  rw [hfinished] at herrors
  rw [hphase, herrors]
  rfl

end Finished

section Reports

variable {l tick}

theorem combineErrors_eq (errors : List String) : combineErrors errors =
    if errors = [] then .ok () else .error (String.intercalate "; " errors) := by
  cases errors with
  | nil => rfl
  | cons first rest =>
    rw [combineErrors, if_neg (by simp)]
    congr 1
    induction rest generalizing first with
    | nil => exact String.intercalate_singleton.symm
    | cons error rest ih =>
      rw [List.foldl_cons, ih, String.intercalate_cons_append, String.intercalate_cons_cons]

/-- What a stage tells of what failed in it. -/
def toldOf (l : CollectorLoop) (stage : Stage) : List String :=
  if .panicked ∈ l.collectors stage then [stage.panicText] else errorsOf (l.collectors stage)

theorem report_eq_joinedPart (stage : Stage) :
    l.report stage = joinedPart "; " (l.toldOf stage) := by
  rw [report, toldOf]
  by_cases hmem : .panicked ∈ l.collectors stage
  · rw [if_pos hmem, if_pos hmem, joinedPart, if_neg (by simp), String.intercalate_singleton]
  · rw [if_neg hmem, if_neg hmem, combineErrors_eq, joinedPart]
    by_cases herrors : errorsOf (l.collectors stage) = []
    · rw [if_pos herrors, if_pos herrors]
    · rw [if_neg herrors, if_neg herrors]

theorem toldOf_sublist (stage : Stage) : (l.toldOf stage).Sublist (l.failuresOf stage) := by
  rw [toldOf, failuresOf]
  by_cases hmem : .panicked ∈ l.collectors stage
  · rw [if_pos hmem, if_pos hmem]
    exact List.sublist_append_right _ _
  · rw [if_neg hmem, if_neg hmem, reached_of_calm hmem, List.take_length, List.append_nil]

/-- A stage tells everything unless it has an error before its panic. -/
theorem toldOf_eq_iff (stage : Stage) : l.toldOf stage = l.failuresOf stage ↔
    (.panicked ∈ l.collectors stage →
      errorsOf ((l.collectors stage).take (reached (l.collectors stage))) = []) := by
  rw [toldOf, failuresOf]
  by_cases hmem : .panicked ∈ l.collectors stage
  · rw [if_pos hmem, if_pos hmem]
    constructor
    · intro h _
      exact List.self_eq_append_left.mp h
    · intro h
      rw [h hmem, List.nil_append]
  · rw [if_neg hmem, if_neg hmem, reached_of_calm hmem, List.take_length, List.append_nil]
    exact iff_of_true rfl fun h ↦ absurd h hmem

/-- A stage in which something failed tells something. -/
theorem failuresOf_eq_nil (stage : Stage) (h : l.toldOf stage = []) : l.failuresOf stage = [] := by
  rw [toldOf] at h
  rw [failuresOf]
  by_cases hmem : .panicked ∈ l.collectors stage
  · rw [if_pos hmem] at h
    exact absurd h (List.cons_ne_nil _ _)
  · rw [if_neg hmem] at h
    rw [if_neg hmem, reached_of_calm hmem, List.take_length, h, List.append_nil]

/-- The result names everything exactly if nothing is lost. -/
theorem namesAll_iff : l.NamesAll tick (resultOf tick ((l.stages tick).flatMap l.report)) ↔
    l.NothingLost tick := by
  have hreport : l.report = fun stage ↦ joinedPart "; " (l.toldOf stage) :=
    funext report_eq_joinedPart
  have hlost : l.NothingLost tick ↔
      (l.stages tick).flatMap l.toldOf = (l.stages tick).flatMap l.failuresOf := by
    rw [flatMap_eq_iff_of_sublist toldOf_sublist]
    exact forall₂_congr fun stage _ ↦ (toldOf_eq_iff stage).symm
  rw [resultOf, combineErrors_eq, hlost, hreport, intercalate_flatMap_joinedPart]
  by_cases htold : (l.stages tick).flatMap l.toldOf = []
  · have hnone : ∀ stage ∈ l.stages tick, l.toldOf stage = [] := List.flatMap_eq_nil_iff.mp htold
    have hfailures : (l.stages tick).flatMap l.failuresOf = [] :=
      List.flatMap_eq_nil_iff.mpr fun stage hstage ↦ failuresOf_eq_nil stage (hnone stage hstage)
    rw [if_pos (List.flatMap_eq_nil_iff.mpr fun stage hstage ↦
      joinedPart_eq_nil.mpr (hnone stage hstage))]
    exact iff_of_true hfailures (htold.trans hfailures.symm)
  · have hsome : (l.stages tick).flatMap (fun stage ↦ joinedPart "; " (l.toldOf stage)) ≠ [] := by
      intro hnone
      rw [List.flatMap_eq_nil_iff] at hnone htold
      exact htold fun stage hstage ↦ joinedPart_eq_nil.mp (hnone stage hstage)
    have hsub : ((l.stages tick).flatMap l.toldOf).Sublist (l.failures tick) :=
      sublist_flatMap toldOf_sublist _
    rw [if_neg hsome]
    constructor
    · rintro ⟨-, -, parts, hparts, hmessage⟩
      exact eq_of_intercalate_perm (by decide) hsub htold hparts hmessage
    · intro heq
      exact ⟨fun hnil ↦ htold (heq.trans hnil), rfl, _, .refl _, heq ▸ rfl⟩

end Reports

section Ends

variable {l tick} {s t : Ticking}

/-- The collectors of a stage that are still to be called. -/
def toCall (l : CollectorLoop) (s : Ticking) (stage : Stage) : ℕ :=
  match s.threads stage with
  | none => (l.collectors stage).length
  | some thread => thread.remaining.length

/-- The joins that are still to come. -/
def toJoin (l : CollectorLoop) : Phase → ℕ
  | .joining index => l.groups.length - index + 3
  | .shared => 2
  | .slow => 1
  | .finished _ => 0

/-- All stages that there are. -/
def allStages (l : CollectorLoop) : List Stage := l.groupStages ++ [.shared, .slow]

/-- A bound for the actions that are still to come. -/
def toDo (l : CollectorLoop) (s : Ticking) : ℕ :=
  (l.allStages.map (l.toCall s)).sum + l.toJoin s.phase

/-- The most actions of a tick. -/
def mostActions (l : CollectorLoop) : ℕ :=
  (l.allStages.map fun stage ↦ (l.collectors stage).length).sum + l.groups.length + 3

theorem length_of_next {thread next : Thread} (h : thread.next = some next) :
    next.remaining.length + 1 = thread.remaining.length := by
  rw [Thread.next] at h
  split at h
  · cases h
  · split at h
    · cases h
    all_goals
      next hremaining =>
        obtain rfl := Option.some.inj h
        rw [hremaining]
        rfl

theorem mem_allStages_of_spawned {phase : Phase} {stage : Stage}
    (h : stage ∈ l.spawnedStages tick phase) : stage ∈ l.allStages := by
  have hgroup : ∀ index, .group index ∈ l.spawnedStages tick phase →
      Stage.group index ∈ l.groupStages := by
    intro index hindex
    cases phase <;> simpa [spawnedStages, stages, groupStages] using hindex
  cases stage with
  | group index => exact List.mem_append_left _ (hgroup index h)
  | shared => exact List.mem_append_right _ (List.mem_cons_self)
  | slow => exact List.mem_append_right _ (List.mem_pair.mpr (Or.inr rfl))

theorem toCall_spawned {stage : Stage} (hnone : s.threads stage = none) (errors : List String)
    (phase : Phase) : l.toCall (l.spawned s stage errors phase) = l.toCall s := by
  funext other
  rw [toCall, toCall]
  by_cases hother : other = stage
  · subst hother
    simp only [spawned, Function.update_self, hnone]
    rfl
  · simp only [spawned, Function.update_of_ne hother]

/-- A call leaves one collector less. -/
private theorem toDo_collect (h : l.Follows tick s) {stage : Stage}
    (hstep : collect s stage = some t) : l.toDo t < l.toDo s := by
  obtain ⟨thread, hthread, hstep⟩ := Option.bind_eq_some_iff.mp hstep
  obtain ⟨next, hnext, hstep⟩ := Option.bind_eq_some_iff.mp hstep
  obtain rfl := Option.some.inj hstep
  have hlength := length_of_next hnext
  have hmem : stage ∈ l.allStages := by
    apply mem_allStages_of_spawned ((h.spawned stage).mp _)
    rw [hthread]
    rfl
  apply Nat.add_lt_add_right
  apply List.sum_lt_sum
  · intro other _
    simp only [toCall]
    by_cases hother : other = stage
    · subst hother
      rw [Function.update_self, hthread]
      dsimp only
      omega
    · rw [Function.update_of_ne hother]
  · refine ⟨stage, hmem, ?_⟩
    simp only [toCall]
    rw [Function.update_self, hthread]
    dsimp only
    omega

/-- A join leaves one join less. -/
private theorem toDo_join (h : l.Follows tick s) (hstep : l.join tick s = some t) :
    l.toDo t < l.toDo s := by
  have hnone : ∀ stage, stage ∉ l.spawnedStages tick s.phase → s.threads stage = none := by
    intro stage hstage
    rw [← Option.not_isSome_iff_eq_none, h.spawned]
    exact hstage
  rw [CollectorLoop.join] at hstep
  split at hstep
  · next index hs =>
    split at hstep
    · next hindex =>
      obtain ⟨thread, -, hstep⟩ := Option.bind_eq_some_iff.mp hstep
      split at hstep
      · obtain rfl := Option.some.inj hstep
        apply Nat.add_lt_add_left
        rw [hs, toJoin, toJoin]
        omega
      · cases hstep
    · obtain rfl := Option.some.inj hstep
      have hshared : s.threads .shared = none := by
        apply hnone
        rw [hs]
        simp [spawnedStages, groupStages]
      rw [toDo, toDo, toCall_spawned hshared]
      apply Nat.add_lt_add_left
      rw [hs, toJoin, spawned, toJoin]
      omega
  · next hs =>
    obtain ⟨thread, -, hstep⟩ := Option.bind_eq_some_iff.mp hstep
    split at hstep
    · split at hstep
      · obtain rfl := Option.some.inj hstep
        have hslow : s.threads .slow = none := by
          apply hnone
          rw [hs]
          simp [spawnedStages, groupStages]
        rw [toDo, toDo, toCall_spawned hslow]
        apply Nat.add_lt_add_left
        rw [hs]
        exact Nat.lt_succ_self 1
      · obtain rfl := Option.some.inj hstep
        apply Nat.add_lt_add_left
        rw [hs]
        exact Nat.two_pos
    · cases hstep
  · next hs =>
    obtain ⟨thread, -, hstep⟩ := Option.bind_eq_some_iff.mp hstep
    split at hstep
    · obtain rfl := Option.some.inj hstep
      apply Nat.add_lt_add_left
      rw [hs]
      exact Nat.one_pos
    · cases hstep
  · cases hstep

/-- Every action leaves less to do. -/
theorem toDo_lt (h : l.Follows tick s) {action : TickAction}
    (hstep : (l.ticking tick).step s action = some t) : l.toDo t < l.toDo s := by
  cases action with
  | collect stage => exact toDo_collect h hstep
  | join => exact toDo_join h hstep

theorem length_run_le {actions : List TickAction}
    (h : (l.ticking tick).run l.start actions = some s) : actions.length ≤ l.mostActions := by
  have hcall : l.toCall l.start = fun stage ↦ (l.collectors stage).length := by
    funext stage
    cases stage with
    | group index =>
      simp only [toCall, start]
      by_cases hindex : index < l.groups.length
      · rw [if_pos hindex]
        rfl
      · rw [if_neg hindex]
    | shared => rfl
    | slow => rfl
  have hstart : l.toDo l.start = l.mostActions := by
    rw [toDo, hcall]
    rfl
  have hle := Machine.length_run_le l.toDo (@follows_start l tick)
    (fun hu hstep ↦ ⟨hu.step hstep, toDo_lt hu hstep⟩) h
  omega

theorem exists_next {thread : Thread} (h : thread.ended = false) :
    ∃ next, thread.next = some next := by
  rw [Thread.ended, Bool.or_eq_false_iff] at h
  rw [Thread.next, if_neg (by rw [h.1]; exact Bool.false_ne_true)]
  cases hremaining : thread.remaining with
  | nil =>
    rw [hremaining] at h
    exact absurd h.2 (by simp)
  | cons ending rest => cases ending <;> exact ⟨_, rfl⟩

/-- Where no thread can go on, each has ended. -/
theorem ended_of_stuck (h : l.Follows tick s)
    (hstuck : ∀ action, (l.ticking tick).step s action = none) {stage : Stage}
    (hstage : stage ∈ l.spawnedStages tick s.phase) :
    ∃ thread, s.threads stage = some thread ∧ thread.ended = true := by
  obtain ⟨thread, hthread⟩ := Option.isSome_iff_exists.mp ((h.spawned stage).mpr hstage)
  refine ⟨thread, hthread, ?_⟩
  by_contra hrunning
  obtain ⟨next, hnext⟩ := exists_next (Bool.not_eq_true _ ▸ hrunning)
  have hstep : collect s stage = none := hstuck (.collect stage)
  rw [collect, hthread] at hstep
  change thread.next.bind _ = none at hstep
  rw [hnext] at hstep
  cases hstep

/-- A tick that has not finished goes on. -/
theorem finished_of_stuck (h : l.Follows tick s)
    (hstuck : ∀ action, (l.ticking tick).step s action = none) :
    ∃ result, s.phase = .finished result := by
  have hjoin : l.join tick s = none := hstuck .join
  have hended := fun stage ↦ @ended_of_stuck l tick s h hstuck stage
  rw [CollectorLoop.join] at hjoin
  split at hjoin
  · next index hs =>
    split at hjoin
    · next hindex =>
      obtain ⟨thread, hthread, hended⟩ := hended (.group index) (by
        rw [hs]
        exact mem_groupStages.mpr hindex)
      rw [hthread, Option.bind_some, if_pos hended] at hjoin
      cases hjoin
    · cases hjoin
  · next hs =>
    obtain ⟨thread, hthread, hended⟩ := hended .shared (by
      rw [hs]
      exact List.mem_append_right _ (List.mem_singleton_self _))
    rw [hthread, Option.bind_some, if_pos hended] at hjoin
    dsimp only at hjoin
    split at hjoin <;> cases hjoin
  · next hs =>
    obtain ⟨thread, hthread, hended⟩ := hended .slow (by
      rw [hs]
      exact List.mem_append_right _ (List.mem_pair.mpr (Or.inr rfl)))
    rw [hthread, Option.bind_some, if_pos hended] at hjoin
    cases hjoin
  · next result hs => exact ⟨result, hs⟩

end Ends

/-- Every tick ends; it calls the collectors of every stage up to the first panic, one stage after
the other, and its result names all that failed exactly if no stage has an error before its
panic. -/
theorem tick_isolates_iff (l : CollectorLoop) (tick : ℕ) :
    (∀ actions s, (l.ticking tick).run l.start actions = some s →
      actions.length ≤ l.mostActions ∧
        ((∀ action, (l.ticking tick).step s action = none) →
          ∃ result, s.phase = .finished result)) ∧
    ∀ actions s result, (l.ticking tick).run l.start actions = some s →
      s.phase = .finished result →
        l.RunsAll tick s.calls ∧ (l.NamesAll tick result ↔ l.NothingLost tick) := by
  refine ⟨fun actions s hrun ↦ ?_, fun actions s result hrun hfinished ↦ ?_⟩
  · exact ⟨length_run_le hrun, finished_of_stuck (follows_run hrun)⟩
  · have hfollows := follows_run hrun
    refine ⟨hfollows.runsAll hfinished, ?_⟩
    rw [hfollows.result_eq hfinished]
    exact namesAll_iff

/-- Two groups on their threads, and the shared collectors after them. -/
theorem tick_isolates_two :
    let l : CollectorLoop := ⟨[[.ok], [.failed "x"]], [.failed "y"], [.panicked], 2⟩
    let actions : List TickAction :=
      [.collect (.group 1), .collect (.group 0), .join, .join, .join, .collect .shared, .join]
    ∃ s, (l.ticking 1).run l.start actions = some s ∧
      s.phase = .finished (.error ⟨"tick 1", "x; y"⟩) ∧ l.RunsAll 1 s.calls ∧
      (l.NamesAll 1 (.error ⟨"tick 1", "x; y"⟩) ↔ l.NothingLost 1) := by
  intro l actions
  exact ⟨_, rfl, rfl, (tick_isolates_iff l 1).2 actions _ _ rfl rfl⟩

/-- An error before a panic of the same group is lost. -/
theorem tick_loses_error :
    let l : CollectorLoop := ⟨[[.failed "x", .panicked]], [], [], 2⟩
    let actions : List TickAction :=
      [.collect (.group 0), .collect (.group 0), .join, .join, .join]
    ∃ s, (l.ticking 1).run l.start actions = some s ∧
      s.phase = .finished (.error ⟨"tick 1", "collector group 0 panicked"⟩) ∧
      l.failures 1 = ["x", "collector group 0 panicked"] ∧
      ¬ l.NamesAll 1 (.error ⟨"tick 1", "collector group 0 panicked"⟩) := by
  intro l actions
  refine ⟨_, rfl, rfl, rfl, ?_⟩
  intro hnames
  have hlost := namesAll_iff.mp hnames (.group 0) (by decide) (by decide)
  exact absurd hlost (List.cons_ne_nil _ _)

end CollectorLoop

end Daku.Collector
