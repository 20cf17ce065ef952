import Daku.Base.Joined
import Daku.Base.Machine
import Mathlib.Algebra.GroupWithZero.Nat
import Mathlib.Algebra.Order.Group.Nat
import Mathlib.Logic.Function.Basic

/-!
# Threads of a tick

One tick of `CollectorLoop` (`crates/daku-core/src/collector.rs:316–392, 479–502`): every group of
collectors runs on its own thread, the shared ones after all groups have been joined, the slow
ones after those. Each action is one call of `collect` by a thread or one `join`; how the calls
end is given from outside. A thread that panics takes the errors it has collected with it.
-/

namespace Daku.Collector

open Daku.Base

/-- How a call of `collect` ends; an error is its whole chain, `\x7b:#\x7d`. -/
inductive Ending where
  | ok
  | failed (error : String)
  | panicked
  deriving DecidableEq, Repr

/-- Where a collector is registered (`collector.rs:291–311`). -/
inductive Stage where
  | group (index : ℕ)
  | shared
  | slow
  deriving DecidableEq, Repr

/-- The stages run one after the other, the groups together. -/
def Stage.rank : Stage → ℕ
  | group _ => 0
  | shared => 1
  | slow => 2

/-- What is reported of a stage that panicked (`collector.rs:352, 367, 375`). -/
def Stage.panicText : Stage → String
  | group index => s!"collector group {index} panicked"
  | shared => "shared collectors panicked"
  | slow => "slow collectors panicked"

/-- The registered collectors, by how their next calls end (`collector.rs:246–260`). -/
structure CollectorLoop where
  groups : List (List Ending)
  shared : List Ending
  slow : List Ending
  slowEvery : ℕ

/-- The error of a tick: a context over a message. -/
structure TickError where
  context : String
  message : String
  deriving DecidableEq, Repr

/-- `combine_errors` (`collector.rs:490–502`). -/
def combineErrors : List String → Except String Unit
  | [] => .ok ()
  | first :: rest => .error (rest.foldl (fun message error ↦ message ++ "; " ++ error) first)

/-- A thread in `run_sequential` (`collector.rs:479–486`). -/
structure Thread where
  /-- Collectors that were called. -/
  called : ℕ
  remaining : List Ending
  errors : List String
  panicked : Bool
  deriving DecidableEq, Repr

namespace Thread

/-- A thread that is about to call the first collector. -/
def spawn (collectors : List Ending) : Thread := ⟨0, collectors, [], false⟩

/-- The thread can be joined. -/
def ended (t : Thread) : Bool := t.panicked || t.remaining.isEmpty

/-- The next call of `collect`. -/
def next (t : Thread) : Option Thread :=
  if t.panicked then none
  else
    match t.remaining with
    | [] => none
    | .ok :: rest => some { t with called := t.called + 1, remaining := rest }
    | .failed error :: rest =>
      some { t with called := t.called + 1, remaining := rest, errors := t.errors ++ [error] }
    | .panicked :: rest =>
      some { t with called := t.called + 1, remaining := rest, panicked := true }

/-- What `join` adds to the errors of the tick (`collector.rs:342–354, 364–377`). -/
def report (t : Thread) (panicText : String) : List String :=
  if t.panicked then [panicText]
  else
    match combineErrors t.errors with
    | .ok () => []
    | .error message => [message]

end Thread

/-- What the thread of the tick waits for. -/
inductive Phase where
  | joining (index : ℕ)
  | shared
  | slow
  | finished (result : Except TickError Unit)

/-- A tick in progress. -/
structure Ticking where
  threads : Stage → Option Thread
  /-- The calls of `collect` so far, with their place in the stage. -/
  calls : List (Stage × ℕ)
  errors : List String
  phase : Phase

/-- A thread calls its next collector, or the thread of the tick joins the next stage. -/
inductive TickAction where
  | collect (stage : Stage)
  | join
  deriving DecidableEq, Repr

namespace CollectorLoop

variable (l : CollectorLoop) (tick : ℕ)

/-- The collectors of a stage. -/
def collectors : Stage → List Ending
  | .group index => (l.groups[index]?).getD []
  | .shared => l.shared
  | .slow => l.slow

/-- A slow tick (`collector.rs:324`). -/
def slowTick : Bool := tick % l.slowEvery = 0

/-- The end of the tick (`collector.rs:386–391`). -/
def resultOf (errors : List String) : Except TickError Unit :=
  match combineErrors errors with
  | .ok () => .ok ()
  | .error message => .error ⟨s!"tick {tick}", message⟩

/-- All groups are spawned (`collector.rs:327–341`). -/
def start : Ticking where
  threads
    | .group index => if index < l.groups.length then some (.spawn (l.collectors (.group index)))
      else none
    | .shared => none
    | .slow => none
  calls := []
  errors := []
  phase := .joining 0

/-- The next stage is spawned after the one before was joined. -/
def spawned (s : Ticking) (stage : Stage) (errors : List String) (phase : Phase) : Ticking :=
  { s with
    threads := Function.update s.threads stage (some (.spawn (l.collectors stage)))
    errors
    phase }

/-- The thread of the tick goes on once the stage it waits for has ended
(`collector.rs:342–381`). -/
def join (s : Ticking) : Option Ticking :=
  match s.phase with
  | .joining index =>
    if index < l.groups.length then
      (s.threads (.group index)).bind fun thread ↦
        if thread.ended then
          some { s with
            errors := s.errors ++ thread.report (Stage.group index).panicText
            phase := .joining (index + 1) }
        else none
    else some (l.spawned s .shared s.errors .shared)
  | .shared =>
    (s.threads .shared).bind fun thread ↦
      if thread.ended then
        let errors := s.errors ++ thread.report Stage.shared.panicText
        if l.slowTick tick then some (l.spawned s .slow errors .slow)
        else some { s with errors, phase := .finished (resultOf tick errors) }
      else none
  | .slow =>
    (s.threads .slow).bind fun thread ↦
      if thread.ended then
        let errors := s.errors ++ thread.report Stage.slow.panicText
        some { s with errors, phase := .finished (resultOf tick errors) }
      else none
  | .finished _ => none

/-- A thread calls its next collector. -/
def collect (s : Ticking) (stage : Stage) : Option Ticking := do
  let thread ← s.threads stage
  let next ← thread.next
  some { s with
    threads := Function.update s.threads stage (some next)
    calls := s.calls ++ [(stage, thread.called)] }

/-- `tick_timed` (`collector.rs:316–392`), its clock aside. -/
def ticking : Machine Ticking TickAction where
  step s
    | .collect stage => collect s stage
    | .join => l.join tick s

end CollectorLoop

/-- The errors among these ends. -/
def errorsOf (endings : List Ending) : List String :=
  endings.filterMap fun
    | .failed error => some error
    | _ => none

/-- How many collectors are called, the first one that panics being the last. -/
def reached : List Ending → ℕ
  | [] => 0
  | .panicked :: _ => 1
  | _ :: rest => reached rest + 1

namespace CollectorLoop

variable (l : CollectorLoop) (tick : ℕ)

/-- The stages of a tick, in the order they are joined. -/
def stages : List Stage :=
  (List.range l.groups.length).map Stage.group ++
    .shared :: (if l.slowTick tick then [.slow] else [])

end CollectorLoop

section Threads

variable {endings : List Ending} {t u : Thread}

/-- Where a thread stands that has called the first of its collectors. -/
structure Thread.Follows (endings : List Ending) (t : Thread) : Prop where
  remaining : t.remaining = endings.drop t.called
  errors : t.errors = errorsOf (endings.take t.called)
  called : t.called ≤ reached endings
  panicked : t.panicked = true → t.called = reached endings ∧ .panicked ∈ endings
  calm : t.panicked = false → .panicked ∉ endings.take t.called

theorem Thread.follows_spawn (endings : List Ending) : (Thread.spawn endings).Follows endings where
  remaining := rfl
  errors := rfl
  called := Nat.zero_le _
  panicked := fun h ↦ absurd h Bool.false_ne_true
  calm := fun _ ↦ List.not_mem_nil

theorem errorsOf_append (xs ys : List Ending) :
    errorsOf (xs ++ ys) = errorsOf xs ++ errorsOf ys :=
  List.filterMap_append

theorem reached_cons {ending : Ending} (h : ending ≠ .panicked) (rest : List Ending) :
    reached (ending :: rest) = reached rest + 1 := by
  cases ending with
  | panicked => exact absurd rfl h
  | ok => rfl
  | failed error => rfl

/-- Collectors that do not panic are called. -/
theorem reached_append {before : List Ending} (h : .panicked ∉ before) (rest : List Ending) :
    reached (before ++ rest) = before.length + reached rest := by
  induction before with
  | nil => rw [List.nil_append, List.length_nil, Nat.zero_add]
  | cons ending before ih =>
    rw [List.mem_cons, not_or] at h
    rw [List.cons_append, reached_cons (Ne.symm h.1), ih h.2, List.length_cons]
    omega

theorem reached_of_calm (h : .panicked ∉ endings) : reached endings = endings.length := by
  have happend := reached_append h []
  rwa [List.append_nil] at happend

/-- Where the next call is among the collectors. -/
private theorem Thread.Follows.split {ending : Ending} {rest : List Ending}
    (h : t.Follows endings) (hpanicked : t.panicked = false)
    (hremaining : t.remaining = ending :: rest) :
    reached endings = t.called + reached (ending :: rest) ∧
      endings.take (t.called + 1) = endings.take t.called ++ [ending] ∧
      endings.drop (t.called + 1) = rest := by
  have hdrop : endings.drop t.called = ending :: rest := h.remaining.symm.trans hremaining
  have hlength : (endings.take t.called).length = t.called := by
    have hpositive : 0 < (endings.drop t.called).length := by
      rw [hdrop]
      exact Nat.succ_pos _
    rw [List.length_drop] at hpositive
    rw [List.length_take]
    omega
  refine ⟨?_, ?_, ?_⟩
  · have happend := reached_append (h.calm hpanicked) (endings.drop t.called)
    rwa [List.take_append_drop, hlength, hdrop] at happend
  · rw [List.take_add, hdrop]
    rfl
  · rw [← List.drop_drop, hdrop]
    rfl

/-- A call that does not panic. -/
private theorem Thread.Follows.go_on {ending : Ending} {rest : List Ending}
    {errors : List String} (h : t.Follows endings) (hpanicked : t.panicked = false)
    (hremaining : t.remaining = ending :: rest) (hcalm : ending ≠ .panicked)
    (herrors : errors = t.errors ++ errorsOf [ending]) :
    Thread.Follows endings ⟨t.called + 1, rest, errors, t.panicked⟩ := by
  obtain ⟨hreached, htake, hdrop⟩ := h.split hpanicked hremaining
  refine ⟨hdrop.symm, ?_, ?_, fun h ↦ absurd (hpanicked.symm.trans h) Bool.false_ne_true, ?_⟩
  · show errors = errorsOf (endings.take (t.called + 1))
    rw [htake, errorsOf_append, herrors, h.errors]
  · show t.called + 1 ≤ reached endings
    rw [hreached, reached_cons hcalm]
    omega
  · intro _
    show .panicked ∉ endings.take (t.called + 1)
    rw [htake, List.mem_append, List.mem_singleton, not_or]
    exact ⟨h.calm hpanicked, Ne.symm hcalm⟩

/-- A call that panics. -/
private theorem Thread.Follows.panic {rest : List Ending} (h : t.Follows endings)
    (hpanicked : t.panicked = false) (hremaining : t.remaining = .panicked :: rest) :
    Thread.Follows endings ⟨t.called + 1, rest, t.errors, true⟩ := by
  obtain ⟨hreached, htake, hdrop⟩ := h.split hpanicked hremaining
  have hmem : .panicked ∈ endings.take (t.called + 1) := by
    rw [htake]
    exact List.mem_append_right _ (List.mem_singleton_self _)
  refine ⟨hdrop.symm, ?_, hreached.ge, fun _ ↦ ⟨hreached.symm, List.mem_of_mem_take hmem⟩,
    fun h ↦ absurd h.symm Bool.false_ne_true⟩
  show t.errors = errorsOf (endings.take (t.called + 1))
  rw [htake, errorsOf_append, h.errors]
  exact (List.append_nil _).symm

theorem Thread.Follows.next (h : t.Follows endings) (hnext : t.next = some u) :
    u.Follows endings ∧ u.called = t.called + 1 := by
  rw [Thread.next] at hnext
  split at hnext
  · cases hnext
  · next hpanicked =>
    rw [Bool.not_eq_true] at hpanicked
    split at hnext
    · cases hnext
    · next rest hremaining =>
      obtain rfl := Option.some.inj hnext
      exact ⟨h.go_on hpanicked hremaining (by simp) (List.append_nil _).symm, rfl⟩
    · next error rest hremaining =>
      obtain rfl := Option.some.inj hnext
      exact ⟨h.go_on hpanicked hremaining (by simp) rfl, rfl⟩
    · next rest hremaining =>
      obtain rfl := Option.some.inj hnext
      exact ⟨h.panic hpanicked hremaining, rfl⟩

/-- A thread that has ended has called what is reached. -/
theorem Thread.Follows.ended (h : t.Follows endings) (hended : t.ended = true) :
    t.called = reached endings ∧ (t.panicked = true ↔ .panicked ∈ endings) ∧
      t.errors = errorsOf (endings.take (reached endings)) := by
  rw [Thread.ended, Bool.or_eq_true] at hended
  cases hpanicked : t.panicked with
  | true =>
    obtain ⟨hcalled, hmem⟩ := h.panicked hpanicked
    exact ⟨hcalled, iff_of_true rfl hmem, hcalled ▸ h.errors⟩
  | false =>
    have hempty : endings.drop t.called = [] := by
      rw [← h.remaining]
      simpa [hpanicked] using hended
    have hlength : endings.length ≤ t.called := List.drop_eq_nil_iff.mp hempty
    have htake : endings.take t.called = endings := List.take_of_length_le hlength
    have hcalm : .panicked ∉ endings := by
      rw [← htake]
      exact h.calm hpanicked
    have hcalled : t.called = reached endings := by
      have hle := h.called
      rw [reached_of_calm hcalm] at hle ⊢
      omega
    exact ⟨hcalled, iff_of_false Bool.false_ne_true hcalm, hcalled ▸ h.errors⟩

end Threads

namespace CollectorLoop

variable (l : CollectorLoop) (tick : ℕ)

/-- The stages of the groups. -/
def groupStages : List Stage := (List.range l.groups.length).map Stage.group

/-- The stages whose threads run or have run. -/
def spawnedStages : Phase → List Stage
  | .joining _ => l.groupStages
  | .shared => l.groupStages ++ [.shared]
  | .slow => l.groupStages ++ [.shared, .slow]
  | .finished _ => l.stages tick

/-- The stages that were joined. -/
def joinedStages : Phase → List Stage
  | .joining index => (List.range index).map Stage.group
  | .shared => l.groupStages
  | .slow => l.groupStages ++ [.shared]
  | .finished _ => l.stages tick

/-- What the join of a stage reports. -/
def report (stage : Stage) : List String :=
  if .panicked ∈ l.collectors stage then [stage.panicText]
  else
    match combineErrors (errorsOf (l.collectors stage)) with
    | .ok () => []
    | .error message => [message]

/-- What the phase says about the tick. -/
def PhaseHolds (s : Ticking) : Prop :=
  match s.phase with
  | .joining index => index ≤ l.groups.length
  | .shared => True
  | .slow => l.slowTick tick = true
  | .finished result => result = resultOf tick s.errors

/-- Where a tick stands. -/
structure Follows (s : Ticking) : Prop where
  threads : ∀ stage thread, s.threads stage = some thread → thread.Follows (l.collectors stage)
  spawned : ∀ stage, (s.threads stage).isSome ↔ stage ∈ l.spawnedStages tick s.phase
  calls : ∀ stage, (s.calls.filter fun c ↦ c.1 = stage).map Prod.snd =
    List.range (((s.threads stage).map Thread.called).getD 0)
  ordered : s.calls.Pairwise fun a b ↦ a.1.rank ≤ b.1.rank
  ended : ∀ stage ∈ l.joinedStages tick s.phase, ∀ thread, s.threads stage = some thread →
    thread.ended = true
  errors : s.errors = (l.joinedStages tick s.phase).flatMap l.report
  phase : l.PhaseHolds tick s

section Steps

variable {l tick} {s t : Ticking} {stage : Stage} {thread next : Thread}

theorem mem_groupStages {index : ℕ} : .group index ∈ l.groupStages ↔ index < l.groups.length := by
  simp [groupStages]

theorem follows_start : l.Follows tick l.start where
  threads := by
    intro stage thread hthread
    cases stage with
    | group index =>
      simp only [start] at hthread
      split at hthread
      · obtain rfl := Option.some.inj hthread
        exact Thread.follows_spawn _
      · cases hthread
    | shared => cases hthread
    | slow => cases hthread
  spawned := by
    intro stage
    cases stage with
    | group index =>
      simp only [start, spawnedStages, mem_groupStages]
      split <;> simp_all
    | shared => simp [start, spawnedStages, groupStages]
    | slow => simp [start, spawnedStages, groupStages]
  calls := by
    intro stage
    cases stage with
    | group index =>
      simp only [start]
      split <;> rfl
    | shared => rfl
    | slow => rfl
  ordered := List.Pairwise.nil
  ended := fun stage hstage ↦ absurd hstage List.not_mem_nil
  errors := rfl
  phase := Nat.zero_le _

/-- A thread that has ended reports what its stage does. -/
theorem report_eq (h : thread.Follows (l.collectors stage)) (hended : thread.ended = true) :
    thread.report stage.panicText = l.report stage := by
  obtain ⟨hcalled, hpanicked, herrors⟩ := h.ended hended
  rw [Thread.report, report]
  by_cases hmem : .panicked ∈ l.collectors stage
  · rw [if_pos (hpanicked.mpr hmem), if_pos hmem]
  · rw [if_neg (mt hpanicked.mp hmem), if_neg hmem, herrors, reached_of_calm hmem,
      List.take_length]

theorem ended_of_next (h : thread.next = some next) : thread.ended = false := by
  rw [Thread.next] at h
  split at h
  · cases h
  · next hpanicked =>
    rw [Thread.ended]
    cases hremaining : thread.remaining with
    | nil =>
      rw [hremaining] at h
      cases h
    | cons ending rest => simpa using hpanicked

/-- Later stages are spawned only once the earlier ones were joined. -/
theorem joined_of_rank_lt {phase : Phase} {later : Stage}
    (hlater : later ∈ l.spawnedStages tick phase) (h : stage ∈ l.spawnedStages tick phase)
    (hrank : stage.rank < later.rank) : stage ∈ l.joinedStages tick phase := by
  cases phase with
  | finished result => exact h
  | joining index =>
    obtain ⟨i, -, rfl⟩ := List.mem_map.mp hlater
    exact absurd hrank (Nat.not_lt_zero _)
  | shared =>
    rcases List.mem_append.mp h with h | h
    · exact h
    · -- Nothing is later than the shared collectors.
      obtain rfl := List.mem_singleton.mp h
      rcases List.mem_append.mp hlater with hlater | hlater
      · obtain ⟨i, -, rfl⟩ := List.mem_map.mp hlater
        exact absurd hrank (Nat.not_lt_zero _)
      · obtain rfl := List.mem_singleton.mp hlater
        exact absurd hrank (lt_irrefl _)
  | slow =>
    rcases List.mem_append.mp h with h | h
    · exact List.mem_append_left _ h
    · rcases List.mem_pair.mp h with rfl | rfl
      · exact List.mem_append_right _ (List.mem_singleton_self _)
      · -- Nothing is later than the slow collectors.
        exact absurd hrank (not_lt.mpr (by cases later <;> simp [Stage.rank]))

/-- A call of a collector. -/
theorem Follows.collect (h : l.Follows tick s) (hstep : collect s stage = some t) :
    l.Follows tick t := by
  obtain ⟨thread, hthread, hstep⟩ := Option.bind_eq_some_iff.mp hstep
  obtain ⟨next, hnext, hstep⟩ := Option.bind_eq_some_iff.mp hstep
  obtain rfl := Option.some.inj hstep
  obtain ⟨hfollows, hcalled⟩ := (h.threads stage thread hthread).next hnext
  have hrunning : stage ∉ l.joinedStages tick s.phase := by
    intro hjoined
    have hended := h.ended stage hjoined thread hthread
    rw [ended_of_next hnext] at hended
    exact Bool.false_ne_true hended
  constructor
  · intro other thread' hthread'
    dsimp only at hthread'
    by_cases hother : other = stage
    · subst hother
      rw [Function.update_self] at hthread'
      obtain rfl := Option.some.inj hthread'
      exact hfollows
    · rw [Function.update_of_ne hother] at hthread'
      exact h.threads other thread' hthread'
  · intro other
    dsimp only
    by_cases hother : other = stage
    · subst hother
      rw [Function.update_self, ← h.spawned, hthread]
      rfl
    · rw [Function.update_of_ne hother]
      exact h.spawned other
  · intro other
    have hcalls := h.calls other
    dsimp only
    rw [List.filter_append, List.map_append, hcalls]
    by_cases hother : other = stage
    · subst hother
      rw [Function.update_self, hthread]
      simp [hcalled, List.range_succ]
    · rw [Function.update_of_ne hother]
      simp [Ne.symm hother]
  · rw [List.pairwise_append]
    refine ⟨h.ordered, List.pairwise_singleton _ _, ?_⟩
    rintro ⟨earlier, place⟩ hcall _ hmem
    obtain rfl := List.mem_singleton.mp hmem
    -- A later stage is called only when this one has ended.
    by_contra hrank
    rw [not_le] at hrank
    have hcalls := h.calls earlier
    have hmem : place ∈ (s.calls.filter fun c ↦ c.1 = earlier).map Prod.snd :=
      List.mem_map.mpr ⟨(earlier, place), List.mem_filter.mpr ⟨hcall, by simp⟩, rfl⟩
    have hspawned : (s.threads earlier).isSome := by
      rw [hcalls] at hmem
      cases hnone : s.threads earlier with
      | some _ => rfl
      | none =>
        rw [hnone] at hmem
        exact absurd hmem List.not_mem_nil
    apply hrunning
    apply joined_of_rank_lt ((h.spawned earlier).mp hspawned) ((h.spawned stage).mp _) hrank
    rw [hthread]
    rfl
  · intro other hjoined thread' hthread'
    have hother : other ≠ stage := fun heq ↦ hrunning (heq ▸ hjoined)
    dsimp only at hthread'
    rw [Function.update_of_ne hother] at hthread'
    exact h.ended other hjoined thread' hthread'
  · exact h.errors
  · exact h.phase

/-- The thread of the tick goes on without a new thread. -/
theorem Follows.go_on (h : l.Follows tick s) {errors : List String} {phase : Phase}
    (hspawned : l.spawnedStages tick phase = l.spawnedStages tick s.phase)
    (hended : ∀ stage ∈ l.joinedStages tick phase, ∀ thread, s.threads stage = some thread →
      thread.ended = true)
    (herrors : errors = (l.joinedStages tick phase).flatMap l.report)
    (hphase : l.PhaseHolds tick { s with errors, phase }) :
    l.Follows tick { s with errors, phase } where
  threads := h.threads
  spawned := fun stage ↦ by
    rw [hspawned]
    exact h.spawned stage
  calls := h.calls
  ordered := h.ordered
  ended := hended
  errors := herrors
  phase := hphase

/-- The thread of the tick spawns the next stage. -/
theorem Follows.spawn (h : l.Follows tick s) (stage : Stage) {errors : List String}
    {phase : Phase}
    (hstage : stage ∉ l.spawnedStages tick s.phase)
    (hspawned : ∀ other, other ∈ l.spawnedStages tick phase ↔
      other = stage ∨ other ∈ l.spawnedStages tick s.phase)
    (hjoined : ∀ other ∈ l.joinedStages tick phase, other ∈ l.spawnedStages tick s.phase)
    (hended : ∀ other ∈ l.joinedStages tick phase, ∀ thread, s.threads other = some thread →
      thread.ended = true)
    (herrors : errors = (l.joinedStages tick phase).flatMap l.report)
    (hphase : l.PhaseHolds tick (l.spawned s stage errors phase)) :
    l.Follows tick (l.spawned s stage errors phase) := by
  have hnone : s.threads stage = none := by
    rw [← Option.not_isSome_iff_eq_none, h.spawned]
    exact hstage
  refine ⟨?_, ?_, ?_, h.ordered, ?_, herrors, hphase⟩
  · intro other thread hthread
    by_cases hother : other = stage
    · subst hother
      simp only [CollectorLoop.spawned, Function.update_self] at hthread
      obtain rfl := Option.some.inj hthread
      exact Thread.follows_spawn _
    · simp only [CollectorLoop.spawned, Function.update_of_ne hother] at hthread
      exact h.threads other thread hthread
  · intro other
    show (Function.update s.threads stage _ other).isSome ↔ other ∈ l.spawnedStages tick phase
    rw [hspawned]
    by_cases hother : other = stage
    · subst hother
      rw [Function.update_self]
      exact iff_of_true rfl (Or.inl rfl)
    · rw [Function.update_of_ne hother, h.spawned]
      exact (or_iff_right hother).symm
  · intro other
    have hcalls := h.calls other
    simp only [CollectorLoop.spawned]
    rw [hcalls]
    by_cases hother : other = stage
    · subst hother
      rw [Function.update_self, hnone]
      rfl
    · rw [Function.update_of_ne hother]
  · intro other hother thread hthread
    have hne : other ≠ stage := fun heq ↦ hstage (heq ▸ hjoined other hother)
    simp only [CollectorLoop.spawned, Function.update_of_ne hne] at hthread
    exact hended other hother thread hthread

/-- A stage that has ended is joined. -/
theorem Follows.joined_append (h : l.Follows tick s) (hthread : s.threads stage = some thread)
    (hended : thread.ended = true) (phase : Phase)
    (hjoined : l.joinedStages tick phase = l.joinedStages tick s.phase ++ [stage]) :
    (∀ other ∈ l.joinedStages tick phase, ∀ thread, s.threads other = some thread →
      thread.ended = true) ∧
    s.errors ++ thread.report stage.panicText = (l.joinedStages tick phase).flatMap l.report := by
  rw [hjoined]
  constructor
  · intro other hother thread' hthread'
    rcases List.mem_append.mp hother with hother | hother
    · exact h.ended other hother thread' hthread'
    · obtain rfl := List.mem_singleton.mp hother
      obtain rfl := Option.some.inj (hthread.symm.trans hthread')
      exact hended
  · rw [List.flatMap_append, List.flatMap_singleton, ← h.errors,
      report_eq (h.threads stage thread hthread) hended]

theorem stages_of_slow (h : l.slowTick tick = true) :
    l.stages tick = l.groupStages ++ [.shared, .slow] := by
  rw [stages, h]
  rfl

theorem stages_of_not_slow (h : l.slowTick tick = false) :
    l.stages tick = l.groupStages ++ [.shared] := by
  rw [stages, h]
  rfl

/-- A join, and the spawn of the stage after it. -/
theorem Follows.join (h : l.Follows tick s) (hstep : l.join tick s = some t) :
    l.Follows tick t := by
  have hphase := h.phase
  rw [PhaseHolds] at hphase
  rw [CollectorLoop.join] at hstep
  split at hstep
  · next index hs =>
    rw [hs] at hphase
    split at hstep
    · next hindex =>
      obtain ⟨thread, hthread, hstep⟩ := Option.bind_eq_some_iff.mp hstep
      split at hstep
      · next hended =>
        obtain rfl := Option.some.inj hstep
        have hjoined : l.joinedStages tick (.joining (index + 1)) =
            l.joinedStages tick s.phase ++ [.group index] := by
          rw [hs, joinedStages, List.range_succ, List.map_append]
          rfl
        obtain ⟨hall, herrors⟩ := h.joined_append hthread hended _ hjoined
        exact h.go_on (by rw [hs]; rfl) hall herrors (Nat.succ_le_of_lt hindex)
      · cases hstep
    · next hindex =>
      -- All groups were joined.
      obtain rfl := Option.some.inj hstep
      have hlast : l.joinedStages tick s.phase = l.joinedStages tick .shared := by
        rw [hs, joinedStages, joinedStages, groupStages, Nat.le_antisymm hphase (by omega)]
      apply h.spawn .shared
      · rw [hs, spawnedStages]
        simp [groupStages]
      · intro other
        rw [hs, spawnedStages, spawnedStages, List.mem_append, List.mem_singleton]
        exact or_comm
      · intro other hother
        rw [hs]
        exact hother
      · rw [← hlast]
        exact h.ended
      · rw [← hlast]
        exact h.errors
      · trivial
  · next hs =>
    obtain ⟨thread, hthread, hstep⟩ := Option.bind_eq_some_iff.mp hstep
    split at hstep
    · next hended =>
      split at hstep
      · next hslow =>
        obtain rfl := Option.some.inj hstep
        obtain ⟨hall, herrors⟩ := h.joined_append hthread hended .slow (by rw [hs]; rfl)
        apply h.spawn .slow
        · rw [hs, spawnedStages]
          simp [groupStages]
        · intro other
          rw [hs, spawnedStages, spawnedStages]
          simp only [List.mem_append, List.mem_cons, List.not_mem_nil, or_false]
          tauto
        · intro other hother
          rw [hs]
          exact hother
        · exact hall
        · exact herrors
        · exact hslow
      · next hslow =>
        rw [Bool.not_eq_true] at hslow
        obtain rfl := Option.some.inj hstep
        obtain ⟨hall, herrors⟩ := h.joined_append hthread hended (.finished (.ok ())) (by
          rw [hs]
          exact stages_of_not_slow hslow)
        exact h.go_on (by rw [hs]; exact stages_of_not_slow hslow) hall herrors rfl
    · cases hstep
  · next hs =>
    rw [hs] at hphase
    obtain ⟨thread, hthread, hstep⟩ := Option.bind_eq_some_iff.mp hstep
    split at hstep
    · next hended =>
      obtain rfl := Option.some.inj hstep
      obtain ⟨hall, herrors⟩ := h.joined_append hthread hended (.finished (.ok ())) (by
        rw [hs]
        exact (stages_of_slow hphase).trans (List.append_assoc _ [_] [_]).symm)
      exact h.go_on (by rw [hs]; exact stages_of_slow hphase) hall herrors rfl
    · cases hstep
  · cases hstep

theorem Follows.step (h : l.Follows tick s) {action : TickAction}
    (hstep : (l.ticking tick).step s action = some t) : l.Follows tick t := by
  cases action with
  | collect stage => exact h.collect hstep
  | join => exact h.join hstep

/-- Every state of a tick. -/
theorem follows_run {actions : List TickAction}
    (h : (l.ticking tick).run l.start actions = some s) : l.Follows tick s :=
  Machine.run_invariant follows_start (fun hu hstep ↦ hu.step hstep) h

end Steps

end CollectorLoop

end Daku.Collector
