import Daku.Base.Machine
import Daku.Collector.Ticks
import Daku.Wire.Message

/-!
# The pace of the collector loop

`CollectorLoop::run` of `crates/daku-core/src/collector.rs:394–430`: when ticks start, when they are
followed by a publish, and what a machine without a network and a shutdown do to them. What a tick
does is in `Daku.Collector.Ticks`; here it takes some time. Times are nanoseconds of a clock that
never goes back.
-/

namespace Daku.Collector

open Daku.Base Daku.Wire

/-- A second in nanoseconds. -/
def second : ℕ := 1000000000

/-- `MIN_POLL_INTERVAL_SECS` (`collector.rs:41`). -/
def minPollIntervalSecs : ℕ := 30

/-- `DEFAULT_POLL_INTERVAL_SECS` (`settings.rs:3`). -/
def defaultPollIntervalSecs : ℕ := 120

/-- `DEFAULT_SLOW_POLL_INTERVAL_SECS` (`settings.rs:7`). -/
def defaultSlowPollIntervalSecs : ℕ := 1800

/-- `poll_interval_secs` (`collector.rs:60–65`). -/
def pollIntervalSecs (settings : DaemonSettings) : ℕ :=
  match settings.pollIntervalSecs with
  | 0 => defaultPollIntervalSecs
  | secs => max secs minPollIntervalSecs

/-- `slow_poll_interval_secs` (`collector.rs:68–75`). -/
def slowPollIntervalSecs (settings : DaemonSettings) : ℕ :=
  let slow :=
    match settings.slowPollIntervalSecs with
    | 0 => defaultSlowPollIntervalSecs
    | secs => secs
  max slow (pollIntervalSecs settings)

/-- The interval of a loop, and which of its ticks are slow (`collector.rs:246–260`). -/
structure Pace where
  interval : ℕ
  slowEvery : ℕ

/-- `CollectorLoop::with_slow_interval` (`collector.rs:269–282`). -/
def Pace.withSlowInterval (interval slowInterval : ℕ) : Pace :=
  let intervalSecs := max (interval / second) 1
  let slowSecs := max (slowInterval / second) 1
  -- `div_ceil`
  ⟨interval, max ((slowSecs + intervalSecs - 1) / intervalSecs) 1⟩

/-- The loop that the daemon starts (`collector.rs:713–722`). -/
def Pace.ofSettings (settings : DaemonSettings) : Pace :=
  .withSlowInterval (pollIntervalSecs settings * second) (slowPollIntervalSecs settings * second)

/-- Where the loop is. -/
inductive LoopPhase where
  /-- Before the first publish (`collector.rs:402`). -/
  | booting
  /-- At the condition of the loop (`collector.rs:404`). -/
  | head (wasOffline : Bool)
  /-- In the offline check (`collector.rs:405`). -/
  | checking (wasOffline : Bool)
  /-- Sleeping for lack of a network (`collector.rs:412`). -/
  | pausing (wake : ℕ)
  /-- In a tick (`collector.rs:419`). -/
  | ticking (started : ℕ)
  /-- In the publish after a tick (`collector.rs:423`). -/
  | publishing (elapsed : ℕ)
  /-- Sleeping for the rest of the interval (`collector.rs:428`). -/
  | sleeping (wake : ℕ)
  | ended
  deriving DecidableEq, Repr

/-- The loop with what it has done so far. -/
structure LoopState where
  now : ℕ
  shutdown : Bool
  phase : LoopPhase
  /-- When the ticks started. -/
  starts : List ℕ
  publishes : ℕ
  /-- Ticks that started before the shutdown was asked for. -/
  beforeShutdown : ℕ
  deriving DecidableEq, Repr

/-- What happens next. -/
inductive LoopAction where
  /-- The daemon asks for the shutdown. -/
  | shutdown (time : ℕ)
  /-- What the loop is doing is over; an offline check has the given answer. -/
  | proceed (time : ℕ) (offline : Bool)
  deriving DecidableEq, Repr

/-- The loop before it runs. -/
def LoopState.boot : LoopState := ⟨0, false, .booting, [], 0, 0⟩

namespace Pace

/-- The loop goes on from a phase that is over (`collector.rs:402–429`). -/
def proceed (pace : Pace) (s : LoopState) (time : ℕ) (offline : Bool) : Option LoopState :=
  let s' := { s with now := time }
  match s.phase with
  | .booting => some { s' with phase := .head false, publishes := s.publishes + 1 }
  | .head wasOffline =>
    some { s' with phase := if s.shutdown then .ended else .checking wasOffline }
  | .checking _ =>
    if offline then some { s' with phase := .pausing (time + 10 * second) }
    else some { s' with phase := .ticking time, starts := s.starts ++ [time] }
  | .pausing wake => if time < wake then none else some { s' with phase := .head true }
  | .ticking started => some { s' with phase := .publishing (time - started) }
  | .publishing elapsed =>
    some { s' with
      publishes := s.publishes + 1
      -- An overrunning tick sleeps zero: the subtraction saturates.
      phase := if s.shutdown then .ended else .sleeping (time + (pace.interval - elapsed)) }
  | .sleeping wake => if time < wake then none else some { s' with phase := .head false }
  | .ended => none

/-- The loop next to a daemon that may ask for the shutdown at any time. -/
def loop (pace : Pace) : Machine LoopState LoopAction where
  step s
    | .shutdown time =>
      if time < s.now ∨ s.shutdown then none
      else some { s with now := time, shutdown := true, beforeShutdown := s.starts.length }
    | .proceed time offline => if time < s.now then none else pace.proceed s time offline

end Pace

/-- How many publishes there are in a phase after some ticks: one more than ticks, except while
the publish of the last tick, or the first one, is to come. -/
def LoopPhase.publishes (ticks : ℕ) : LoopPhase → ℕ
  | .booting => 0
  | .ticking _ | .publishing _ => ticks
  | _ => ticks + 1

/-- How many ticks may have started after the shutdown was asked for. -/
def LoopPhase.late : LoopPhase → ℕ
  | .ticking _ | .publishing _ | .ended => 1
  | _ => 0

/-- From when on the next tick may start. -/
def LoopState.ready (pace : Pace) (s : LoopState) : ℕ :=
  match s.phase with
  | .sleeping wake => max s.now wake
  | .publishing elapsed => s.now + (pace.interval - elapsed)
  | .ticking started => max s.now (started + pace.interval)
  | _ => s.now

/-- What every state of the loop keeps. -/
structure Paced (pace : Pace) (s : LoopState) : Prop where
  /-- Ticks are an interval apart. -/
  apart : s.starts.Pairwise fun a b ↦ a + pace.interval ≤ b
  /-- So is the next one. -/
  next : s.phase ≠ .ended → ∀ a ∈ s.starts, a + pace.interval ≤ s.ready pace
  /-- The current tick started in the past. -/
  started : ∀ started, s.phase = .ticking started → started ≤ s.now
  /-- There is no tick before the first publish. -/
  booting : s.phase = .booting → s.starts = []
  /-- Every tick is followed by its publish. -/
  publishes : s.publishes = s.phase.publishes s.starts.length
  /-- At most the tick that was about to start follows the shutdown. -/
  stops : s.shutdown = true → s.starts.length ≤ s.beforeShutdown + s.phase.late

section Steps

variable {pace : Pace} {s t : LoopState} {time : ℕ}

theorem paced_boot (pace : Pace) : Paced pace .boot where
  apart := .nil
  next := fun _ a ha ↦ absurd ha List.not_mem_nil
  started := fun _ h ↦ by cases h
  booting := fun _ ↦ rfl
  publishes := rfl
  stops := fun h ↦ by cases h

/-- Asking for the shutdown changes nothing about the ticks. -/
theorem Paced.shutdown (h : Paced pace s) (hnow : s.now ≤ time) :
    Paced pace { s with
      now := time, shutdown := true, beforeShutdown := s.starts.length } where
  apart := h.apart
  next := fun hphase a ha ↦ by
    have hnext := h.next hphase a ha
    simp only [LoopState.ready] at hnext ⊢
    split at hnext <;> omega
  started := fun started hphase ↦ (h.started started hphase).trans hnow
  booting := h.booting
  publishes := h.publishes
  stops := fun _ ↦ Nat.le_add_right _ _

/-- Another phase, with as many ticks and publishes. -/
theorem Paced.moved (h : Paced pace s) {phase : LoopPhase} (hbooting : phase ≠ .booting)
    (hticking : ∀ started, phase ≠ .ticking started) (hended : s.phase ≠ .ended)
    (hready : phase ≠ .ended →
      s.ready pace ≤ ({ s with now := time, phase := phase } : LoopState).ready pace)
    (hpublishes : phase.publishes s.starts.length = s.phase.publishes s.starts.length)
    (hlate : s.phase.late ≤ phase.late) : Paced pace { s with now := time, phase := phase } where
  apart := h.apart
  next := fun hphase a ha ↦ (h.next hended a ha).trans (hready hphase)
  started := fun started hphase ↦ absurd hphase (hticking started)
  booting := fun hphase ↦ absurd hphase hbooting
  publishes := h.publishes.trans hpublishes.symm
  stops := fun hshutdown ↦ (h.stops hshutdown).trans (Nat.add_le_add_left hlate _)

/-- A tick starts. -/
theorem Paced.tick (h : Paced pace s) (hnow : s.now ≤ time) {wasOffline : Bool}
    (hphase : s.phase = .checking wasOffline) :
    Paced pace { s with now := time, phase := .ticking time, starts := s.starts ++ [time] } := by
  have hlate : ∀ a ∈ s.starts, a + pace.interval ≤ time := by
    intro a ha
    have hnext := h.next (by rw [hphase]; exact LoopPhase.noConfusion) a ha
    simp only [LoopState.ready, hphase] at hnext
    omega
  refine ⟨?_, fun _ a ha ↦ ?_, fun started hs ↦ ?_, fun hs ↦ (by cases hs), ?_,
    fun hshutdown ↦ ?_⟩
  · exact List.pairwise_append.mpr ⟨h.apart, List.pairwise_singleton _ _,
      fun a ha b hb ↦ List.mem_singleton.mp hb ▸ hlate a ha⟩
  · rcases List.mem_append.mp ha with ha | ha
    · have hold := hlate a ha
      simp only [LoopState.ready]
      omega
    · rw [List.mem_singleton.mp ha]
      exact Nat.le_max_right _ _
  · rw [LoopPhase.ticking.inj hs]
  · have hpublishes := h.publishes
    rw [hphase] at hpublishes
    simpa [LoopPhase.publishes] using hpublishes
  · have hstops := h.stops hshutdown
    rw [hphase] at hstops
    simpa [LoopPhase.late] using hstops

/-- Every step of the loop keeps its pace. -/
theorem Paced.proceed (h : Paced pace s) (hnow : s.now ≤ time) {offline : Bool}
    (hstep : pace.proceed s time offline = some t) : Paced pace t := by
  rw [Pace.proceed] at hstep
  split at hstep
  · next hphase =>
    obtain rfl := Option.some.inj hstep
    have hpublishes := h.publishes
    have hstops := h.stops
    rw [hphase] at hpublishes hstops
    have hstarts := h.booting hphase
    refine ⟨h.apart, fun _ a ha ↦ ?_, fun _ hs ↦ (by cases hs), fun _ ↦ hstarts, ?_, hstops⟩
    · rw [hstarts] at ha
      cases ha
    · simp only [hpublishes, hstarts]
      rfl
  · next wasOffline hphase =>
    obtain rfl := Option.some.inj hstep
    by_cases hshutdown : s.shutdown = true
    · rw [if_pos hshutdown]
      refine h.moved ?_ ?_ ?_ ?_ ?_ ?_
      all_goals simp [hphase, LoopPhase.publishes, LoopPhase.late]
    · rw [if_neg hshutdown]
      refine h.moved ?_ ?_ ?_ ?_ ?_ ?_
      all_goals simp [hphase, LoopState.ready, LoopPhase.publishes, LoopPhase.late, hnow]
  · next wasOffline hphase =>
    split at hstep
    · obtain rfl := Option.some.inj hstep
      refine h.moved ?_ ?_ ?_ ?_ ?_ ?_
      all_goals simp [hphase, LoopState.ready, LoopPhase.publishes, LoopPhase.late, hnow]
    · obtain rfl := Option.some.inj hstep
      exact h.tick hnow hphase
  · next wake hphase =>
    split at hstep
    · cases hstep
    · obtain rfl := Option.some.inj hstep
      refine h.moved ?_ ?_ ?_ ?_ ?_ ?_
      all_goals simp [hphase, LoopState.ready, LoopPhase.publishes, LoopPhase.late, hnow]
  · next started hphase =>
    obtain rfl := Option.some.inj hstep
    have hstarted := h.started started hphase
    refine h.moved ?_ ?_ ?_ ?_ ?_ ?_
    all_goals simp [hphase, LoopState.ready, LoopPhase.publishes, LoopPhase.late]
    omega
  · next elapsed hphase =>
    obtain rfl := Option.some.inj hstep
    have hpublishes : s.publishes + 1 = s.starts.length + 1 := by rw [h.publishes, hphase]; rfl
    have hstops : s.shutdown = true → s.starts.length ≤ s.beforeShutdown + 1 := by
      intro hshutdown
      have hlate := h.stops hshutdown
      rw [hphase] at hlate
      exact hlate
    by_cases hshutdown : s.shutdown = true
    · rw [if_pos hshutdown]
      exact ⟨h.apart, fun hs ↦ absurd rfl hs, fun _ hs ↦ (by cases hs), fun hs ↦ (by cases hs),
        hpublishes, hstops⟩
    · rw [if_neg hshutdown]
      refine ⟨h.apart, fun _ a ha ↦ ?_, fun _ hs ↦ (by cases hs), fun hs ↦ (by cases hs),
        hpublishes, fun hs ↦ absurd hs hshutdown⟩
      have hnext := h.next (by rw [hphase]; exact LoopPhase.noConfusion) a ha
      simp only [LoopState.ready, hphase] at hnext ⊢
      omega
  · next wake hphase =>
    split at hstep
    · cases hstep
    · next hwake =>
      obtain rfl := Option.some.inj hstep
      refine h.moved ?_ ?_ ?_ ?_ ?_ ?_
      all_goals simp [hphase, LoopState.ready, LoopPhase.publishes, LoopPhase.late]
      omega
  · cases hstep

end Steps

section Runs

variable {pace : Pace} {s : LoopState}

theorem paced_run {actions : List LoopAction}
    (hrun : pace.loop.run .boot actions = some s) : Paced pace s := by
  refine Machine.run_invariant (paced_boot pace) ?_ hrun
  intro u action v h hstep
  cases action with
  | shutdown time =>
    simp only [Pace.loop] at hstep
    split at hstep
    · cases hstep
    · next hallowed =>
      obtain rfl := Option.some.inj hstep
      exact h.shutdown (by omega)
  | proceed time offline =>
    simp only [Pace.loop] at hstep
    split at hstep
    · cases hstep
    · exact h.proceed (by omega) hstep

/-- Some ticks later, as many intervals have passed. -/
theorem Paced.starts_le (h : Paced pace s) (i k : ℕ) (hk : i + k < s.starts.length) :
    s.starts[i] + k * pace.interval ≤ s.starts[i + k] := by
  induction k with
  | zero => simp
  | succ k ih =>
    have hnext := List.pairwise_iff_getElem.mp h.apart (i + k) (i + k + 1) (by omega) hk (by omega)
    have hbefore := ih (by omega)
    rw [Nat.succ_mul]
    calc s.starts[i] + (k * pace.interval + pace.interval)
        = s.starts[i] + k * pace.interval + pace.interval := (Nat.add_assoc ..).symm
      _ ≤ s.starts[i + k] + pace.interval := Nat.add_le_add_right hbefore _
      _ ≤ s.starts[i + (k + 1)] := hnext

end Runs

section Settings

variable (settings : DaemonSettings)

theorem minPollIntervalSecs_le : minPollIntervalSecs ≤ pollIntervalSecs settings := by
  rw [pollIntervalSecs]
  split
  · decide
  · exact Nat.le_max_right _ _

/-- As many ticks as there are from one slow tick to the next take the slow interval. -/
theorem slowPollIntervalSecs_le : slowPollIntervalSecs settings ≤
    (Pace.ofSettings settings).slowEvery * pollIntervalSecs settings := by
  have hpos : 0 < second := by decide
  have hpoll : 1 ≤ pollIntervalSecs settings :=
    (by decide : 1 ≤ minPollIntervalSecs).trans (minPollIntervalSecs_le settings)
  have hslow : pollIntervalSecs settings ≤ slowPollIntervalSecs settings := Nat.le_max_right _ _
  rw [Pace.ofSettings, Pace.withSlowInterval]
  simp only [Nat.mul_div_cancel _ hpos]
  rw [max_eq_left hpoll, max_eq_left (hpoll.trans hslow)]
  set poll := pollIntervalSecs settings
  set slow := slowPollIntervalSecs settings
  have hceil : slow ≤ (slow + poll - 1) / poll * poll := by
    have hmod := Nat.div_add_mod (slow + poll - 1) poll
    have hlt := Nat.mod_lt (slow + poll - 1) (by omega : 0 < poll)
    rw [Nat.mul_comm] at hmod
    omega
  exact hceil.trans (Nat.mul_le_mul_right _ (Nat.le_max_left _ _))

end Settings

/-- Over every run of the loop that the daemon starts, whatever the ticks take, whatever the
network does and whenever the shutdown is asked for: ticks are at least the poll interval apart,
slow ones at least the slow interval; every tick is followed by its publish; and of the ticks
only one that was about to start comes after the shutdown was asked for. -/
theorem loop_paced (settings : DaemonSettings) (actions : List LoopAction) (s : LoopState)
    (hrun : (Pace.ofSettings settings).loop.run .boot actions = some s) :
    (∀ i j (hij : i ≤ j) (hj : j < s.starts.length),
      s.starts[i] + (j - i) * (pollIntervalSecs settings * second) ≤ s.starts[j]) ∧
    (∀ l : CollectorLoop, l.slowEvery = (Pace.ofSettings settings).slowEvery →
      ∀ i j (hij : i < j) (hj : j < s.starts.length), l.slowTick i = true → l.slowTick j = true →
        s.starts[i] + slowPollIntervalSecs settings * second ≤ s.starts[j]) ∧
    s.publishes = s.phase.publishes s.starts.length ∧
    (s.shutdown = true → s.starts.length ≤ s.beforeShutdown + 1) := by
  have h := paced_run hrun
  have hstarts : ∀ i j (hij : i ≤ j) (hj : j < s.starts.length),
      s.starts[i] + (j - i) * (pollIntervalSecs settings * second) ≤ s.starts[j] := by
    intro i j hij hj
    have hle := h.starts_le i (j - i) (by omega)
    simp only [Nat.add_sub_cancel' hij] at hle
    exact hle
  refine ⟨hstarts, ?_, h.publishes, fun hshutdown ↦ ?_⟩
  · intro l hevery i j hij hj hi hslow
    simp only [CollectorLoop.slowTick, decide_eq_true_eq, hevery] at hi hslow
    set every := (Pace.ofSettings settings).slowEvery
    have hturns : every ≤ j - i := by
      have hdvd : every ∣ j - i :=
        Nat.dvd_sub (Nat.dvd_of_mod_eq_zero hslow) (Nat.dvd_of_mod_eq_zero hi)
      exact Nat.le_of_dvd (by omega) hdvd
    have hwait : slowPollIntervalSecs settings * second ≤
        (j - i) * (pollIntervalSecs settings * second) := by
      rw [← Nat.mul_assoc]
      exact Nat.mul_le_mul_right _
        ((slowPollIntervalSecs_le settings).trans (Nat.mul_le_mul_right _ hturns))
    exact (Nat.add_le_add_left hwait _).trans (hstarts i j hij.le hj)
  · have hlate : s.phase.late ≤ 1 := by
      cases s.phase <;> simp [LoopPhase.late]
    exact (h.stops hshutdown).trans (Nat.add_le_add_left hlate _)

/-- A loop of 30 and 60 seconds: a tick, a pause without a network, a tick during whose check the
shutdown is asked for. -/
def shutdownDuringCheck : List LoopAction :=
  [.proceed 1 false, .proceed 1 false, .proceed 2 false, .proceed 5 false, .proceed 6 false,
    .proceed 30000000003 false, .proceed 30000000003 false, .proceed 30000000004 true,
    .proceed 40000000004 false, .proceed 40000000004 false, .shutdown 40000000005,
    .proceed 40000000006 false, .proceed 40000000007 false, .proceed 40000000008 false]

theorem loop_paced_shutdown :
    ∃ s, (Pace.ofSettings ⟨30, 60, none⟩).loop.run .boot shutdownDuringCheck = some s ∧
      s.phase = .ended ∧ s.publishes = 3 ∧ s.starts.length = 2 ∧
      s.starts.length ≤ s.beforeShutdown + 1 := by
  refine ⟨⟨40000000008, true, .ended, [2, 40000000006], 3, 1⟩, by decide +kernel, rfl, rfl, rfl, ?_⟩
  exact (loop_paced ⟨30, 60, none⟩ shutdownDuringCheck _ (by decide +kernel)).2.2.2 rfl

end Daku.Collector
