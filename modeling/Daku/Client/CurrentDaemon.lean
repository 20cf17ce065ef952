import Daku.Client.Supervisor

/-!
# Subscribers follow the daemon

Every client that is sent, by a call of `subscribe_clients` or by the monitor thread
(`crates/daku-client/src/process.rs:364–379, 476–480, 521–526`), is the target's at that moment:
the monitor thread alone changes the target, and does not change it again before it has told
everybody.
-/

namespace Daku.Client

open Daku.Base

/-- The call holds the lock of the target. -/
def SubscriberPhase.HoldsTarget : SubscriberPhase → Prop
  | .targetLocked | .pushed | .read _ | .sent => True
  | .idle | .returned | .hungUp => False

/-- The sender is in the list, and the receiver is there. -/
def SubscriberPhase.Listed : SubscriberPhase → Prop
  | .pushed | .read _ | .sent | .returned => True
  | .idle | .targetLocked | .hungUp => False

/-- The first client has been sent, and the receiver is there. -/
def SubscriberPhase.Subscribed : SubscriberPhase → Prop
  | .sent | .returned => True
  | .idle | .targetLocked | .pushed | .read _ | .hungUp => False

/-- The sender has been put into the list. -/
def SubscriberPhase.Pushed : SubscriberPhase → Prop
  | .pushed | .read _ | .sent | .returned | .hungUp => True
  | .idle | .targetLocked => False

namespace Supervisor

variable {ι : Type} (s : Supervisor ι)

/-- The target is set and not everybody has been told. -/
def Replacing : Prop :=
  match s.monitor with
  | .swapped _ | .fanningOut _ _ => True
  | .polling | .spawning | .connecting | .connected _ => False

/-- A subscriber the monitor thread has still to tell. -/
def Untold (i : ι) : Prop :=
  match s.monitor with
  | .swapped _ => True
  | .fanningOut _ todo => i ∈ todo
  | .polling | .spawning | .connecting | .connected _ => False

/-- The clients a subscriber has received are targets since it joined, never an older one after
a newer one; and the last one is the current target's, unless a replacement is in progress. -/
structure Follows : Prop where
  first : ∀ i, (s.subscribers i).phase.Subscribed → ∃ client,
    (s.subscribers i).received.head? = some client ∧
      (s.subscribers i).joined ≤ client ∧ client ≤ s.target.client
  since : ∀ i, ∀ client ∈ (s.subscribers i).received,
    (s.subscribers i).joined ≤ client ∧ client ≤ s.target.client
  ordered : ∀ i, (s.subscribers i).received.Pairwise (· ≤ ·)
  current : ¬ s.Replacing → ∀ i, (s.subscribers i).phase.Subscribed →
    (s.subscribers i).received.getLast? = some s.target.client

end Supervisor

/-- What a subscriber knows of the current client, of the lock, of the list, and of what the
monitor thread has still to do for it. -/
structure Subscriber.Keeps (current : ℕ) (hasLock inList untold : Prop) (c : Subscriber) :
    Prop where
  since : ∀ client ∈ c.received, c.joined ≤ client ∧ client ≤ current
  ordered : c.received.Pairwise (· ≤ ·)
  idle : c.phase = .idle → c.received = []
  joined : c.phase ≠ .idle → c.joined ≤ current
  read : ∀ client, c.phase = .read client → client = current
  locked : c.phase.HoldsTarget → hasLock
  listed : c.phase.Listed → inList
  pushed : inList → c.phase.Pushed
  last : c.phase.Subscribed → ¬ untold → c.received.getLast? = some current
  told : c.phase.Subscribed → c.received ≠ []

section

variable {current current' : ℕ} {hasLock hasLock' inList inList' untold untold' : Prop}
  {c : Subscriber}

/-- What the others do leaves a subscriber in place. -/
theorem Subscriber.Keeps.mono (h : c.Keeps current hasLock inList untold)
    (hcurrent : current ≤ current') (hread : c.phase.HoldsTarget → current' = current)
    (hlocked : c.phase.HoldsTarget → hasLock → hasLock')
    (hlisted : c.phase.Listed → inList → inList') (hpushed : inList' → inList)
    (huntold : c.phase.Subscribed → ¬ untold' → ¬ untold ∧ current' = current) :
    c.Keeps current' hasLock' inList' untold' where
  since client hmem := ⟨(h.since client hmem).1, Nat.le_trans (h.since client hmem).2 hcurrent⟩
  ordered := h.ordered
  idle := h.idle
  joined hphase := Nat.le_trans (h.joined hphase) hcurrent
  read client hphase := (h.read client hphase).trans (hread (by rw [hphase]; trivial)).symm
  locked hphase := hlocked hphase (h.locked hphase)
  listed hphase := hlisted hphase (h.listed hphase)
  pushed hlisted := h.pushed (hpushed hlisted)
  last hphase hnot := by
    obtain ⟨htold, rfl⟩ := huntold hphase hnot
    exact h.last hphase htold
  told := h.told

/-- A subscriber goes on without being sent anything. -/
theorem Subscriber.Keeps.move {phase : SubscriberPhase}
    (h : c.Keeps current hasLock inList untold) (hbusy : c.phase ≠ .idle) (hphase : phase ≠ .idle)
    (hread : ∀ client, phase = .read client → client = current)
    (hlocked : phase.HoldsTarget → hasLock') (hlisted : phase.Listed → inList')
    (hpushed : inList' → phase.Pushed) (hsubscribed : phase.Subscribed → c.phase.Subscribed) :
    Subscriber.Keeps current hasLock' inList' untold { c with phase } where
  since := h.since
  ordered := h.ordered
  idle hidle := absurd hidle hphase
  joined _ := h.joined hbusy
  read := hread
  locked := hlocked
  listed := hlisted
  pushed := hpushed
  last hphase := h.last (hsubscribed hphase)
  told hphase := h.told (hsubscribed hphase)

/-- The current client is sent. -/
theorem Subscriber.Keeps.deliver {phase : SubscriberPhase}
    (h : c.Keeps current hasLock inList untold) (hbusy : c.phase ≠ .idle) (hphase : phase ≠ .idle)
    (hread : ∀ client, phase = .read client → client = current)
    (hlocked : phase.HoldsTarget → hasLock) (hlisted : phase.Listed → inList)
    (hpushed : inList → phase.Pushed) :
    Subscriber.Keeps current hasLock inList untold'
      { c with phase, received := c.received ++ [current] } where
  since client hmem := by
    rcases List.mem_append.mp hmem with hmem | hmem
    · exact h.since client hmem
    · rw [List.mem_singleton.mp hmem]
      exact ⟨h.joined hbusy, Nat.le_refl _⟩
  ordered := by
    rw [List.pairwise_append]
    refine ⟨h.ordered, List.pairwise_singleton _ _, fun a ha b hb ↦ ?_⟩
    rw [List.mem_singleton.mp hb]
    exact (h.since a ha).2
  idle hidle := absurd hidle hphase
  joined _ := h.joined hbusy
  read := hread
  locked := hlocked
  listed := hlisted
  pushed := hpushed
  last _ _ := by simp
  told _ := by simp

end

/-- What the monitor thread knows of the target and of the subscribers it has to tell. -/
def MonitorPhase.Fits {ι : Type} (current : ℕ) (subscribers : ι → Subscriber) :
    MonitorPhase ι → Prop
  | .polling | .spawning | .connecting => True
  | .connected target => target.client = current + 1
  | .swapped client => client = current
  | .fanningOut client todo => client = current ∧ ∀ i ∈ todo, (subscribers i).phase.Pushed

namespace Supervisor

variable {ι : Type}

/-- Everybody is in place. -/
structure Consistent (s : Supervisor ι) : Prop where
  monitor : s.monitor.Fits s.target.client s.subscribers
  subscribers : ∀ i, (s.subscribers i).Keeps s.target.client (s.targetLock = some i)
    (i ∈ s.clientUpdates) (s.Untold i)

theorem replacing_of_untold {s : Supervisor ι} {i : ι} (h : s.Untold i) : s.Replacing := by
  unfold Untold at h
  unfold Replacing
  split at h
  · trivial
  · trivial
  all_goals exact h.elim

theorem Consistent.follows {s : Supervisor ι} (h : s.Consistent) : s.Follows where
  first i hphase := by
    have hne := (h.subscribers i).told hphase
    refine ⟨_, List.head?_eq_some_head hne, ?_⟩
    exact (h.subscribers i).since _ (List.head_mem hne)
  since i := (h.subscribers i).since
  ordered i := (h.subscribers i).ordered
  current hnot i hphase := by
    exact (h.subscribers i).last hphase fun huntold ↦ hnot (replacing_of_untold huntold)

theorem consistent_start (target : ℕ → DaemonTarget) :
    (start target : Supervisor ι).Consistent where
  monitor := trivial
  subscribers _ := {
    since := by simp [start]
    ordered := List.Pairwise.nil
    idle := fun _ ↦ rfl
    joined := fun h ↦ absurd rfl h
    read := by simp [start]
    locked := False.elim
    listed := False.elim
    pushed := by simp [start]
    last := False.elim
    told := False.elim }

namespace Consistent

variable {s t : Supervisor ι} (h : s.Consistent)
include h

/-- The monitor thread does something that no subscriber sees. -/
theorem setMonitor {target : DaemonTarget} {monitor : MonitorPhase ι}
    (hclient : target.client = s.target.client)
    (hfits : monitor.Fits s.target.client s.subscribers)
    (huntold : ∀ i, (s.subscribers i).phase.Subscribed →
      ¬ Untold { s with target, monitor } i → ¬ s.Untold i) :
    Consistent { s with target, monitor } where
  monitor := by
    show monitor.Fits target.client s.subscribers
    rwa [hclient]
  subscribers i := (h.subscribers i).mono (Nat.le_of_eq hclient.symm) (fun _ ↦ hclient)
    (fun _ ↦ id) (fun _ ↦ id) id fun hphase hnot ↦ ⟨huntold i hphase hnot, hclient⟩

theorem setTarget {target : DaemonTarget} (hmonitor : s.monitor = .connected target)
    (hfree : s.targetLock = none) :
    Consistent { s with target, monitor := .swapped target.client } where
  monitor := rfl
  subscribers i := by
    have hclient := h.monitor
    rw [hmonitor] at hclient
    have hclient : target.client = s.target.client + 1 := hclient
    apply (h.subscribers i).mono
    · show s.target.client ≤ target.client
      omega
    -- The lock is free: nobody has a client at hand.
    · intro hphase
      have := (h.subscribers i).locked hphase
      rw [hfree] at this
      cases this
    · exact fun _ ↦ id
    · exact fun _ ↦ id
    · exact id
    · exact fun _ hnot ↦ absurd trivial hnot

variable [DecidableEq ι]

/-- A subscriber does its next step, and the others are left in place. -/
theorem setSubscriber {i : ι} {c : Subscriber} {lock : Option ι} {clientUpdates : List ι}
    (hlock : ∀ j, j ≠ i → s.targetLock = some j → lock = some j)
    (hupdates : ∀ j, j ≠ i → (j ∈ clientUpdates ↔ j ∈ s.clientUpdates))
    (hpushed : (s.subscribers i).phase.Pushed → c.phase.Pushed)
    (hc : c.Keeps s.target.client (lock = some i) (i ∈ clientUpdates) (s.Untold i)) :
    Consistent { s.setSubscriber i c with targetLock := lock, clientUpdates } where
  monitor := by
    have hfits := h.monitor
    show s.monitor.Fits s.target.client (Function.update s.subscribers i c)
    cases hmonitor : s.monitor with
    | fanningOut client todo =>
      rw [hmonitor] at hfits
      refine ⟨hfits.1, fun j hj ↦ ?_⟩
      by_cases hji : j = i
      · subst hji
        rw [Function.update_self]
        exact hpushed (hfits.2 j hj)
      · rw [Function.update_of_ne hji]
        exact hfits.2 j hj
    | _ => rw [hmonitor] at hfits; exact hfits
  subscribers j := by
    show (Function.update s.subscribers i c j).Keeps s.target.client (lock = some j)
      (j ∈ clientUpdates) (s.Untold j)
    by_cases hji : j = i
    · subst hji
      rwa [Function.update_self]
    · rw [Function.update_of_ne hji]
      exact (h.subscribers j).mono (Nat.le_refl _) (fun _ ↦ rfl) (fun _ ↦ hlock j hji)
        (fun _ ↦ (hupdates j hji).mpr) (hupdates j hji).mp fun _ hnot ↦ ⟨hnot, rfl⟩

theorem stepSubscriber {i : ι} {a : SubscriberAction} (hstep : s.stepSubscriber i a = some t) :
    t.Consistent := by
  have hi := h.subscribers i
  cases a with
  | lockTarget =>
    cases hphase : (s.subscribers i).phase with
    | idle =>
      simp only [Supervisor.stepSubscriber, hphase, Option.ite_none_right_eq_some,
        Option.some.injEq] at hstep
      obtain ⟨hfree, rfl⟩ := hstep
      apply h.setSubscriber
      · intro j _ hj
        rw [hfree] at hj
        cases hj
      · intro j _
        exact Iff.rfl
      · intro hpushed
        rw [hphase] at hpushed
        exact hpushed.elim
      · have hnone := hi.idle hphase
        have hnot : i ∉ s.clientUpdates := fun hmem ↦ by
          have := hi.pushed hmem
          rw [hphase] at this
          exact this
        exact {
          since := by simp [hnone]
          ordered := hi.ordered
          idle := nofun
          joined := fun _ ↦ Nat.le_refl _
          read := nofun
          locked := fun _ ↦ rfl
          listed := False.elim
          pushed := fun hmem ↦ absurd hmem hnot
          last := False.elim
          told := False.elim }
    | _ => simp [Supervisor.stepSubscriber, hphase] at hstep
  | push =>
    cases hphase : (s.subscribers i).phase with
    | targetLocked =>
      simp only [Supervisor.stepSubscriber, hphase, Option.ite_none_left_eq_some,
        Option.some.injEq] at hstep
      obtain ⟨-, rfl⟩ := hstep
      apply h.setSubscriber (fun j _ ↦ id)
      · intro j hj
        simp [hj]
      · intro _
        trivial
      · exact hi.move (by simp [hphase]) nofun nofun
          (fun _ ↦ hi.locked (by rw [hphase]; trivial)) (fun _ ↦ by simp) (fun _ ↦ trivial)
          False.elim
    | _ => simp [Supervisor.stepSubscriber, hphase] at hstep
  | read =>
    cases hphase : (s.subscribers i).phase with
    | pushed =>
      simp only [Supervisor.stepSubscriber, hphase, Option.some.injEq] at hstep
      subst hstep
      apply h.setSubscriber (fun j _ ↦ id) fun j _ ↦ Iff.rfl
      · intro _
        trivial
      · exact hi.move (by simp [hphase]) nofun
          (fun client hclient ↦ (SubscriberPhase.read.inj hclient).symm)
          (fun _ ↦ hi.locked (by rw [hphase]; trivial))
          (fun _ ↦ hi.listed (by rw [hphase]; trivial)) (fun _ ↦ trivial) False.elim
    | _ => simp [Supervisor.stepSubscriber, hphase] at hstep
  | send =>
    cases hphase : (s.subscribers i).phase with
    | read client =>
      simp only [Supervisor.stepSubscriber, hphase, Option.some.injEq] at hstep
      subst hstep
      obtain rfl := hi.read client hphase
      apply h.setSubscriber (fun j _ ↦ id) fun j _ ↦ Iff.rfl
      · intro _
        trivial
      · exact hi.deliver (by simp [hphase]) nofun nofun
          (fun _ ↦ hi.locked (by rw [hphase]; trivial))
          (fun _ ↦ hi.listed (by rw [hphase]; trivial)) fun _ ↦ trivial
    | _ => simp [Supervisor.stepSubscriber, hphase] at hstep
  | unlockTarget =>
    cases hphase : (s.subscribers i).phase with
    | sent =>
      simp only [Supervisor.stepSubscriber, hphase, Option.some.injEq] at hstep
      subst hstep
      have hlock := hi.locked (by rw [hphase]; trivial)
      apply h.setSubscriber _ fun j _ ↦ Iff.rfl
      · intro _
        trivial
      · exact hi.move (by simp [hphase]) nofun nofun False.elim
          (fun _ ↦ hi.listed (by rw [hphase]; trivial)) (fun _ ↦ trivial)
          fun _ ↦ by rw [hphase]; trivial
      · intro j hj hlock'
        exact absurd (Option.some.inj (hlock'.symm.trans hlock)) hj
    | _ => simp [Supervisor.stepSubscriber, hphase] at hstep
  | hangUp =>
    cases hphase : (s.subscribers i).phase with
    | returned =>
      simp only [Supervisor.stepSubscriber, hphase, Option.some.injEq] at hstep
      subst hstep
      apply h.setSubscriber (fun j _ ↦ id) fun j _ ↦ Iff.rfl
      · intro _
        trivial
      · exact hi.move (by simp [hphase]) nofun nofun False.elim False.elim (fun _ ↦ trivial)
          False.elim
    | _ => simp [Supervisor.stepSubscriber, hphase] at hstep

/-- The next subscriber is told, or its sender dropped. -/
theorem send {client : ℕ} {i : ι} {todo : List ι}
    (hmonitor : s.monitor = .fanningOut client (i :: todo))
    (hstep : s.stepMonitor .send = some t) : t.Consistent := by
  have hfits := h.monitor
  rw [hmonitor] at hfits
  obtain ⟨hclient, hpushed⟩ := hfits
  have hi := h.subscribers i
  have hphase := hpushed i List.mem_cons_self
  have hrest : ∀ j ∈ todo, (s.subscribers j).phase.Pushed := fun j hj ↦
    hpushed j (List.mem_cons_of_mem i hj)
  have huntold : ∀ {j}, j ≠ i → j ∉ todo → ¬ s.Untold j := by
    intro j hj hnot
    rw [Untold, hmonitor]
    simp [hj, hnot]
  simp only [stepMonitor, hmonitor] at hstep
  split at hstep
  · rename_i hgone
    rw [Option.some.injEq] at hstep
    subst hstep
    refine ⟨⟨hclient, hrest⟩, fun j ↦ ?_⟩
    by_cases hji : j = i
    · subst hji
      apply hi.mono (Nat.le_refl _) (fun _ ↦ rfl) (fun _ ↦ id)
      · rw [hgone]
        exact False.elim
      · intro hmem
        exact (List.mem_filter.mp hmem).1
      · rw [hgone]
        exact False.elim
    · apply (h.subscribers j).mono (Nat.le_refl _) (fun _ ↦ rfl) (fun _ ↦ id)
      · intro _ hmem
        exact List.mem_filter.mpr ⟨hmem, by simpa using hji⟩
      · intro hmem
        exact (List.mem_filter.mp hmem).1
      · exact fun _ hnot ↦ ⟨huntold hji hnot, rfl⟩
  · rename_i hgone
    rw [Option.some.injEq] at hstep
    subst hstep
    refine ⟨⟨hclient, fun j hj ↦ ?_⟩, fun j ↦ ?_⟩
    · show (Function.update s.subscribers i _ j).phase.Pushed
      by_cases hji : j = i
      · subst hji
        rw [Function.update_self]
        exact hphase
      · rw [Function.update_of_ne hji]
        exact hrest j hj
    · show (Function.update s.subscribers i _ j).Keeps s.target.client (s.targetLock = some j)
        (j ∈ s.clientUpdates) (j ∈ todo)
      by_cases hji : j = i
      · subst hji
        rw [Function.update_self, hclient]
        have hbusy : (s.subscribers j).phase ≠ .idle := fun hidle ↦ by
          rw [hidle] at hphase
          exact hphase
        exact hi.deliver hbusy hbusy hi.read hi.locked hi.listed hi.pushed
      · rw [Function.update_of_ne hji]
        exact (h.subscribers j).mono (Nat.le_refl _) (fun _ ↦ rfl) (fun _ ↦ id) (fun _ ↦ id) id
          fun _ hnot ↦ ⟨huntold hji hnot, rfl⟩

theorem stepMonitor {a : MonitorAction} (hstep : s.stepMonitor a = some t) : t.Consistent := by
  cases hmonitor : s.monitor with
  | polling =>
    have hnone : ∀ i, ¬ s.Untold i := fun i ↦ by rw [Untold, hmonitor]; exact id
    cases a with
    | beginReplace =>
      simp only [Supervisor.stepMonitor, hmonitor] at hstep
      split at hstep
      · rename_i htarget
        rw [Option.some.injEq] at hstep
        subst hstep
        exact h.setMonitor (by rw [htarget]; rfl) trivial fun i _ _ ↦ hnone i
      · rw [Option.some.injEq] at hstep
        subst hstep
        exact h.setMonitor rfl trivial fun i _ _ ↦ hnone i
      · cases hstep
    | beginReconnect =>
      simp only [Supervisor.stepMonitor, hmonitor] at hstep
      split at hstep
      · rw [Option.some.injEq] at hstep
        subst hstep
        exact h.setMonitor rfl trivial fun i _ _ ↦ hnone i
      · cases hstep
    | _ => simp [Supervisor.stepMonitor, hmonitor] at hstep
  | spawning =>
    have hnone : ∀ i, ¬ s.Untold i := fun i ↦ by rw [Untold, hmonitor]; exact id
    cases a with
    | connect ok =>
      cases ok <;> simp only [Supervisor.stepMonitor, hmonitor, Option.some.injEq] at hstep <;>
        subst hstep
      · exact h.setMonitor rfl trivial fun i _ _ ↦ hnone i
      · exact h.setMonitor rfl rfl fun i _ _ ↦ hnone i
    | _ => simp [Supervisor.stepMonitor, hmonitor] at hstep
  | connecting =>
    have hnone : ∀ i, ¬ s.Untold i := fun i ↦ by rw [Untold, hmonitor]; exact id
    cases a with
    | connect ok =>
      cases ok <;> simp only [Supervisor.stepMonitor, hmonitor, Option.some.injEq] at hstep <;>
        subst hstep
      · exact h.setMonitor rfl trivial fun i _ _ ↦ hnone i
      · exact h.setMonitor rfl rfl fun i _ _ ↦ hnone i
    | _ => simp [Supervisor.stepMonitor, hmonitor] at hstep
  | connected target =>
    cases a with
    | setTarget =>
      simp only [Supervisor.stepMonitor, hmonitor, Option.ite_none_right_eq_some,
        Option.some.injEq] at hstep
      obtain ⟨hfree, rfl⟩ := hstep
      exact h.setTarget hmonitor hfree
    | _ => simp [Supervisor.stepMonitor, hmonitor] at hstep
  | swapped client =>
    cases a with
    | lockUpdates =>
      simp only [Supervisor.stepMonitor, hmonitor, Option.some.injEq] at hstep
      subst hstep
      have hfits := h.monitor
      rw [hmonitor] at hfits
      have hfits' : MonitorPhase.Fits s.target.client s.subscribers
          (.fanningOut client s.clientUpdates) := ⟨hfits, fun i hi ↦ (h.subscribers i).pushed hi⟩
      apply h.setMonitor rfl hfits'
      intro i hphase hnot
      apply absurd _ hnot
      apply (h.subscribers i).listed
      cases hcase : (s.subscribers i).phase <;> rw [hcase] at hphase <;> first
        | exact hphase.elim
        | trivial
    | _ => simp [Supervisor.stepMonitor, hmonitor] at hstep
  | fanningOut client todo =>
    cases a with
    | send =>
      cases todo with
      | nil => simp [Supervisor.stepMonitor, hmonitor] at hstep
      | cons i todo => exact h.send hmonitor hstep
    | unlockUpdates =>
      cases todo with
      | nil =>
        simp only [Supervisor.stepMonitor, hmonitor, Option.some.injEq] at hstep
        subst hstep
        have hfits : MonitorPhase.Fits s.target.client s.subscribers .polling := trivial
        apply h.setMonitor rfl hfits
        intro i _ _
        rw [Untold, hmonitor]
        exact List.not_mem_nil
      | cons i todo => simp [Supervisor.stepMonitor, hmonitor] at hstep
    | _ => simp [Supervisor.stepMonitor, hmonitor] at hstep

end Consistent

end Supervisor

/-- In every state of every run, subscribers follow the current daemon. -/
theorem subscribers_follow {ι : Type} [DecidableEq ι] {target : ℕ → DaemonTarget}
    {actions : List (SupervisorAction ι)} {s : Supervisor ι}
    (hrun : (supervising ι).run (Supervisor.start target) actions = some s) : s.Follows := by
  have h : s.Consistent := by
    apply Machine.run_invariant (Supervisor.consistent_start target) _ hrun
    intro u a t hu hstep
    cases a with
    | subscriber i a => exact hu.stepSubscriber hstep
    | monitor a => exact hu.stepMonitor hstep
  exact h.follows

/-- A subscriber that comes between the swap and the fan-out of a replacement. -/
theorem subscriber_follows_across_replacement :
    let actions : List (SupervisorAction ℕ) :=
      [.monitor .beginReplace, .monitor (.connect false), .monitor .beginReplace,
        .monitor (.connect true), .monitor .setTarget, .subscriber 0 .lockTarget,
        .subscriber 0 .push, .subscriber 0 .read, .monitor .lockUpdates, .monitor .send,
        .subscriber 0 .send,
        .subscriber 0 .unlockTarget, .monitor .unlockUpdates]
    ∃ s, (supervising ℕ).run (Supervisor.start .local) actions = some s ∧ s.Follows := by
  intro actions
  obtain ⟨s, hs⟩ := Option.isSome_iff_exists.mp
    (by decide +kernel : ((supervising ℕ).run (Supervisor.start .local) actions).isSome)
  exact ⟨s, hs, subscribers_follow hs⟩

end Daku.Client
