import Daku.Base.Slots
import Daku.Webhook.Ticks
import Mathlib.Data.List.Destutter

/-!
# One pass at a time

However many relay threads there are, one of them at most relays: what they do together is what a
daemon with a single pass does. What a thread posts goes to the URL that the settings held when it
read them, and the policy allows that URL; one that is refused is printed, but not twice in a row.
-/

namespace Daku.Webhook

open Daku.Base Daku.Base.Prog Daku.Store Daku.Wire

namespace Ticks

variable {s t : Ticks} {thread : ℕ} {old stage : TickStage}

section Threads

theorem getElem?_move (hold : s.threads[thread]? = some old) (i : ℕ) :
    (s.move thread stage).threads[i]? = if thread = i then some stage else s.threads[i]? := by
  obtain ⟨hlt, -⟩ := List.getElem?_eq_some_iff.mp hold
  rw [move, List.getElem?_set, if_pos hlt]

/-- The threads after a move: the one that moved, and the others. -/
theorem mem_move (hold : s.threads[thread]? = some old) {a : TickStage} :
    a ∈ (s.move thread stage).threads ↔
      a = stage ∨ ∃ i, i ≠ thread ∧ s.threads[i]? = some a := by
  rw [List.mem_iff_getElem?]
  constructor
  · rintro ⟨i, hi⟩
    rw [getElem?_move hold] at hi
    split at hi
    · exact Or.inl (Option.some.inj hi).symm
    · next hne => exact Or.inr ⟨i, fun h ↦ hne h.symm, hi⟩
  · rintro (rfl | ⟨i, hne, hi⟩)
    · exact ⟨thread, by rw [getElem?_move hold, if_pos rfl]⟩
    · exact ⟨i, by rw [getElem?_move hold, if_neg fun h ↦ hne h.symm, hi]⟩

end Threads

section Flag

/-- A move that stays outside or stays inside. -/
theorem SingleFlight.stay (h : SingleFlight s) (hold : s.threads[thread]? = some old)
    (hsame : old.Inside ↔ stage.Inside) (hthreads : t.threads = (s.move thread stage).threads)
    (hflag : t.inFlight = s.inFlight) : SingleFlight t where
  unique {i j a b} hi hj ha hb := by
    have hback : ∀ {k : ℕ} {c : TickStage}, t.threads[k]? = some c → c.Inside →
        ∃ d, s.threads[k]? = some d ∧ d.Inside := by
      intro k c hk hc
      rw [hthreads, getElem?_move hold] at hk
      split at hk
      · next heq =>
        cases hk
        exact ⟨old, heq ▸ hold, hsame.mpr hc⟩
      · exact ⟨c, hk, hc⟩
    obtain ⟨a', hi', ha'⟩ := hback hi ha
    obtain ⟨b', hj', hb'⟩ := hback hj hb
    exact h.unique hi' hj' ha' hb'
  flag := by
    rw [hflag, h.flag, hthreads]
    constructor
    · rintro ⟨a, hmem, ha⟩
      obtain ⟨i, hi⟩ := List.mem_iff_getElem?.mp hmem
      by_cases heq : i = thread
      · rw [heq, hold] at hi
        cases hi
        exact ⟨stage, (mem_move hold).mpr (Or.inl rfl), hsame.mp ha⟩
      · exact ⟨a, (mem_move hold).mpr (Or.inr ⟨i, heq, hi⟩), ha⟩
    · rintro ⟨a, hmem, ha⟩
      obtain rfl | ⟨i, -, hi⟩ := (mem_move hold).mp hmem
      · exact ⟨old, List.mem_of_getElem? hold, hsame.mpr ha⟩
      · exact ⟨a, List.mem_of_getElem? hi, ha⟩

/-- The thread that finds the flag unset sets it. -/
theorem SingleFlight.enter (h : SingleFlight s) (hold : s.threads[thread]? = some old)
    (hfree : s.inFlight = false) (hinside : stage.Inside)
    (hthreads : t.threads = (s.move thread stage).threads) (hflag : t.inFlight = true) :
    SingleFlight t := by
  have hnone : ∀ a ∈ s.threads, ¬ a.Inside := fun a ha hin ↦
    absurd (h.flag.mpr ⟨a, ha, hin⟩) (by rw [hfree]; exact Bool.false_ne_true)
  have hthread : ∀ {k : ℕ} {c : TickStage}, t.threads[k]? = some c → c.Inside → k = thread := by
    intro k c hk hc
    rw [hthreads, getElem?_move hold] at hk
    split at hk
    · next heq => exact heq.symm
    · exact absurd hc (hnone c (List.mem_of_getElem? hk))
  exact ⟨fun hi hj ha hb ↦ (hthread hi ha).trans (hthread hj hb).symm,
    ⟨fun _ ↦ ⟨stage, hthreads ▸ (mem_move hold).mpr (Or.inl rfl), hinside⟩, fun _ ↦ hflag⟩⟩

/-- The thread inside leaves and unsets the flag. -/
theorem SingleFlight.leave (h : SingleFlight s) (hold : s.threads[thread]? = some old)
    (hinside : old.Inside) (houtside : ¬ stage.Inside)
    (hthreads : t.threads = (s.move thread stage).threads) (hflag : t.inFlight = false) :
    SingleFlight t := by
  have hnone : ∀ a ∈ t.threads, ¬ a.Inside := by
    intro a ha hin
    obtain rfl | ⟨i, hne, hi⟩ := (mem_move hold).mp (hthreads ▸ ha)
    · exact houtside hin
    · exact hne (h.unique hi hold hin hinside)
  exact ⟨fun hi _ ha _ ↦ absurd ha (hnone _ (List.mem_of_getElem? hi)),
    ⟨fun hset ↦ absurd hset (by rw [hflag]; exact Bool.false_ne_true),
      fun ⟨a, ha, hin⟩ ↦ absurd hin (hnone a ha)⟩⟩

/-- Whoever is inside has the pass of the daemon, if it has begun one. -/
theorem SingleFlight.running (h : SingleFlight s) (hold : s.threads[thread]? = some old)
    (hinside : old.Inside) : s.daemon.running = old.pass := by
  have hothers : ∀ a ∈ s.threads, a.pass.isSome → a = old := by
    intro a ha hpass
    obtain ⟨i, hi⟩ := List.mem_iff_getElem?.mp ha
    have hin : a.Inside := by
      cases a <;> simp_all [TickStage.pass, TickStage.Inside]
    have heq := h.unique hi hold hin hinside
    rw [heq, hold] at hi
    exact (Option.some.inj hi).symm
  rw [daemon]
  cases hpass : old.pass with
  | none =>
    refine List.findSome?_eq_none_iff.mpr fun a ha ↦ ?_
    by_contra hne
    obtain rfl := hothers a ha (Option.isSome_iff_ne_none.mpr hne)
    exact hne hpass
  | some pass =>
    have hsome : (s.threads.findSome? TickStage.pass).isSome := by
      rw [List.isSome_findSome?]
      exact List.any_eq_true.mpr ⟨old, List.mem_of_getElem? hold, by rw [hpass]; rfl⟩
    obtain ⟨p, hp⟩ := Option.isSome_iff_exists.mp hsome
    obtain ⟨a, ha, hpa⟩ := List.exists_of_findSome?_eq_some hp
    rw [hothers a ha (by rw [hpa]; rfl), hpass] at hpa
    exact hp.trans hpa.symm

/-- The daemon of a thread that is inside. -/
theorem SingleFlight.daemon_eq (h : SingleFlight s) (hold : s.threads[thread]? = some old)
    (hinside : old.Inside) : s.daemon = ⟨s.relay, old.pass⟩ := by
  rw [← h.running hold hinside]
  rfl

/-- A move that neither begins, makes progress with nor ends a pass. -/
theorem running_move (hold : s.threads[thread]? = some old) (hpass : old.pass = stage.pass)
    (hthreads : t.threads = (s.move thread stage).threads) :
    t.daemon.running = s.daemon.running := by
  have hmap : t.threads.map TickStage.pass = s.threads.map TickStage.pass := by
    rw [hthreads, move, List.map_set, ← hpass]
    refine List.ext_getElem? fun i ↦ ?_
    rw [List.getElem?_set]
    split
    · next heq =>
      subst heq
      rw [List.getElem?_map, hold, List.length_map,
        if_pos (List.getElem?_eq_some_iff.mp hold).1]
      rfl
    · rfl
  have hfind : ∀ u : Ticks, u.daemon.running = (u.threads.map TickStage.pass).findSome? id :=
    fun u ↦ by rw [List.findSome?_map]; rfl
  rw [hfind, hfind, hmap]

end Flag

section Steps

/-- A move of one thread, with the stages it goes between. -/
inductive Moved (s : Ticks) (thread : ℕ) : TickAction → TickStage → TickStage → Ticks → Prop where
  | unset (settings : DaemonSettings) : configuredUrl settings = none →
      Moved s thread (.read thread settings) .started .ended (s.move thread .ended)
  | read (settings : DaemonSettings) (url : String) : configuredUrl settings = some url →
      Moved s thread (.read thread settings) .started (.checking url)
        (s.move thread (.checking url))
  | allow (now : Int) (url : String) : webhookUrlAllowed url = true →
      Moved s thread (.proceed thread now) (.checking url) (.entering url)
        (s.move thread (.entering url))
  | refuseAgain (now : Int) (url : String) : webhookUrlAllowed url = false →
      s.lastRefused = some url →
      Moved s thread (.proceed thread now) (.checking url) .ended
        { s.move thread .ended with refusals := s.refusals ++ [(thread, url)] }
  | refuse (now : Int) (url : String) : webhookUrlAllowed url = false →
      s.lastRefused ≠ some url →
      Moved s thread (.proceed thread now) (.checking url) .ended
        { s.move thread .ended with
          refusals := s.refusals ++ [(thread, url)]
          lastRefused := some url, log := s.log ++ [.refused url (refusalLine url)] }
  | standBack (now : Int) (url : String) :
      Moved s thread (.proceed thread now) (.entering url) .ended (s.move thread .ended)
  | enter (now : Int) (url : String) : s.inFlight = false →
      Moved s thread (.proceed thread now) (.entering url) (.reviewing url)
        { s.move thread (.reviewing url) with inFlight := true }
  | reviewed (now : Int) (url : String) :
      Moved s thread (.proceed thread now) (.reviewing url) (.opening url)
        (s.move thread (.opening url))
  | warn (now : Int) (url warning : String) :
      Moved s thread (.proceed thread now) (.reviewing url) (.opening url)
        { s.move thread (.opening url) with
          lastWarned := some warning, log := s.log ++ [.review warning] }
  | begin (now : Int) (url : String) :
      Moved s thread (.proceed thread now) (.opening url) (.relaying url (relayTo now))
        (s.move thread (.relaying url (relayTo now)))
  | relay (now : Int) (url : String) (pass : RelayProg Unit) : (∀ a, pass ≠ .done a) →
      Moved s thread (.proceed thread now) (.relaying url pass)
        (.relaying url (pass.next s.relay).1)
        { s.move thread (.relaying url (pass.next s.relay).1) with
          relay := (pass.next s.relay).2
          attempts := s.attempts ++ (attempted pass).toList.map fun e ↦ ⟨thread, url, e⟩ }
  | finish (now : Int) (url : String) :
      Moved s thread (.proceed thread now) (.relaying url (.done ())) .leaving
        { s.move thread .leaving with relay := { s.relay with pass := none } }
  | leave (now : Int) :
      Moved s thread (.proceed thread now) .leaving .ended
        { s.move thread .ended with inFlight := false }
  | unopened (url : String) :
      Moved s thread (.fail thread) (.opening url) .leaving (s.move thread .leaving)
  | broken (url : String) (pass : RelayProg Unit) :
      Moved s thread (.fail thread) (.relaying url pass) .leaving
        { s.move thread .leaving with relay := { s.relay with pass := none } }

theorem Moved.threads {action : TickAction} (h : Moved s thread action old stage t) :
    t.threads = (s.move thread stage).threads := by
  cases h <;> rfl

/-- The next step of a thread is one of its moves. -/
theorem moved_of_proceed {now : Int} (hstep : s.proceed thread now old = some t) :
    ∃ stage, Moved s thread (.proceed thread now) old stage t := by
  cases old with
  | started | ended | dead => cases hstep
  | checking url =>
    simp only [proceed] at hstep
    split at hstep
    · next hallowed =>
      obtain rfl := Option.some.inj hstep
      exact ⟨_, .allow now url hallowed⟩
    · next hallowed =>
      have hallowed := Bool.eq_false_of_not_eq_true hallowed
      split at hstep <;> obtain rfl := Option.some.inj hstep
      · next hagain => exact ⟨_, .refuseAgain now url hallowed hagain⟩
      · next hnew => exact ⟨_, .refuse now url hallowed hnew⟩
  | entering url =>
    simp only [proceed] at hstep
    split at hstep <;> obtain rfl := Option.some.inj hstep
    · exact ⟨_, .standBack now url⟩
    · next hfree => exact ⟨_, .enter now url (Bool.eq_false_of_not_eq_true hfree)⟩
  | reviewing url =>
    simp only [proceed] at hstep
    split at hstep
    · obtain rfl := Option.some.inj hstep
      exact ⟨_, .reviewed now url⟩
    · split at hstep <;> obtain rfl := Option.some.inj hstep
      · exact ⟨_, .reviewed now url⟩
      · exact ⟨_, .warn now url _⟩
  | opening url =>
    obtain rfl := Option.some.inj hstep
    exact ⟨_, .begin now url⟩
  | relaying url pass =>
    cases pass with
    | done a =>
      obtain rfl := Option.some.inj hstep
      exact ⟨_, .finish now url⟩
    | read k =>
      obtain rfl := Option.some.inj hstep
      exact ⟨_, .relay now url _ fun _ h ↦ by cases h⟩
    | exec c p =>
      obtain rfl := Option.some.inj hstep
      exact ⟨_, .relay now url _ fun _ h ↦ by cases h⟩
  | leaving =>
    obtain rfl := Option.some.inj hstep
    exact ⟨_, .leave now⟩

/-- What a step can be: a thread moves, or somebody else does something. -/
theorem step_cases {action : TickAction} (hstep : ticks.step s action = some t) :
    (∃ settings, action = .spawn settings ∧ t = { s with threads := s.threads ++ [.started] }) ∨
    (∃ thread old stage, s.threads[thread]? = some old ∧ Moved s thread action old stage t) ∨
    (∃ c, action = .external c ∧ External c = true ∧
      t = { s with relay := s.relay.external c }) ∨
    (action = .crash ∧ t = { s with
      inFlight := false, lastRefused := none, lastWarned := none, refusals := [], log := []
      threads := s.threads.map fun _ ↦ .dead
      relay := { s.relay with lastSent := fun _ ↦ none, pass := none } }) := by
  cases action with
  | spawn settings =>
    simp only [ticks] at hstep
    split at hstep
    · exact Or.inl ⟨settings, rfl, (Option.some.inj hstep).symm⟩
    · cases hstep
  | read thread settings =>
    simp only [ticks, Option.bind_eq_bind] at hstep
    obtain ⟨old, hold, hread⟩ := Option.bind_eq_some_iff.mp hstep
    cases old with
    | started =>
      cases hurl : configuredUrl settings with
      | none =>
        simp only [hurl] at hread
        obtain rfl := Option.some.inj hread
        exact Or.inr (Or.inl ⟨thread, _, _, hold, .unset settings hurl⟩)
      | some url =>
        simp only [hurl] at hread
        obtain rfl := Option.some.inj hread
        exact Or.inr (Or.inl ⟨thread, _, _, hold, .read settings url hurl⟩)
    | _ => cases hread
  | proceed thread now =>
    simp only [ticks, Option.bind_eq_bind] at hstep
    obtain ⟨old, hold, hproceed⟩ := Option.bind_eq_some_iff.mp hstep
    obtain ⟨stage, hmoved⟩ := moved_of_proceed hproceed
    exact Or.inr (Or.inl ⟨thread, old, stage, hold, hmoved⟩)
  | fail thread =>
    simp only [ticks, Option.bind_eq_bind] at hstep
    obtain ⟨old, hold, hfail⟩ := Option.bind_eq_some_iff.mp hstep
    refine Or.inr (Or.inl ⟨thread, old, .leaving, hold, ?_⟩)
    cases old with
    | opening url =>
      obtain rfl := Option.some.inj hfail
      exact .unopened url
    | relaying url pass =>
      cases pass with
      | done a => cases hfail
      | read k =>
        obtain rfl := Option.some.inj hfail
        exact .broken url _
      | exec c p =>
        obtain rfl := Option.some.inj hfail
        exact .broken url _
    | _ => cases hfail
  | external c =>
    simp only [ticks] at hstep
    split at hstep
    · next hc => exact Or.inr (Or.inr (Or.inl ⟨c, rfl, hc, (Option.some.inj hstep).symm⟩))
    · cases hstep
  | crash => exact Or.inr (Or.inr (Or.inr ⟨rfl, (Option.some.inj hstep).symm⟩))

end Steps

section Invariants

variable {action : TickAction} {actions : List TickAction}

/-- A spawned thread is outside. -/
theorem SingleFlight.spawn (h : SingleFlight s) :
    SingleFlight { s with threads := s.threads ++ [.started] } where
  unique {i j a b} hi hj ha hb := by
    have hback : ∀ {k : ℕ} {c : TickStage}, (s.threads ++ [.started])[k]? = some c → c.Inside →
        s.threads[k]? = some c := by
      intro k c hk hc
      rw [List.getElem?_append] at hk
      split at hk
      · exact hk
      · obtain rfl := List.mem_singleton.mp (List.mem_of_getElem? hk)
        exact hc.elim
    exact h.unique (hback hi ha) (hback hj hb) ha hb
  flag := by
    refine h.flag.trans ⟨fun ⟨a, ha, hin⟩ ↦ ⟨a, List.mem_append_left _ ha, hin⟩, ?_⟩
    rintro ⟨a, ha, hin⟩
    obtain ha | ha := List.mem_append.mp ha
    · exact ⟨a, ha, hin⟩
    · obtain rfl := List.mem_singleton.mp ha
      exact hin.elim

/-- One thread at most is inside after every move. -/
theorem SingleFlight.moved (h : SingleFlight s) (hold : s.threads[thread]? = some old)
    (hmoved : Moved s thread action old stage t) : SingleFlight t := by
  have hthreads := hmoved.threads
  cases hmoved with
  | enter now url hfree =>
    refine h.enter hold hfree ?_ hthreads rfl
    trivial
  | leave now =>
    refine h.leave hold trivial ?_ hthreads rfl
    exact id
  | _ =>
    refine h.stay hold ?_ hthreads rfl
    exact Iff.rfl

/-- One thread at most is inside after every step. -/
theorem SingleFlight.step (h : SingleFlight s) (hstep : ticks.step s action = some t) :
    SingleFlight t := by
  obtain ⟨_, -, rfl⟩ | ⟨_, _, _, hold, hmoved⟩ | ⟨_, -, -, rfl⟩ | ⟨-, rfl⟩ := step_cases hstep
  · exact h.spawn
  · exact h.moved hold hmoved
  · exact ⟨h.unique, h.flag⟩
  · have hdead : ∀ a ∈ s.threads.map fun _ ↦ TickStage.dead, ¬ a.Inside := by
      intro a ha
      obtain ⟨_, -, rfl⟩ := List.mem_map.mp ha
      exact id
    exact ⟨fun hi _ ha _ ↦ absurd ha (hdead _ (List.mem_of_getElem? hi)),
      ⟨fun h ↦ (by cases h), fun ⟨a, ha, hin⟩ ↦ absurd hin (hdead a ha)⟩⟩

/-- The URL that the settings held when the thread read them. -/
def ReadUrl (actions : List TickAction) (thread : ℕ) (url : String) : Prop :=
  (∃ settings, .read thread settings ∈ actions) ∧
    ∀ settings, .read thread settings ∈ actions → configuredUrl settings = some url

theorem ReadUrl.unique {url other : String} (h : ReadUrl actions thread url)
    (hother : ReadUrl actions thread other) : other = url := by
  obtain ⟨⟨settings, hmem⟩, hurl⟩ := h
  exact Option.some.inj ((hother.2 settings hmem).symm.trans (hurl settings hmem))

theorem read_mem_concat {settings : DaemonSettings}
    (haction : ∀ settings, action ≠ .read thread settings) :
    .read thread settings ∈ actions ++ [action] ↔ .read thread settings ∈ actions := by
  rw [List.mem_append, List.mem_singleton]
  exact or_iff_left fun h ↦ haction settings h.symm

/-- Only the thread itself reads its URL. -/
theorem readUrl_concat {url : String} (haction : ∀ settings, action ≠ .read thread settings) :
    ReadUrl (actions ++ [action]) thread url ↔ ReadUrl actions thread url := by
  simp only [ReadUrl, read_mem_concat haction]

/-- What is known of a thread: it has not read the settings, it has its URL from them, the policy
allows the URL once the check is behind it, and it was turned away if the policy does not. -/
def Vetted (actions : List TickAction) (refusals : List (ℕ × String)) (thread : ℕ) :
    TickStage → Prop
  | .started => ∀ settings, .read thread settings ∉ actions
  | .checking url => ReadUrl actions thread url
  | .entering url | .reviewing url | .opening url | .relaying url _ =>
    ReadUrl actions thread url ∧ webhookUrlAllowed url = true
  | .leaving | .ended => ∀ url, ReadUrl actions thread url → webhookUrlAllowed url = false →
    (thread, url) ∈ refusals
  | .dead => True

/-- Steps of others leave what is known of a thread. -/
theorem Vetted.concat {refusals more : List (ℕ × String)} {a : TickStage}
    (h : Vetted actions refusals thread a) (haction : ∀ settings, action ≠ .read thread settings)
    (hmore : refusals ⊆ more) : Vetted (actions ++ [action]) more thread a := by
  cases a with
  | started => exact fun settings hmem ↦ h settings ((read_mem_concat haction).mp hmem)
  | checking url => exact (readUrl_concat haction).mpr h
  | leaving | ended =>
    exact fun url hread hrefused ↦ hmore (h url ((readUrl_concat haction).mp hread) hrefused)
  | dead => trivial
  | _ => exact ⟨(readUrl_concat haction).mpr h.1, h.2⟩

/-- A thread whose URL is allowed has nothing to be turned away for. -/
theorem not_refused {url other : String} (h : ReadUrl actions thread url)
    (hallowed : webhookUrlAllowed url = true) (hother : ReadUrl actions thread other) :
    webhookUrlAllowed other ≠ false := by
  rw [h.unique hother, hallowed]
  exact Bool.true_eq_false_eq_False

theorem Vetted.moved (h : Vetted actions s.refusals thread old)
    (hmoved : Moved s thread action old stage t) :
    Vetted (actions ++ [action]) t.refusals thread stage := by
  cases hmoved with
  | unset settings hurl =>
    intro url hread
    have hnone := hread.2 settings (List.mem_append_right _ (List.mem_singleton.mpr rfl))
    rw [hurl] at hnone
    cases hnone
  | read settings url hurl =>
    refine ⟨⟨settings, List.mem_append_right _ (List.mem_singleton.mpr rfl)⟩,
      fun other hother ↦ ?_⟩
    obtain hother | hother := List.mem_append.mp hother
    · exact absurd hother (h other)
    · cases List.mem_singleton.mp hother
      exact hurl
  | allow now url hallowed => exact ⟨(readUrl_concat fun _ h ↦ by cases h).mpr h, hallowed⟩
  | refuseAgain now url | refuse now url =>
    intro other hother _
    rw [ReadUrl.unique h ((readUrl_concat fun _ h ↦ by cases h).mp hother)]
    exact List.mem_append_right _ (List.mem_singleton.mpr rfl)
  | standBack | finish | unopened | broken =>
    intro other hother hrefused
    have hread := (readUrl_concat fun _ h ↦ by cases h).mp hother
    exact absurd hrefused (not_refused h.1 h.2 hread)
  | leave now => exact Vetted.concat (a := .leaving) h (fun _ h ↦ by cases h) fun _ h ↦ h
  | _ => exact ⟨(readUrl_concat fun _ h ↦ by cases h).mpr h.1, h.2⟩

/-- What the threads of a daemon have done: each posts to its own URL, and is turned away for its
own; the posts are all the relay has attempted. -/
structure Accountable (actions : List TickAction) (s : Ticks) : Prop where
  threads : ∀ (i : ℕ) (a : TickStage), s.threads[i]? = some a → Vetted actions s.refusals i a
  known : ∀ (i : ℕ) (settings : DaemonSettings), .read i settings ∈ actions →
    i < s.threads.length
  posted : ∀ p ∈ s.attempts, ReadUrl actions p.thread p.url ∧ webhookUrlAllowed p.url = true
  refused : ∀ p ∈ s.refusals, ReadUrl actions p.1 p.2 ∧ webhookUrlAllowed p.2 = false
  all : s.relay.attempts = s.attempts.length

/-- The next step of a pass makes the attempt it is about to make. -/
theorem attempts_next (pass : RelayProg Unit) (r : Relay) :
    (pass.next r).2.attempts = r.attempts + (attempted pass).toList.length := by
  cases pass with
  | done a => rfl
  | read k => rfl
  | exec c p => cases c <;> rfl

/-- A thread that reads the settings has not read them before. -/
theorem Accountable.readUrl_concat (h : Accountable actions s)
    (hstep : ticks.step s action = some t) {i : ℕ} {url : String}
    (hread : ReadUrl actions i url) : ReadUrl (actions ++ [action]) i url := by
  refine (Ticks.readUrl_concat fun settings haction ↦ ?_).mpr hread
  subst haction
  obtain ⟨⟨before, hbefore⟩, -⟩ := hread
  obtain ⟨_, h', -⟩ | ⟨thread, old, stage, hold, hmoved⟩ | ⟨_, h', -⟩ | ⟨h', -⟩ := step_cases hstep
  · cases h'
  · cases hmoved with
    | unset | read => exact h.threads i .started hold before hbefore
  · cases h'
  · cases h'

theorem Accountable.moved (h : Accountable actions s) (hold : s.threads[thread]? = some old)
    (hmoved : Moved s thread action old stage t) (hstep : ticks.step s action = some t) :
    Accountable (actions ++ [action]) t := by
  have hstage := (h.threads thread old hold).moved hmoved
  have hposted : ∀ p ∈ s.attempts,
      ReadUrl (actions ++ [action]) p.thread p.url ∧ webhookUrlAllowed p.url = true :=
    fun p hp ↦ (h.posted p hp).imp_left (h.readUrl_concat hstep)
  have hrefused : ∀ p ∈ s.refusals,
      ReadUrl (actions ++ [action]) p.1 p.2 ∧ webhookUrlAllowed p.2 = false :=
    fun p hp ↦ (h.refused p hp).imp_left (h.readUrl_concat hstep)
  have hmore : s.refusals ⊆ t.refusals := by
    cases hmoved with
    | refuseAgain | refuse => exact List.subset_append_left _ _
    | _ => exact fun _ h ↦ h
  have hown : ∀ i settings, action = .read i settings → i = thread := by
    rintro i settings rfl
    cases hmoved <;> rfl
  have hthreads : ∀ (i : ℕ) (a : TickStage), t.threads[i]? = some a →
      Vetted (actions ++ [action]) t.refusals i a := by
    intro i a hi
    rw [hmoved.threads, getElem?_move hold] at hi
    split at hi
    · next heq =>
      subst heq
      exact Option.some.inj hi ▸ hstage
    · next hne =>
      exact (h.threads i a hi).concat (fun settings haction ↦ hne (hown i settings haction).symm)
        hmore
  have hknown : ∀ (i : ℕ) (settings : DaemonSettings), .read i settings ∈ actions ++ [action] →
      i < t.threads.length := by
    intro i settings hmem
    rw [hmoved.threads, move, List.length_set]
    obtain hmem | hmem := List.mem_append.mp hmem
    · exact h.known i settings hmem
    · rw [hown i settings (List.mem_singleton.mp hmem).symm]
      exact (List.getElem?_eq_some_iff.mp hold).1
  cases hmoved with
  | relay now url pass =>
    refine ⟨hthreads, hknown, fun p hp ↦ ?_, hrefused, ?_⟩
    · obtain hp | hp := List.mem_append.mp hp
      · exact hposted p hp
      · obtain ⟨e, -, rfl⟩ := List.mem_map.mp hp
        exact hstage
    · rw [attempts_next, h.all, List.length_append, List.length_map]
  | refuseAgain now url hallowed | refuse now url hallowed =>
    refine ⟨hthreads, hknown, hposted, fun p hp ↦ ?_, h.all⟩
    obtain hp | hp := List.mem_append.mp hp
    · exact hrefused p hp
    · rw [List.mem_singleton.mp hp]
      have hread : ReadUrl actions thread url := h.threads thread _ hold
      exact ⟨h.readUrl_concat hstep hread, hallowed⟩
  | _ => exact ⟨hthreads, hknown, hposted, hrefused, h.all⟩

/-- A step that is none of a thread's. -/
theorem Accountable.apart (h : Accountable actions s)
    (haction : ∀ i settings, action ≠ .read i settings)
    (hthreads : ∀ (i : ℕ) (a : TickStage), t.threads[i]? = some a →
      s.threads[i]? = some a ∨ i = s.threads.length ∧ a = .started ∨ a = .dead)
    (hlength : s.threads.length ≤ t.threads.length) (hattempts : t.attempts = s.attempts)
    (hall : t.relay.attempts = s.relay.attempts)
    (hrefusals : t.refusals = s.refusals ∨ t.refusals = [] ∧ ∀ a ∈ t.threads, a = .dead) :
    Accountable (actions ++ [action]) t where
  threads i a hi := by
    obtain hsame | ⟨-, hdead⟩ := hrefusals
    · obtain hold | ⟨rfl, rfl⟩ | rfl := hthreads i a hi
      · exact (h.threads i a hold).concat (haction i) (hsame ▸ fun _ h ↦ h)
      · intro settings hmem
        exact absurd (h.known _ settings ((read_mem_concat (haction _)).mp hmem)) (lt_irrefl _)
      · trivial
    · rw [hdead a (List.mem_of_getElem? hi)]
      trivial
  known i settings hmem :=
    (h.known i settings ((read_mem_concat (haction i)).mp hmem)).trans_le hlength
  posted p hp := by
    rw [hattempts] at hp
    exact (h.posted p hp).imp_left (Ticks.readUrl_concat (haction _)).mpr
  refused p hp := by
    obtain hsame | ⟨hnone, -⟩ := hrefusals
    · rw [hsame] at hp
      exact (h.refused p hp).imp_left (Ticks.readUrl_concat (haction _)).mpr
    · rw [hnone] at hp
      cases hp
  all := by rw [hall, hattempts, h.all]

theorem Accountable.step (h : Accountable actions s) (hstep : ticks.step s action = some t) :
    Accountable (actions ++ [action]) t := by
  obtain ⟨_, rfl, rfl⟩ | ⟨thread, old, stage, hold, hmoved⟩ | ⟨c, rfl, -, rfl⟩ | ⟨rfl, rfl⟩ :=
    step_cases hstep
  · refine h.apart (fun _ _ h ↦ by cases h) (fun i a hi ↦ ?_) ?_ rfl rfl (Or.inl rfl)
    · exact (getElem?_concat_cases hi).imp_right Or.inl
    · rw [List.length_append]
      exact Nat.le_add_right _ _
  · exact h.moved hold hmoved hstep
  · exact h.apart (fun _ _ h ↦ by cases h) (fun _ _ hi ↦ Or.inl hi) le_rfl rfl rfl (Or.inl rfl)
  · have hdead : ∀ a ∈ s.threads.map fun _ ↦ TickStage.dead, a = .dead := by
      intro a ha
      obtain ⟨_, -, rfl⟩ := List.mem_map.mp ha
      rfl
    refine h.apart (fun _ _ h ↦ by cases h) (fun i a hi ↦ ?_) ?_ rfl rfl (Or.inr ⟨rfl, hdead⟩)
    · exact Or.inr (Or.inr (hdead a (List.mem_of_getElem? hi)))
    · exact (List.length_map _).ge

/-- A thread whose URL is not allowed is about to check it, was turned away, or died. -/
theorem Accountable.turnedAway (h : Accountable actions s) {url : String}
    (hread : ReadUrl actions thread url) (hrefused : webhookUrlAllowed url = false) :
    s.threads[thread]? = some (.checking url) ∨ s.threads[thread]? = some .dead ∨
      (thread, url) ∈ s.refusals := by
  obtain ⟨settings, hmem⟩ := hread.1
  obtain ⟨a, ha⟩ : ∃ a, s.threads[thread]? = some a :=
    ⟨_, List.getElem?_eq_getElem (h.known thread settings hmem)⟩
  have hvetted := h.threads thread a ha
  rw [ha]
  cases a with
  | started => exact absurd hmem (hvetted settings)
  | checking other =>
    rw [hread.unique hvetted]
    exact Or.inl rfl
  | leaving | ended => exact Or.inr (Or.inr (hvetted url hread hrefused))
  | dead => exact Or.inr (Or.inl rfl)
  | _ => exact absurd hrefused (not_refused hvetted.1 hvetted.2 hread)

/-- Without repetitions in a row, at the end of a list. -/
theorem destutter_concat {α : Type} [DecidableEq α] (l : List α) (b : α) :
    (l ++ [b]).destutter (· ≠ ·) =
      if l.getLast? = some b then l.destutter (· ≠ ·) else l.destutter (· ≠ ·) ++ [b] := by
  have hrest : ∀ (l : List α) (a : α), (l ++ [b]).destutter' (· ≠ ·) a =
      if (a :: l).getLast? = some b then l.destutter' (· ≠ ·) a
      else l.destutter' (· ≠ ·) a ++ [b] := by
    intro l
    induction l with
    | nil =>
      intro a
      by_cases hab : a = b <;> simp [List.destutter', hab]
    | cons c l ih =>
      intro a
      rw [List.cons_append, List.destutter', List.destutter', ih c, ih a, List.getLast?_cons_cons]
      by_cases hac : a = c
      · rw [if_neg (not_not_intro hac), if_neg (not_not_intro hac), hac]
      · rw [if_pos hac, if_pos hac]
        split <;> rfl
  cases l with
  | nil => rfl
  | cons a l => exact hrest l a

/-- Refused URLs are printed, but not twice in a row. -/
structure Printed (s : Ticks) : Prop where
  log : s.log.filterMap TickLog.refusal = (s.refusals.map Prod.snd).destutter (· ≠ ·)
  last : s.lastRefused = (s.refusals.map Prod.snd).getLast?

theorem Printed.step (h : Printed s) (hstep : ticks.step s action = some t) : Printed t := by
  obtain ⟨_, -, rfl⟩ | ⟨thread, old, stage, -, hmoved⟩ | ⟨_, -, -, rfl⟩ | ⟨-, rfl⟩ :=
    step_cases hstep
  · exact ⟨h.log, h.last⟩
  · cases hmoved with
    | refuseAgain now url _ hagain =>
      have hurls : (s.refusals ++ [(thread, url)]).map Prod.snd =
          s.refusals.map Prod.snd ++ [url] := List.map_append
      refine ⟨?_, ?_⟩
      · show s.log.filterMap TickLog.refusal = _
        rw [hurls, destutter_concat, if_pos (h.last ▸ hagain), h.log]
      · show s.lastRefused = _
        rw [hurls, List.getLast?_concat, hagain]
    | refuse now url _ hnew =>
      have hurls : (s.refusals ++ [(thread, url)]).map Prod.snd =
          s.refusals.map Prod.snd ++ [url] := List.map_append
      refine ⟨?_, ?_⟩
      · show (s.log ++ [TickLog.refused url (refusalLine url)]).filterMap TickLog.refusal = _
        rw [hurls, destutter_concat, if_neg (h.last ▸ hnew), List.filterMap_append, h.log]
        rfl
      · show some url = _
        rw [hurls, List.getLast?_concat]
    | warn now url warning =>
      refine ⟨?_, h.last⟩
      show (s.log ++ [TickLog.review warning]).filterMap TickLog.refusal = _
      rw [List.filterMap_append]
      exact (List.append_nil _).trans h.log
    | _ => exact ⟨h.log, h.last⟩
  · exact ⟨h.log, h.last⟩
  · exact ⟨rfl, rfl⟩

/-- What a step does to the daemon with one pass, if no thread gives up. -/
theorem daemon_step (hflight : SingleFlight s) (hstep : ticks.step s action = some t)
    (hfail : ∀ thread, action ≠ .fail thread) :
    ∃ moves : List Action, t.daemon = s.daemon.after moves := by
  have hnext := hflight.step hstep
  have heq : ∀ {d e : Daemon}, d.relay = e.relay → d.running = e.running → d = e := by
    rintro ⟨_, _⟩ ⟨_, _⟩ rfl rfl
    rfl
  obtain ⟨_, -, rfl⟩ | ⟨thread, old, stage, hold, hmoved⟩ | ⟨c, -, hc, rfl⟩ | ⟨-, rfl⟩ :=
    step_cases hstep
  · refine ⟨[], heq rfl ?_⟩
    simp [daemon, Daemon.after, List.findSome?_append, TickStage.pass]
  · have hthreads := hmoved.threads
    have hmove : t.threads[thread]? = some stage := by
      rw [hthreads, getElem?_move hold, if_pos rfl]
    cases hmoved with
    | begin now url =>
      refine ⟨[.begin now], ?_⟩
      rw [hflight.daemon_eq hold trivial, hnext.daemon_eq hmove trivial]
      rfl
    | relay now url pass hpass =>
      refine ⟨[.proceed], ?_⟩
      rw [hflight.daemon_eq hold trivial, hnext.daemon_eq hmove trivial]
      cases pass with
      | done a => exact absurd rfl (hpass a)
      | _ => rfl
    | finish now url =>
      refine ⟨[.proceed], ?_⟩
      rw [hflight.daemon_eq hold trivial, hnext.daemon_eq hmove trivial]
      rfl
    | unopened => exact absurd rfl (hfail thread)
    | broken => exact absurd rfl (hfail thread)
    | _ =>
      refine ⟨[], heq rfl (running_move hold ?_ hthreads)⟩
      rfl
  · exact ⟨[.external c], heq (by simp [Daemon.after, Daemon.step, hc, daemon])
      (by simp [Daemon.after, Daemon.step, hc, daemon])⟩
  · refine ⟨[.crash], heq rfl (List.findSome?_eq_none_iff.mpr fun a ha ↦ ?_)⟩
    obtain ⟨_, -, rfl⟩ := List.mem_map.mp ha
    rfl

end Invariants

end Ticks

/-- However relay threads, other threads and processes and crashes come in between each other: at
most one thread is between setting the flag and clearing it, so the flag is free when all have
ended. Every POST of a thread goes to the URL that the settings held when this thread read them,
and the policy allows it. A thread whose URL is not allowed is turned away once it checks, unless
the daemon dies before; the URLs of these threads are printed in order, one that comes again
before another only once. While no thread gives up, the relay does what a daemon with one pass at
a time does. -/
theorem relay_single_flight (db : Db) (script : ℕ → Bool) (actions : List TickAction) (t : Ticks)
    (hrun : ticks.run (.started db script) actions = some t) :
    t.SingleFlight ∧
    ((∀ p ∈ t.attempts, Ticks.ReadUrl actions p.thread p.url ∧ webhookUrlAllowed p.url = true) ∧
      t.relay.attempts = t.attempts.length) ∧
    ((∀ thread url, Ticks.ReadUrl actions thread url → webhookUrlAllowed url = false →
        t.threads[thread]? = some (.checking url) ∨ t.threads[thread]? = some .dead ∨
          (thread, url) ∈ t.refusals) ∧
      (∀ p ∈ t.refusals, Ticks.ReadUrl actions p.1 p.2 ∧ webhookUrlAllowed p.2 = false) ∧
      t.log.filterMap TickLog.refusal = (t.refusals.map Prod.snd).destutter (· ≠ ·)) ∧
    ((∀ thread, .fail thread ∉ actions) →
      ∃ moves : List Action, t.daemon = (Daemon.started db script).after moves) := by
  have hgood : ticks.Meets (fun _ _ ↦ True) (.started db script) actions :=
    Machine.meets_of_forall (fun _ _ _ ↦ trivial) _
  have h : (t.SingleFlight ∧ t.Accountable actions ∧ t.Printed) ∧
      ((∀ thread, .fail thread ∉ actions) →
        ∃ moves : List Action, t.daemon = (Daemon.started db script).after moves) := by
    refine Machine.run_induction (I := fun done s ↦
      (s.SingleFlight ∧ s.Accountable done ∧ s.Printed) ∧
        ((∀ thread, .fail thread ∉ done) →
          ∃ moves : List Action, s.daemon = (Daemon.started db script).after moves))
      ⟨⟨⟨fun hi ↦ (by cases hi), ⟨fun h ↦ (by cases h), fun ⟨_, ha, _⟩ ↦ (by cases ha)⟩⟩,
        ⟨fun _ _ ha ↦ (by cases ha), fun _ _ hmem ↦ (by cases hmem), fun _ hp ↦ (by cases hp),
          fun _ hp ↦ (by cases hp), rfl⟩, ⟨rfl, rfl⟩⟩,
        fun _ ↦ ⟨[], rfl⟩⟩ ?_ hgood hrun
    rintro done s action u ⟨⟨hflight, haccountable, hprinted⟩, hmoves⟩ - hstep
    refine ⟨⟨hflight.step hstep, haccountable.step hstep, hprinted.step hstep⟩, fun hfail ↦ ?_⟩
    obtain ⟨before, hbefore⟩ := hmoves fun thread hmem ↦
      hfail thread (List.mem_append_left _ hmem)
    obtain ⟨moves, hafter⟩ := Ticks.daemon_step hflight hstep fun thread heq ↦
      hfail thread (List.mem_append_right _ (List.mem_singleton.mpr heq.symm))
    exact ⟨before ++ moves, by rw [hafter, hbefore, Daemon.after, Daemon.after, Daemon.after,
      List.foldl_append]⟩
  obtain ⟨⟨hflight, haccountable, hprinted⟩, hdaemon⟩ := h
  exact ⟨hflight, ⟨haccountable.posted, haccountable.all⟩,
    ⟨fun thread url ↦ haccountable.turnedAway, haccountable.refused, hprinted.log⟩, hdaemon⟩

/-- Settings with a URL of their own. -/
def hooked (url : String) : DaemonSettings := ⟨120, 1800, some url⟩

/-- An event that is due. -/
def dueDb : Db :=
  { watchedDb with healthEvents := [failureEvent], webhookCursor := fun _ ↦ some 1000 }

/-- Two threads go for the flag, a third one is refused, and the first one relays. -/
def overlappingTicks : List TickAction :=
  [.spawn (hooked "https://a.example/"), .spawn (hooked "https://a.example/"),
    .read 0 (hooked "https://a.example/"), .read 1 (hooked " https://b.example/ "),
    .proceed 0 1070, .proceed 1 1070, .proceed 0 1070, .proceed 1 1070,
    .spawn (hooked "http://c.example/"), .read 2 (hooked "http://c.example/"),
    .proceed 2 1070] ++ List.replicate 9 (.proceed 0 1070)

theorem relay_single_flight_overlap :
    ∃ t, ticks.run (.started dueDb fun _ ↦ true) overlappingTicks = some t ∧
      t.inFlight = true ∧ t.log.filterMap TickLog.refusal = ["http://c.example/"] ∧
      t.attempts = [⟨0, "https://a.example/", failureEvent⟩] ∧
      ∃ moves : List Action,
        t.daemon = (Daemon.started dueDb fun _ ↦ true).after moves := by
  refine ⟨_, rfl, by decide +kernel, by decide +kernel, by decide +kernel, ?_⟩
  exact (relay_single_flight dueDb (fun _ ↦ true) overlappingTicks _ rfl).2.2.2
    fun thread ↦ by simp [overlappingTicks]

end Daku.Webhook
