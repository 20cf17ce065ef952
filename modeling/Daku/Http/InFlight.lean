import Daku.Http.Balanced

/-!
# The limits hold

In every state of `LimitedTransport`, `crates/daku-core/src/servicenow.rs:71–147`, at most 8
requests are in flight, at most 2 of them for one host; the permits in use are those of the
threads between acquiring and dropping them; and as long as a request is unfinished some thread
can go on.
-/

namespace Daku.Http

open Daku.Base
open Semaphore (Role count)

/-- Whether the inner transport is executing the request. -/
def Caller.isInFlight (c : Caller) : Bool :=
  match c.phase with
  | .inFlight => true
  | _ => false

/-- A thread with nothing left to do. -/
def Caller.Finished (c : Caller) : Prop := c.phase = .idle ∧ c.requests = []

/-- A thread asleep at one of its semaphores. -/
def Caller.Asleep (c : Caller) : Prop :=
  c.phase = .acquiringGlobal true ∨ c.phase = .acquiringHost true

namespace LimitedTransport

variable {ι : Type} [Fintype ι] (s : LimitedTransport ι)

/-- The threads whose requests are in flight. -/
def inFlight : Finset ι := Finset.univ.filter fun t ↦ (s.callers t).isInFlight

/-- The threads whose requests to a host are in flight. -/
def inFlightTo (host : String) : Finset ι :=
  Finset.univ.filter fun t ↦ (s.callers t).isInFlight ∧ (s.callers t).key = some host

/-- The threads that hold a global permit. -/
def globalHolders : Finset ι :=
  Finset.univ.filter fun t ↦ (s.callers t).globalRole = .holding

/-- The threads that hold a permit of a host. -/
def hostHolders (host : String) : Finset ι :=
  Finset.univ.filter fun t ↦ (s.callers t).hostRole host = .holding

variable {s} {t : ι} {host : String}

@[simp] theorem mem_inFlight : t ∈ s.inFlight ↔ (s.callers t).isInFlight := by simp [inFlight]

@[simp] theorem mem_inFlightTo :
    t ∈ s.inFlightTo host ↔ (s.callers t).isInFlight ∧ (s.callers t).key = some host := by
  simp [inFlightTo]

@[simp] theorem mem_globalHolders :
    t ∈ s.globalHolders ↔ (s.callers t).globalRole = .holding := by simp [globalHolders]

@[simp] theorem mem_hostHolders :
    t ∈ s.hostHolders host ↔ (s.callers t).hostRole host = .holding := by simp [hostHolders]

end LimitedTransport

section

variable {c : Caller} {host : String}

theorem Caller.phase_of_isInFlight (h : c.isInFlight) : c.phase = .inFlight := by
  unfold Caller.isInFlight at h
  split at h
  · assumption
  · cases h

theorem Caller.globalRole_of_isInFlight (h : c.isInFlight) : c.globalRole = .holding := by
  simp [Caller.globalRole, phase_of_isInFlight h]

theorem Caller.hostRole_of_isInFlight (h : c.isInFlight) (hkey : c.key = some host) :
    c.hostRole host = .holding := by
  rw [hostRole_of_key hkey, phase_of_isInFlight h]
  rfl

/-- A thread that is about to test the semaphore of a host, or holds a permit of it, is neither
finished nor asleep. -/
theorem Caller.not_asleep_of_hostRole (haway : c.hostRole host ≠ .away)
    (hasleep : c.hostRole host ≠ .asleep) : ¬ c.Finished ∧ ¬ c.Asleep := by
  have hkey := key_of_hostRole haway
  rw [hostRole_of_key hkey] at haway hasleep
  constructor
  · rintro ⟨hphase, -⟩
    rw [hphase] at haway
    exact haway rfl
  · rintro (hphase | hphase)
    · rw [hphase] at haway
      exact haway rfl
    · rw [hphase] at hasleep
      exact hasleep rfl

end

/-- A guard can always be dropped. -/
theorem exists_notifyOne {ι : Type} [Fintype ι] [DecidableEq ι] (role : Caller → Role)
    (s : LimitedTransport ι)
    (hasleep : ∀ c, role c = .asleep → c.Asleep) : ∃ woken t, s.notifyOne role woken = some t := by
  by_cases hsome : ∃ w, role (s.callers w) = .asleep
  · obtain ⟨w, hw⟩ := hsome
    rcases hasleep _ hw with hphase | hphase
    · exact ⟨some w, s.move w (.acquiringGlobal false), by
        simp [LimitedTransport.notifyOne, hw, LimitedTransport.wake, hphase]⟩
    · exact ⟨some w, s.move w (.acquiringHost false), by
        simp [LimitedTransport.notifyOne, hw, LimitedTransport.wake, hphase]⟩
  · have hnone : ∀ w, role (s.callers w) ≠ .asleep := fun w hw ↦ hsome ⟨w, hw⟩
    exact ⟨none, s, by simp [LimitedTransport.notifyOne, hnone]⟩

namespace Balanced

variable {ι : Type} [Fintype ι] {s : LimitedTransport ι}
  (h : Balanced s)
include h

theorem global_used : s.global.used = s.globalHolders.card := by
  rw [h.global.used, Semaphore.count_eq_card]
  rfl

theorem host_used (host : String) : (s.host host).used = (s.hostHolders host).card := by
  rw [(h.host host).used, Semaphore.count_eq_card]
  rfl

theorem inFlight_le : s.inFlight.card ≤ 8 := by
  have hsub : s.inFlight ⊆ s.globalHolders := fun t ht ↦
    LimitedTransport.mem_globalHolders.mpr
      (Caller.globalRole_of_isInFlight (LimitedTransport.mem_inFlight.mp ht))
  have := Finset.card_le_card hsub
  have := h.global_used
  have := h.global.le_max
  have := h.global_max
  omega

theorem inFlightTo_le (host : String) : (s.inFlightTo host).card ≤ 2 := by
  have hsub : s.inFlightTo host ⊆ s.hostHolders host := by
    intro t ht
    rw [LimitedTransport.mem_inFlightTo] at ht
    exact LimitedTransport.mem_hostHolders.mpr (Caller.hostRole_of_isInFlight ht.1 ht.2)
  have := Finset.card_le_card hsub
  have := h.host_used host
  have := (h.host host).le_max
  have := h.host_max host
  omega

/-- With every thread out of `execute`, all permits are back. -/
theorem used_eq_zero (hidle : ∀ t, (s.callers t).phase = .idle) :
    s.global.used = 0 ∧ ∀ host, (s.host host).used = 0 := by
  constructor
  · apply h.global.used_eq_zero
    intro t
    simp [Caller.globalRole, hidle t]
  · intro host
    apply (h.host host).used_eq_zero
    intro t ht
    have haway : (s.callers t).hostRole host = .away :=
      Caller.hostRole_of_away (by rw [hidle t]; rfl)
    exact absurd (haway.symm.trans ht) (by decide)

/-- Not everybody sleeps. -/
theorem exists_awake (hunfinished : ∃ t, ¬ (s.callers t).Finished) :
    ∃ t, ¬ (s.callers t).Finished ∧ ¬ (s.callers t).Asleep := by
  by_contra hnone
  have hall : ∀ t, ¬ (s.callers t).Finished → (s.callers t).Asleep := fun t ht ↦
    by_contra fun hasleep ↦ hnone ⟨t, ht, hasleep⟩
  -- A thread asleep at a host leaves two awake ones that hold its permits.
  have hhost : ∀ t, (s.callers t).phase ≠ .acquiringHost true := by
    intro t hphase
    obtain ⟨host, hkey⟩ := h.exists_key (by simp [hphase] : (s.callers t).phase ≠ .idle)
    have hasleep : (s.callers t).hostRole host = .asleep := by
      rw [Caller.hostRole_of_key hkey, hphase]
      rfl
    have hawake : ∀ u, (s.callers u).hostRole host ≠ .away →
        (s.callers u).hostRole host = .asleep := by
      intro u haway
      by_contra hasleep
      obtain ⟨hnot, hawake⟩ := Caller.not_asleep_of_hostRole haway hasleep
      exact hawake (hall u hnot)
    have hfull := (h.host host).max_le_used hasleep fun u (hu : Caller.hostRole host _ = _) ↦ by
      have := hawake u (by rw [hu]; decide)
      exact absurd (this.symm.trans hu) (by decide)
    have hpos : 0 < count (Caller.hostRole host ∘ s.callers) .holding := by
      have := (h.host host).used
      have := h.host_max host
      omega
    obtain ⟨u, hu⟩ := Semaphore.count_pos_iff.mp hpos
    have hu : Caller.hostRole host (s.callers u) = .holding := hu
    have := hawake u (by rw [hu]; decide)
    exact absurd (this.symm.trans hu) (by decide)
  obtain ⟨t, ht⟩ := hunfinished
  have hphase : (s.callers t).phase = .acquiringGlobal true :=
    (hall t ht).resolve_right (hhost t)
  have hall' : ∀ u, (s.callers u).globalRole = .away ∨ (s.callers u).globalRole = .asleep := by
    intro u
    by_cases hu : (s.callers u).Finished
    · exact Or.inl (by simp [Caller.globalRole, hu.1])
    · have := (hall u hu).resolve_right (hhost u)
      exact Or.inr (by simp [Caller.globalRole, this])
  have hfull := h.global.max_le_used (t := t) (by simp [Caller.globalRole, hphase]) fun u hu ↦ by
    rcases hall' u with hrole | hrole <;> exact absurd (hrole.symm.trans hu) (by decide)
  have hpos : 0 < count (Caller.globalRole ∘ s.callers) .holding := by
    have := h.global.used
    have := h.global_max
    omega
  obtain ⟨u, hu⟩ := Semaphore.count_pos_iff.mp hpos
  rcases hall' u with hrole | hrole <;> exact absurd (hrole.symm.trans hu) (by decide)

variable [DecidableEq ι]

/-- A thread that is neither finished nor asleep can go on. -/
theorem exists_step {t : ι} (hunfinished : ¬ (s.callers t).Finished)
    (hawake : ¬ (s.callers t).Asleep) :
    ∃ a s', (∀ w, a ≠ .wake w) ∧ s.step a = some s' := by
  cases hphase : (s.callers t).phase with
  | idle =>
    cases hrequests : (s.callers t).requests with
    | nil => exact absurd ⟨hphase, hrequests⟩ hunfinished
    | cons r rest =>
      exact ⟨.execute t, _, by simp, by simp [LimitedTransport.step, hphase, hrequests]; rfl⟩
  | acquiringGlobal asleep =>
    cases asleep with
    | true => exact absurd (Or.inl hphase) hawake
    | false =>
      refine ⟨.acquireGlobal t, ?_⟩
      simp only [LimitedTransport.step, hphase]
      split <;> exact ⟨_, by simp, rfl⟩
  | keying =>
    obtain ⟨host, hhost⟩ := h.exists_key (by simp [hphase] : (s.callers t).phase ≠ .idle)
    exact ⟨.hostKey t, _, by simp, by simp [LimitedTransport.step, hphase, hhost]; rfl⟩
  | acquiringHost asleep =>
    cases asleep with
    | true => exact absurd (Or.inr hphase) hawake
    | false =>
      obtain ⟨host, hhost⟩ := h.exists_key (by simp [hphase] : (s.callers t).phase ≠ .idle)
      obtain ⟨semaphore, hsem⟩ := Option.isSome_iff_exists.mp
        ((h.placed t).present host (by rw [hphase]; decide) hhost)
      refine ⟨.acquireHost t, ?_⟩
      simp only [LimitedTransport.step, hphase, hhost, hsem, Option.bind_eq_bind,
        Option.bind_some]
      split <;> exact ⟨_, by simp, rfl⟩
  | inFlight =>
    exact ⟨.respond t (.error ""), _, by simp, by simp [LimitedTransport.step, hphase]; rfl⟩
  | droppingHost outcome =>
    obtain ⟨host, hhost⟩ := h.exists_key (by simp [hphase] : (s.callers t).phase ≠ .idle)
    obtain ⟨semaphore, hsem⟩ := Option.isSome_iff_exists.mp
      ((h.placed t).present host (by simp [hphase, RequestPhase.hostRole]) hhost)
    obtain ⟨woken, s', hs'⟩ := exists_notifyOne (Caller.hostRole host)
      { s.move t (.droppingGlobal outcome) with
        hosts := Function.update s.hosts host (some semaphore.release) }
      fun c hc ↦ Or.inr (Caller.asleep_of_hostRole hc).1
    exact ⟨.dropHost t woken, s', by simp, by
      simpa [LimitedTransport.step, hphase, hhost, hsem] using hs'⟩
  | droppingGlobal outcome =>
    obtain ⟨woken, s', hs'⟩ := exists_notifyOne Caller.globalRole
      { s with
        global := s.global.release
        callers := Function.update s.callers t
          ⟨.idle, (s.callers t).requests.tail, (s.callers t).outcomes ++ [outcome]⟩ }
      fun c hc ↦ Or.inl (Caller.asleep_of_globalRole hc)
    exact ⟨.dropGlobal t woken, s', by simp, by
      simpa [LimitedTransport.step, hphase] using hs'⟩

end Balanced

/-- After any run of any threads: the bounds hold, the permits in use are exactly those held,
none is in use when no thread is in `execute`, and some thread can go on while a request is
unfinished. -/
theorem request_limits_hold {ι : Type} [Fintype ι] [DecidableEq ι]
    {requests : ι → List HttpRequest} {actions : List (LimitAction ι)} {s : LimitedTransport ι}
    (hrun : (limiting ι).run (LimitedTransport.new requests) actions = some s) :
    s.inFlight.card ≤ 8 ∧ (∀ host, (s.inFlightTo host).card ≤ 2) ∧
      s.global.used = s.globalHolders.card ∧
      (∀ host semaphore, s.hosts host = some semaphore →
        semaphore.used = (s.hostHolders host).card) ∧
      ((∀ t, (s.callers t).phase = .idle) →
        s.global.used = 0 ∧ ∀ host semaphore, s.hosts host = some semaphore →
          semaphore.used = 0) ∧
      ((∃ t, ¬ (s.callers t).Finished) →
        ∃ a s', (∀ w, a ≠ .wake w) ∧ s.step a = some s') := by
  have h := balanced_run hrun
  refine ⟨h.inFlight_le, h.inFlightTo_le, h.global_used, ?_, ?_, ?_⟩
  · intro host semaphore hsem
    rw [← s.host_eq hsem]
    exact h.host_used host
  · intro hidle
    obtain ⟨hglobal, hhost⟩ := h.used_eq_zero hidle
    refine ⟨hglobal, fun host semaphore hsem ↦ ?_⟩
    rw [← s.host_eq hsem]
    exact hhost host
  · intro hunfinished
    obtain ⟨t, ht, hawake⟩ := h.exists_awake hunfinished
    exact h.exists_step ht hawake

/-- Three requests for one host: the third one sleeps until the second one is answered. -/
theorem request_limits_hold_for_three_threads :
    let requests : Fin 3 → List HttpRequest := fun n ↦
      [⟨"GET", "https://slow.example.com/" ++ toString n, [], none⟩]
    let actions : List (LimitAction (Fin 3)) :=
      [.execute 0, .acquireGlobal 0, .execute 1, .hostKey 0, .acquireGlobal 1, .acquireHost 0,
        .hostKey 1, .acquireHost 1, .execute 2, .acquireGlobal 2, .hostKey 2, .acquireHost 2,
        .respond 1 (.error "timeout"), .dropHost 1 (some 2), .acquireHost 2, .dropGlobal 1 none]
    ∃ s, (limiting (Fin 3)).run (LimitedTransport.new requests) actions = some s ∧
      s.inFlight.card ≤ 8 ∧ (∀ host, (s.inFlightTo host).card ≤ 2) ∧
      s.global.used = s.globalHolders.card := by
  intro requests actions
  obtain ⟨s, hs⟩ := Option.isSome_iff_exists.mp
    (by decide +kernel :
      ((limiting (Fin 3)).run (LimitedTransport.new requests) actions).isSome)
  obtain ⟨htotal, hhost, hglobal, -⟩ := request_limits_hold hs
  exact ⟨s, hs, htotal, hhost, hglobal⟩

end Daku.Http
