import Daku.Http.InFlight

/-!
# Slow hosts

Whether the requests of one host can keep the others waiting,
`crates/daku-core/src/servicenow.rs:71–73, 101–106`. The global permit is taken before the one of
the host, so a request that waits for its host holds a global permit.
-/

namespace Daku.Http

open Daku.Base

/-- A thread that waits in `execute`. -/
def Caller.Waiting (c : Caller) : Prop :=
  (∃ asleep, c.phase = .acquiringGlobal asleep) ∨ ∃ asleep, c.phase = .acquiringHost asleep

namespace LimitedTransport

variable {ι : Type} [Fintype ι] (s : LimitedTransport ι)

/-- A thread that waits for a permit while none is free. -/
def Blocked (t : ι) : Prop :=
  (∃ asleep, (s.callers t).phase = .acquiringGlobal asleep) ∧ s.global.max ≤ s.global.used ∨
    (∃ asleep, (s.callers t).phase = .acquiringHost asleep) ∧
      ∃ host, (s.callers t).key = some host ∧ (s.host host).max ≤ (s.host host).used

/-- No thread is kept waiting by threads that only wait themselves: where the limits leave room
for its request, it is not blocked, or some thread that holds a permit is about to go on. -/
def NotCrowdedOut : Prop :=
  ∀ t host, (s.callers t).Waiting → (s.callers t).key = some host → s.inFlight.card < 8 →
    (s.inFlightTo host).card < 2 →
      ¬ s.Blocked t ∨ ∃ u ∈ s.globalHolders, ¬ (s.callers u).isInFlight ∧ ¬ s.Blocked u

end LimitedTransport

/-- The hosts a thread sends requests to. -/
def hostsOf (requests : List HttpRequest) : List String := requests.map fun r ↦ hostKey r.url

/-- Eight threads can be at requests of which three go to one host and at most one to a host
that a ninth thread has a request for. -/
def Crowdable {ι : Type} [DecidableEq ι] (requests : ι → List HttpRequest) : Prop :=
  ∃ t, ∃ host ∈ hostsOf (requests t), ∃ others : Finset ι, t ∉ others ∧ others.card = 8 ∧
    ∃ pick : ι → String, (∀ u ∈ others, pick u ∈ hostsOf (requests u)) ∧
      (others.filter fun u ↦ pick u = host).card ≤ 1 ∧
      ∃ slow, 3 ≤ (others.filter fun u ↦ pick u = slow).card

section

variable {ι : Type} {s : LimitedTransport ι} {host : String} {u : ι}

/-- A thread that holds a permit of a host does not wait for one. -/
theorem not_blocked_of_hostRole (h : (s.callers u).hostRole host = .holding) :
    ¬ s.Blocked u := by
  have hkey := Caller.key_of_hostRole (h ▸ by decide : (s.callers u).hostRole host ≠ .away)
  rw [Caller.hostRole_of_key hkey] at h
  rintro (⟨⟨asleep, hphase⟩, -⟩ | ⟨⟨asleep, hphase⟩, -⟩) <;> rw [hphase] at h
  · cases h
  · cases asleep <;> cases h

theorem globalRole_of_hostRole (h : (s.callers u).hostRole host = .holding) :
    (s.callers u).globalRole = .holding := by
  have hkey := Caller.key_of_hostRole (h ▸ by decide : (s.callers u).hostRole host ≠ .away)
  rw [Caller.hostRole_of_key hkey] at h
  cases hphase : (s.callers u).phase with
  | inFlight => simp [Caller.globalRole, hphase]
  | droppingHost outcome => simp [Caller.globalRole, hphase]
  | acquiringHost asleep => cases asleep <;> rw [hphase] at h <;> cases h
  | _ => rw [hphase] at h; cases h

/-- Where a host has room in flight but no free permit, a holder is about to go on. -/
theorem Balanced.exists_dropping [Fintype ι] (h : Balanced s)
    (hfull : (s.host host).max ≤ (s.host host).used) (hroom : (s.inFlightTo host).card < 2) :
    ∃ u ∈ s.globalHolders, ¬ (s.callers u).isInFlight ∧ ¬ s.Blocked u := by
  have hlt : (s.inFlightTo host).card < (s.hostHolders host).card := by
    have := h.host_used host
    have := h.host_max host
    omega
  obtain ⟨u, hu, hnot⟩ := Finset.exists_mem_notMem_of_card_lt_card hlt
  rw [LimitedTransport.mem_hostHolders] at hu
  rw [LimitedTransport.mem_inFlightTo] at hnot
  have hkey := Caller.key_of_hostRole (hu ▸ by decide : (s.callers u).hostRole host ≠ .away)
  refine ⟨u, ?_, fun hflight ↦ hnot ⟨hflight, hkey⟩, not_blocked_of_hostRole hu⟩
  exact LimitedTransport.mem_globalHolders.mpr (globalRole_of_hostRole hu)

end

theorem requests_move {ι : Type} [DecidableEq ι] (s : LimitedTransport ι) (t u : ι)
    (phase : RequestPhase) :
    ((s.move t phase).callers u).requests = (s.callers u).requests := by
  by_cases hu : u = t
  · subst hu
    simp [LimitedTransport.move]
  · simp [LimitedTransport.move, hu]

theorem requests_wake {ι : Type} [DecidableEq ι] {s t : LimitedTransport ι} {u w : ι}
    (h : s.wake w = some t) :
    (t.callers u).requests = (s.callers u).requests := by
  unfold LimitedTransport.wake at h
  split at h
  · rw [← Option.some.inj h, requests_move]
  · rw [← Option.some.inj h, requests_move]
  · cases h

variable {ι : Type} [Fintype ι] [DecidableEq ι] {requests : ι → List HttpRequest}
  {s : LimitedTransport ι}

theorem requests_notifyOne {s t : LimitedTransport ι} {u : ι} {role : Caller → Semaphore.Role}
    {woken : Option ι} (h : s.notifyOne role woken = some t) :
    (t.callers u).requests = (s.callers u).requests := by
  cases woken with
  | none =>
    simp only [LimitedTransport.notifyOne, Option.ite_none_right_eq_some, Option.some.injEq] at h
    rw [h.2]
  | some w =>
    simp only [LimitedTransport.notifyOne, Option.ite_none_right_eq_some] at h
    exact requests_wake h.2

/-- A thread works through its requests in order. -/
theorem requests_suffix_step {s t : LimitedTransport ι} {a : LimitAction ι}
    (hstep : s.step a = some t) (u : ι) :
    (t.callers u).requests <:+ (s.callers u).requests := by
  suffices H : (t.callers u).requests = (s.callers u).requests ∨
      (t.callers u).requests = (s.callers u).requests.tail by
    rcases H with heq | heq
    · rw [heq]
    · rw [heq]
      exact List.tail_suffix _
  cases a with
  | execute v =>
    simp only [LimitedTransport.step] at hstep
    split at hstep
    · exact Or.inl (by rw [← Option.some.inj hstep, requests_move])
    · cases hstep
  | acquireGlobal v =>
    simp only [LimitedTransport.step] at hstep
    split at hstep
    · split at hstep <;> exact Or.inl (by rw [← Option.some.inj hstep]; exact requests_move s v u _)
    · cases hstep
  | hostKey v =>
    simp only [LimitedTransport.step] at hstep
    split at hstep
    · exact Or.inl (by rw [← Option.some.inj hstep]; exact requests_move s v u _)
    · cases hstep
  | acquireHost v =>
    simp only [LimitedTransport.step] at hstep
    split at hstep
    · simp only [Option.bind_eq_bind, Option.bind_eq_some_iff] at hstep
      obtain ⟨host, -, semaphore, -, hstep⟩ := hstep
      split at hstep <;> exact Or.inl (by rw [← Option.some.inj hstep]; exact requests_move s v u _)
    · cases hstep
  | respond v outcome =>
    simp only [LimitedTransport.step] at hstep
    split at hstep
    · exact Or.inl (by rw [← Option.some.inj hstep, requests_move])
    · cases hstep
  | dropHost v woken =>
    simp only [LimitedTransport.step] at hstep
    split at hstep
    · simp only [Option.bind_eq_bind, Option.bind_eq_some_iff] at hstep
      obtain ⟨host, -, semaphore, -, hstep⟩ := hstep
      exact Or.inl ((requests_notifyOne hstep).trans (requests_move s v u _))
    · cases hstep
  | dropGlobal v woken =>
    simp only [LimitedTransport.step] at hstep
    split at hstep
    · rw [requests_notifyOne hstep]
      by_cases hu : u = v
      · subst hu
        exact Or.inr (by simp)
      · exact Or.inl (by simp [hu])
    · cases hstep
  | wake v => exact Or.inl (requests_wake hstep)

theorem requests_suffix_run {actions : List (LimitAction ι)}
    (hrun : (limiting ι).run (LimitedTransport.new requests) actions = some s) (u : ι) :
    (s.callers u).requests <:+ requests u :=
  Machine.run_invariant (I := fun s ↦ (s.callers u).requests <:+ requests u)
    (List.suffix_refl _) (fun h hstep ↦ (requests_suffix_step hstep u).trans h) hrun

/-- The request at hand is one of those the thread was given. -/
theorem key_mem_hostsOf {actions : List (LimitAction ι)} {u : ι} {host : String}
    (hrun : (limiting ι).run (LimitedTransport.new requests) actions = some s)
    (hkey : (s.callers u).key = some host) : host ∈ hostsOf (requests u) := by
  rw [Caller.key, Option.map_eq_some_iff] at hkey
  obtain ⟨r, hr, rfl⟩ := hkey
  have hmem := (requests_suffix_run hrun u).subset (List.mem_of_mem_head? hr)
  exact List.mem_map_of_mem hmem

/-- Requests that cannot be crowded are not. -/
theorem notCrowdedOut_of_not_crowdable {actions : List (LimitAction ι)}
    (hfew : ¬ Crowdable requests)
    (hrun : (limiting ι).run (LimitedTransport.new requests) actions = some s) :
    s.NotCrowdedOut := by
  have h := balanced_run hrun
  intro t host hwaiting hkey htotal hroom
  by_contra hcrowded
  simp only [not_or, not_not, not_exists, not_and] at hcrowded
  obtain ⟨hblocked, hall⟩ := hcrowded
  -- Every holder of a global permit is in flight or waits for its host.
  have hnone : ∀ g, (s.inFlightTo g).card < 2 → ¬ (s.host g).max ≤ (s.host g).used := by
    intro g hg hfull
    obtain ⟨u, hu, hflight, hfree⟩ := h.exists_dropping hfull hg
    exact hfree (hall u hu hflight)
  rcases hblocked with ⟨⟨asleep, hphase⟩, hfull⟩ | ⟨-, g, hg, hfull⟩
  · have hcard : s.globalHolders.card = 8 := by
      have := h.global_used
      have := h.global_max
      have := h.global.le_max
      omega
    have hholder : ∀ u ∈ s.globalHolders, (s.callers u).isInFlight ∨
        ∃ g, (s.callers u).key = some g ∧ (s.host g).max ≤ (s.host g).used := by
      intro u hu
      by_cases hflight : (s.callers u).isInFlight
      · exact Or.inl hflight
      · rcases hall u hu hflight with ⟨⟨asleep, hglobal⟩, -⟩ | ⟨-, hhost⟩
        · cases asleep <;> simp [Caller.globalRole, hglobal] at hu
        · exact Or.inr hhost
    have hnotIdle : ∀ u ∈ s.globalHolders, (s.callers u).phase ≠ .idle := by
      intro u hu hidle
      simp [Caller.globalRole, hidle] at hu
    let pick : ι → String := fun u ↦ ((s.callers u).key).getD ""
    have hpick : ∀ {u g}, (s.callers u).key = some g → pick u = g := fun hu ↦ by
      simp [pick, hu]
    apply hfew
    refine ⟨t, host, key_mem_hostsOf hrun hkey, s.globalHolders, ?_, hcard, pick, ?_, ?_, ?_⟩
    · cases asleep <;> simp [Caller.globalRole, hphase]
    · intro u hu
      obtain ⟨g, hg⟩ := h.exists_key (hnotIdle u hu)
      rw [hpick hg]
      exact key_mem_hostsOf hrun hg
    · have hsub : (s.globalHolders.filter fun u ↦ pick u = host) ⊆ s.inFlightTo host := by
        intro u hu
        obtain ⟨hmem, huhost⟩ := Finset.mem_filter.mp hu
        obtain ⟨g, hg⟩ := h.exists_key (hnotIdle u hmem)
        obtain rfl : g = host := (hpick hg).symm.trans huhost
        rcases hholder u hmem with hflight | ⟨g', hg', hfull'⟩
        · exact LimitedTransport.mem_inFlightTo.mpr ⟨hflight, hg⟩
        · obtain rfl : g = g' := Option.some.inj (hg.symm.trans hg')
          exact absurd hfull' (hnone g hroom)
      have := Finset.card_le_card hsub
      omega
    · have hlt : s.inFlight.card < s.globalHolders.card := by omega
      obtain ⟨v, hv, hflight⟩ := Finset.exists_mem_notMem_of_card_lt_card hlt
      rw [LimitedTransport.mem_inFlight] at hflight
      obtain ⟨g, hg, hfullg⟩ := (hholder v hv).resolve_left hflight
      refine ⟨g, ?_⟩
      have htwo : 2 ≤ (s.inFlightTo g).card := by
        by_contra hlt
        exact hnone g (by omega) hfullg
      have hsub : insert v (s.inFlightTo g) ⊆ s.globalHolders.filter fun u ↦ pick u = g := by
        intro u hu
        rw [Finset.mem_filter]
        rcases Finset.mem_insert.mp hu with rfl | hu
        · exact ⟨hv, hpick hg⟩
        · rw [LimitedTransport.mem_inFlightTo] at hu
          refine ⟨LimitedTransport.mem_globalHolders.mpr ?_, hpick hu.2⟩
          exact Caller.globalRole_of_isInFlight hu.1
      have hnot : v ∉ s.inFlightTo g := fun hv' ↦
        hflight (LimitedTransport.mem_inFlightTo.mp hv').1
      have := Finset.card_le_card hsub
      rw [Finset.card_insert_of_notMem hnot] at this
      omega
  · obtain rfl : g = host := Option.some.inj (hg.symm.trans hkey)
    exact hnone g hroom hfull

end Daku.Http
