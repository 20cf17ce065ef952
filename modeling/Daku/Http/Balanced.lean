import Daku.Http.Limits

/-!
# Requests in flight

What holds of the limits, `crates/daku-core/src/servicenow.rs:71–147`, in every state: each
semaphore counts the threads that hold a permit of it, and no thread sleeps beside a free permit
that nobody is about to take.
-/

namespace Daku.Http

open Daku.Base
open Semaphore (Role Sound)

namespace LimitedTransport

section

variable {ι : Type} (s : LimitedTransport ι)

/-- The semaphore of a host, made when it is first asked for. -/
def host (host : String) : Semaphore := (s.hosts host).getD (Semaphore.new 2)

theorem host_replaced (host g : String) (semaphore : Semaphore) :
    (Function.update s.hosts host (some semaphore) g).getD (Semaphore.new 2) =
      if g = host then semaphore else s.host g := by
  by_cases hg : g = host
  · subst hg
    simp
  · simp [hg, LimitedTransport.host]

/-- The semaphore a thread has found in the map. -/
theorem host_eq {host : String} {semaphore : Semaphore}
    (hsem : s.hosts host = some semaphore) : s.host host = semaphore := by
  rw [LimitedTransport.host, hsem, Option.getD_some]

/-- Putting back what is there changes nothing. -/
theorem move_eq [DecidableEq ι] (u : ι) (phase : RequestPhase) {host : String}
    {semaphore : Semaphore} (hsem : s.hosts host = some semaphore) :
    s.move u phase = { s.move u phase with
      hosts := Function.update s.hosts host (some semaphore) } := by
  rw [← hsem, Function.update_eq_self]
  rfl

end

end LimitedTransport

/-- A thread in `execute` has a request, and finds in the map the semaphore it has asked for. -/
structure Caller.Placed (hosts : String → Option Semaphore) (c : Caller) : Prop where
  busy : c.phase ≠ .idle → c.requests ≠ []
  present : ∀ host, c.phase.hostRole ≠ .away → c.key = some host → (hosts host).isSome

/-- Each semaphore counts its holders. -/
structure Balanced {ι : Type} [Fintype ι] (s : LimitedTransport ι) : Prop where
  global_max : s.global.max = 8
  global : s.global.Sound (Caller.globalRole ∘ s.callers)
  host_max : ∀ host, (s.host host).max = 2
  host : ∀ host, (s.host host).Sound (Caller.hostRole host ∘ s.callers)
  placed : ∀ t, (s.callers t).Placed s.hosts

section

variable {c : Caller} {host : String} {hosts : String → Option Semaphore}

theorem Caller.hostRole_of_key (h : c.key = some host) : c.hostRole host = c.phase.hostRole :=
  if_pos h

theorem Caller.hostRole_of_ne (h : c.key ≠ some host) : c.hostRole host = .away := if_neg h

/-- A thread that has no business with the semaphore of its host. -/
theorem Caller.hostRole_of_away (h : c.phase.hostRole = .away) : c.hostRole host = .away := by
  unfold Caller.hostRole
  rw [h, ite_self]

/-- A thread that moves on within its role. -/
theorem Caller.hostRole_moved {phase : RequestPhase} (h : phase.hostRole = c.phase.hostRole) :
    (c.moved phase).hostRole host = c.hostRole host := by
  unfold Caller.hostRole
  rw [moved_phase, moved_key, h]

theorem Caller.hostRole_moved_of_key {phase : RequestPhase} (h : c.key = some host) :
    (c.moved phase).hostRole host = phase.hostRole :=
  if_pos h

theorem Caller.hostRole_moved_of_ne {phase : RequestPhase} (h : c.key ≠ some host) :
    (c.moved phase).hostRole host = c.hostRole host :=
  (if_neg h).trans (if_neg h).symm

/-- A thread asleep at the semaphore of a host. -/
theorem Caller.asleep_of_hostRole (h : c.hostRole host = .asleep) :
    c.phase = .acquiringHost true ∧ c.key = some host := by
  unfold Caller.hostRole at h
  split at h
  · rename_i hkey
    refine ⟨?_, hkey⟩
    cases hphase : c.phase with
    | acquiringHost asleep =>
      cases asleep with
      | false => simp [hphase, RequestPhase.hostRole] at h
      | true => rfl
    | _ => simp [hphase, RequestPhase.hostRole] at h
  · cases h

/-- A thread asleep at the global semaphore. -/
theorem Caller.asleep_of_globalRole (h : c.globalRole = .asleep) :
    c.phase = .acquiringGlobal true := by
  cases hphase : c.phase with
  | acquiringGlobal asleep =>
    cases asleep with
    | false => simp [Caller.globalRole, hphase] at h
    | true => rfl
  | _ => simp [Caller.globalRole, hphase] at h

/-- A thread with a role at the semaphore of a host has this host. -/
theorem Caller.key_of_hostRole (h : c.hostRole host ≠ .away) : c.key = some host := by
  by_contra hkey
  exact h (hostRole_of_ne hkey)

/-- A semaphore in the map stays there. -/
theorem Caller.Placed.replace (h : c.Placed hosts) (semaphore : Semaphore) :
    c.Placed (Function.update hosts host (some semaphore)) := by
  refine ⟨h.busy, fun g hrole hkey ↦ ?_⟩
  by_cases hg : g = host
  · subst hg
    rw [Function.update_self]
    rfl
  · rw [Function.update_of_ne hg]
    exact h.present g hrole hkey

/-- A thread whose semaphore is put into the map. -/
theorem Caller.placed_replaced (semaphore : Semaphore) (hbusy : c.phase ≠ .idle → c.requests ≠ [])
    (hkey : c.key = some host) : c.Placed (Function.update hosts host (some semaphore)) := by
  refine ⟨hbusy, fun g _ hg ↦ ?_⟩
  obtain rfl : g = host := Option.some.inj (hg.symm.trans hkey)
  rw [Function.update_self]
  rfl

/-- A thread that moves on stays placed, if it asks for no other semaphore. -/
theorem Caller.Placed.moved {phase : RequestPhase} (h : c.Placed hosts) (hc : c.phase ≠ .idle)
    (hphase : phase.hostRole ≠ .away → c.phase.hostRole ≠ .away) :
    (c.moved phase).Placed hosts :=
  ⟨fun _ ↦ h.busy hc, fun host hrole hkey ↦ h.present host (hphase hrole) hkey⟩

end

section

variable {ι : Type} [DecidableEq ι] {callers : ι → Caller} {t : ι} {c : Caller}

/-- The roles after one thread has moved. -/
theorem comp_update {role : Caller → Role} :
    role ∘ Function.update callers t c = Function.update (role ∘ callers) t (role c) :=
  Function.comp_update role callers t c

/-- A thread that keeps its role changes nothing for a semaphore. -/
theorem comp_update_same {role : Caller → Role} (h : role c = role (callers t)) :
    role ∘ Function.update callers t c = role ∘ callers := by
  rw [comp_update, h]
  exact Function.update_eq_self t (role ∘ callers)

theorem placed_update {hosts : String → Option Semaphore} (h : ∀ u, (callers u).Placed hosts)
    (hc : c.Placed hosts) (u : ι) : (Function.update callers t c u).Placed hosts := by
  by_cases hu : u = t
  · subst hu
    rwa [Function.update_self]
  · rw [Function.update_of_ne hu]
    exact h u

end

theorem balanced_new {ι : Type} [Fintype ι] (requests : ι → List HttpRequest) :
    Balanced (LimitedTransport.new requests) where
  global_max := rfl
  global := Semaphore.sound_new 8 fun _ ↦ rfl
  host_max _ := rfl
  host _ := Semaphore.sound_new 2 fun _ ↦ Caller.hostRole_of_away rfl
  placed _ := ⟨fun h ↦ absurd rfl h, fun _ h ↦ absurd rfl h⟩

/-- A thread in `execute` is at a request for some host. -/
theorem Balanced.exists_key {ι : Type} [Fintype ι] {s : LimitedTransport ι} (h : Balanced s)
    {t : ι} (hphase : (s.callers t).phase ≠ .idle) : ∃ host, (s.callers t).key = some host := by
  cases hrequests : (s.callers t).requests with
  | nil => exact absurd hrequests ((h.placed t).busy hphase)
  | cons r rest => exact ⟨_, by rw [Caller.key, hrequests]; rfl⟩

namespace Balanced

variable {ι : Type} [Fintype ι] [DecidableEq ι] {s t : LimitedTransport ι} {u : ι}
  (h : Balanced s)
include h

/-- A thread moves on at the global semaphore. -/
theorem moveGlobal {phase : RequestPhase} {global : Semaphore} (hmax : global.max = 8)
    (hglobal : global.Sound (Function.update (Caller.globalRole ∘ s.callers) u
      ((s.callers u).moved phase).globalRole))
    (hhost : phase.hostRole = (s.callers u).phase.hostRole)
    (hplaced : ((s.callers u).moved phase).Placed s.hosts) :
    Balanced { s.move u phase with global := global } where
  global_max := hmax
  global := by
    show global.Sound (Caller.globalRole ∘ Function.update _ _ _)
    rwa [comp_update]
  host_max := h.host_max
  host g := by
    show (s.host g).Sound (Caller.hostRole g ∘ Function.update _ _ _)
    rw [comp_update_same (Caller.hostRole_moved hhost)]
    exact h.host g
  placed := placed_update h.placed hplaced

/-- A thread moves on at the semaphore of its host. -/
theorem moveHost {phase : RequestPhase} {host : String} {semaphore : Semaphore}
    (hkey : (s.callers u).key = some host) (hmax : semaphore.max = 2)
    (hglobal : ((s.callers u).moved phase).globalRole = (s.callers u).globalRole)
    (hhost : semaphore.Sound
      (Function.update (Caller.hostRole host ∘ s.callers) u phase.hostRole))
    (hbusy : (s.callers u).requests ≠ []) :
    Balanced { s.move u phase with
      hosts := Function.update s.hosts host (some semaphore) } where
  global_max := h.global_max
  global := by
    show s.global.Sound (Caller.globalRole ∘ Function.update _ _ _)
    rw [comp_update_same hglobal]
    exact h.global
  host_max g := by
    show ((Function.update s.hosts host (some semaphore) g).getD (Semaphore.new 2)).max = 2
    rw [LimitedTransport.host_replaced]
    split
    · exact hmax
    · exact h.host_max g
  host g := by
    show Sound ((Function.update s.hosts host (some semaphore) g).getD (Semaphore.new 2))
      (Caller.hostRole g ∘ Function.update _ _ _)
    rw [LimitedTransport.host_replaced]
    split
    · rename_i hg
      subst hg
      rwa [comp_update, Caller.hostRole_moved_of_key hkey]
    · rename_i hg
      have hne : (s.callers u).key ≠ some g := by
        rw [hkey]
        exact fun heq ↦ hg (Option.some.inj heq).symm
      rw [comp_update_same (Caller.hostRole_moved_of_ne hne)]
      exact h.host g
  placed := placed_update (fun v ↦ (h.placed v).replace semaphore)
    (Caller.placed_replaced semaphore (fun _ ↦ hbusy) hkey)

/-- Any thread that wakes up tests again. -/
theorem wake (hstep : s.wake u = some t) : Balanced t := by
  unfold LimitedTransport.wake at hstep
  cases hphase : (s.callers u).phase with
  | acquiringGlobal asleep =>
    cases asleep with
    | false => simp [hphase] at hstep
    | true =>
      simp only [hphase, Option.some.injEq] at hstep
      subst hstep
      apply h.moveGlobal h.global_max
      · exact h.global.stir (by simp [Caller.globalRole, hphase])
      · rw [hphase]
        rfl
      · exact (h.placed u).moved (by simp [hphase]) fun hne ↦ absurd rfl hne
  | acquiringHost asleep =>
    cases asleep with
    | false => simp [hphase] at hstep
    | true =>
      simp only [hphase, Option.some.injEq] at hstep
      subst hstep
      have hrole : (s.callers u).phase.hostRole = .asleep := by rw [hphase]; rfl
      have hbusy := (h.placed u).busy (by simp [hphase])
      obtain ⟨host, hkey⟩ := h.exists_key (by simp [hphase] : (s.callers u).phase ≠ .idle)
      obtain ⟨semaphore, hsem⟩ := Option.isSome_iff_exists.mp
        ((h.placed u).present host (by rw [hrole]; decide) hkey)
      rw [LimitedTransport.move_eq s u _ hsem]
      apply h.moveHost hkey _ (by simp [Caller.globalRole, hphase]) _ hbusy
      · rw [← s.host_eq hsem]
        exact h.host_max host
      · rw [← s.host_eq hsem]
        exact (h.host host).stir ((Caller.hostRole_of_key hkey).trans hrole)
  | _ => simp [hphase] at hstep

/-- A permit of a host is given back. -/
theorem dropHost {outcome : Outcome} {host : String} {semaphore : Semaphore} {woken : Option ι}
    (hphase : (s.callers u).phase = .droppingHost outcome) (hkey : (s.callers u).key = some host)
    (hsem : s.hosts host = some semaphore)
    (hstep : { s.move u (.droppingGlobal outcome) with
      hosts := Function.update s.hosts host (some semaphore.release) }.notifyOne
        (Caller.hostRole host) woken = some t) : Balanced t := by
  have hbusy := (h.placed u).busy (by simp [hphase])
  have hmax := h.host_max host
  have hsound := h.host host
  rw [s.host_eq hsem] at hmax hsound
  have hholding : Caller.hostRole host (s.callers u) = .holding := by
    rw [Caller.hostRole_of_key hkey, hphase]
    rfl
  have hglobal : ((s.callers u).moved (.droppingGlobal outcome)).globalRole =
      (s.callers u).globalRole := by simp [Caller.globalRole, hphase]
  cases woken with
  | none =>
    simp only [LimitedTransport.notifyOne, Option.ite_none_right_eq_some,
      Option.some.injEq] at hstep
    obtain ⟨hnone, rfl⟩ := hstep
    apply h.moveHost hkey (show semaphore.release.max = 2 from hmax) hglobal
      (hsound.leave hholding fun w hw ↦ ?_) hbusy
    have hwu : w ≠ u := by
      rintro rfl
      exact absurd (hholding.symm.trans hw) (by decide)
    apply hnone w
    show Caller.hostRole host (Function.update s.callers u _ w) = .asleep
    rwa [Function.update_of_ne hwu]
  | some w =>
    simp only [LimitedTransport.notifyOne, Option.ite_none_right_eq_some] at hstep
    obtain ⟨hw, hstep⟩ := hstep
    have hwu : w ≠ u := by
      rintro rfl
      simp only [LimitedTransport.move, Function.update_self] at hw
      rw [Caller.hostRole_of_away rfl] at hw
      cases hw
    simp only [LimitedTransport.move, Function.update_of_ne hwu] at hw
    obtain ⟨hwphase, hwkey⟩ := Caller.asleep_of_hostRole hw
    simp only [LimitedTransport.wake, LimitedTransport.move, Function.update_of_ne hwu, hwphase,
      Option.some.injEq] at hstep
    subst hstep
    exact {
      global_max := h.global_max
      global := by
        show s.global.Sound (Caller.globalRole ∘ Function.update (Function.update _ _ _) _ _)
        rw [comp_update_same, comp_update_same hglobal]
        · exact h.global
        · rw [Function.update_of_ne hwu]
          simp [Caller.globalRole, hwphase]
      host_max := fun g ↦ by
        show ((Function.update s.hosts host _ g).getD (Semaphore.new 2)).max = 2
        rw [LimitedTransport.host_replaced]
        split
        · exact hmax
        · exact h.host_max g
      host := fun g ↦ by
        show Sound ((Function.update s.hosts host _ g).getD (Semaphore.new 2))
          (Caller.hostRole g ∘ Function.update (Function.update _ _ _) _ _)
        rw [LimitedTransport.host_replaced]
        split
        · rename_i hg
          subst hg
          rw [comp_update, comp_update, Caller.hostRole_moved_of_key hkey,
            Caller.hostRole_moved_of_key hwkey]
          exact hsound.leave_waking hholding hw
        · rename_i hg
          have hne : ∀ {c : Caller}, c.key = some host → c.key ≠ some g := fun hc heq ↦
            hg (Option.some.inj (heq.symm.trans hc))
          rw [comp_update_same, comp_update_same (Caller.hostRole_moved_of_ne (hne hkey))]
          · exact h.host g
          · rw [Function.update_of_ne hwu]
            exact Caller.hostRole_moved_of_ne (hne hwkey)
      placed := placed_update
        (placed_update (fun v ↦ (h.placed v).replace semaphore.release)
          (Caller.placed_replaced semaphore.release (fun _ ↦ hbusy) hkey))
        (Caller.placed_replaced semaphore.release
          (fun _ ↦ (h.placed w).busy (by simp [hwphase])) hwkey) }

/-- A global permit is given back. -/
theorem dropGlobal {outcome : Outcome} {c : Caller} {woken : Option ι}
    (hphase : (s.callers u).phase = .droppingGlobal outcome) (hidle : c.phase = .idle)
    (hstep : { s with
      global := s.global.release
      callers := Function.update s.callers u c }.notifyOne Caller.globalRole woken = some t) :
    Balanced t := by
  have hholding : Caller.globalRole (s.callers u) = .holding := by
    simp [Caller.globalRole, hphase]
  have haway : Caller.globalRole c = .away := by simp [Caller.globalRole, hidle]
  have hhost : ∀ g, c.hostRole g = (s.callers u).hostRole g := fun g ↦ by
    rw [Caller.hostRole_of_away (by rw [hidle]; rfl),
      Caller.hostRole_of_away (by rw [hphase]; rfl)]
  have hplaced : c.Placed s.hosts :=
    ⟨fun hne ↦ absurd hidle hne, fun _ hne ↦ absurd (by rw [hidle]; rfl) hne⟩
  cases woken with
  | none =>
    simp only [LimitedTransport.notifyOne, Option.ite_none_right_eq_some,
      Option.some.injEq] at hstep
    obtain ⟨hnone, rfl⟩ := hstep
    exact {
      global_max := h.global_max
      global := by
        show s.global.release.Sound (Caller.globalRole ∘ Function.update _ _ _)
        rw [comp_update, haway]
        apply h.global.leave hholding
        intro w hw
        have hwu : w ≠ u := by
          rintro rfl
          exact absurd (hholding.symm.trans hw) (by decide)
        apply hnone w
        rwa [Function.update_of_ne hwu]
      host_max := h.host_max
      host := fun g ↦ by
        show (s.host g).Sound (Caller.hostRole g ∘ Function.update _ _ _)
        rw [comp_update_same (hhost g)]
        exact h.host g
      placed := placed_update h.placed hplaced }
  | some w =>
    simp only [LimitedTransport.notifyOne, Option.ite_none_right_eq_some] at hstep
    obtain ⟨hw, hstep⟩ := hstep
    have hwu : w ≠ u := by
      rintro rfl
      rw [Function.update_self, haway] at hw
      cases hw
    rw [Function.update_of_ne hwu] at hw
    have hwphase := Caller.asleep_of_globalRole hw
    simp only [LimitedTransport.wake, LimitedTransport.move, Function.update_of_ne hwu, hwphase,
      Option.some.injEq] at hstep
    subst hstep
    have hwhost : RequestPhase.hostRole (.acquiringGlobal false) =
        (s.callers w).phase.hostRole := by
      rw [hwphase]
      rfl
    exact {
      global_max := h.global_max
      global := by
        show s.global.release.Sound
          (Caller.globalRole ∘ Function.update (Function.update _ _ _) _ _)
        rw [comp_update, comp_update, haway]
        exact h.global.leave_waking hholding hw
      host_max := h.host_max
      host := fun g ↦ by
        show (s.host g).Sound (Caller.hostRole g ∘ Function.update (Function.update _ _ _) _ _)
        rw [comp_update_same, comp_update_same (hhost g)]
        · exact h.host g
        · rw [Function.update_of_ne hwu]
          exact Caller.hostRole_moved hwhost
      placed := placed_update (placed_update h.placed hplaced)
        ((h.placed w).moved (by simp [hwphase]) fun hne ↦ absurd rfl hne) }

theorem step {a : LimitAction ι} (hstep : s.step a = some t) : Balanced t := by
  cases a with
  | execute u =>
    simp only [LimitedTransport.step] at hstep
    split at hstep
    · rename_i r rest hphase hrequests
      rw [Option.some.injEq] at hstep
      subst hstep
      apply h.moveGlobal h.global_max (h.global.arrive (by simp [Caller.globalRole, hphase]))
      · rw [hphase]
        rfl
      · exact ⟨fun _ ↦ by simp [hrequests], fun _ hne ↦ absurd rfl hne⟩
    · cases hstep
  | acquireGlobal u =>
    simp only [LimitedTransport.step] at hstep
    split at hstep
    · rename_i hphase
      have hrole : Caller.globalRole (s.callers u) = .awake := by simp [Caller.globalRole, hphase]
      have hplaced : ∀ {phase : RequestPhase}, phase.hostRole = .away →
          ((s.callers u).moved phase).Placed s.hosts := fun haway ↦
        (h.placed u).moved (by simp [hphase]) fun hne ↦ absurd haway hne
      split at hstep <;> rw [Option.some.injEq] at hstep <;> subst hstep
      · rename_i hfull
        exact h.moveGlobal h.global_max (h.global.doze hrole hfull) (by rw [hphase]; rfl)
          (hplaced rfl)
      · rename_i hfree
        exact h.moveGlobal h.global_max (h.global.enter hrole (Nat.lt_of_not_le hfree))
          (by rw [hphase]; rfl) (hplaced rfl)
    · cases hstep
  | hostKey u =>
    simp only [LimitedTransport.step] at hstep
    split at hstep
    · rename_i host hphase hkey
      rw [Option.some.injEq] at hstep
      subst hstep
      apply h.moveHost hkey (h.host_max host) (by simp [Caller.globalRole, hphase]) _
        ((h.placed u).busy (by simp [hphase]))
      apply (h.host host).arrive
      exact Caller.hostRole_of_away (by rw [hphase]; rfl)
    · cases hstep
  | acquireHost u =>
    simp only [LimitedTransport.step] at hstep
    split at hstep
    · rename_i hphase
      simp only [Option.bind_eq_bind, Option.bind_eq_some_iff] at hstep
      obtain ⟨host, hkey, semaphore, hsem, hstep⟩ := hstep
      have hbusy := (h.placed u).busy (by simp [hphase])
      have hmax := h.host_max host
      have hsound := h.host host
      rw [s.host_eq hsem] at hmax hsound
      have hrole : Caller.hostRole host (s.callers u) = .awake := by
        rw [Caller.hostRole_of_key hkey, hphase]
        rfl
      split at hstep <;> rw [Option.some.injEq] at hstep <;> subst hstep
      · rename_i hfull
        rw [LimitedTransport.move_eq s u _ hsem]
        exact h.moveHost hkey hmax (by simp [Caller.globalRole, hphase]) (hsound.doze hrole hfull)
          hbusy
      · rename_i hfree
        exact h.moveHost hkey (show semaphore.acquire.max = 2 from hmax)
          (by simp [Caller.globalRole, hphase]) (hsound.enter hrole (Nat.lt_of_not_le hfree)) hbusy
    · cases hstep
  | respond u outcome =>
    simp only [LimitedTransport.step] at hstep
    split at hstep
    · rename_i hphase
      rw [Option.some.injEq] at hstep
      subst hstep
      apply h.moveGlobal h.global_max
      · have hsame : ((s.callers u).moved (.droppingHost outcome)).globalRole =
            (s.callers u).globalRole := by simp [Caller.globalRole, hphase]
        rw [← comp_update, comp_update_same hsame]
        exact h.global
      · rw [hphase]
        rfl
      · apply (h.placed u).moved (by simp [hphase])
        simp [hphase, RequestPhase.hostRole]
    · cases hstep
  | dropHost u woken =>
    simp only [LimitedTransport.step] at hstep
    split at hstep
    · rename_i outcome hphase
      simp only [Option.bind_eq_bind, Option.bind_eq_some_iff] at hstep
      obtain ⟨host, hkey, semaphore, hsem, hstep⟩ := hstep
      exact h.dropHost hphase hkey hsem hstep
    · cases hstep
  | dropGlobal u woken =>
    simp only [LimitedTransport.step] at hstep
    split at hstep
    · rename_i outcome hphase
      exact h.dropGlobal hphase rfl hstep
    · cases hstep
  | wake u => exact h.wake hstep

end Balanced

theorem balanced_run {ι : Type} [Fintype ι] [DecidableEq ι] {requests : ι → List HttpRequest}
    {actions : List (LimitAction ι)} {s : LimitedTransport ι}
    (hrun : (limiting ι).run (LimitedTransport.new requests) actions = some s) : Balanced s :=
  Machine.run_invariant (balanced_new requests) (fun h hstep ↦ h.step hstep) hrun

end Daku.Http
