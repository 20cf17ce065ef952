import Mathlib.Algebra.BigOperators.Group.Finset.Piecewise
import Mathlib.Data.Fintype.Basic
import Mathlib.Logic.Function.Basic

/-!
# Counting semaphores

A counting semaphore with a condition variable, as its users see it: each user is away, about to
test the count, asleep, or holding a permit. The count is the number of holders, and nobody
sleeps while there are more free permits than users about to test.
-/

namespace Daku.Base

/-- A count of permits in use, and how many there are. -/
structure Semaphore where
  max : ℕ
  used : ℕ
  deriving DecidableEq

namespace Semaphore

/-- A semaphore nobody uses. -/
def new (max : ℕ) : Semaphore := ⟨max, 0⟩

/-- Take a permit. -/
def acquire (s : Semaphore) : Semaphore := { s with used := s.used + 1 }

/-- Give a permit back. -/
def release (s : Semaphore) : Semaphore := { s with used := s.used - 1 }

@[simp] theorem acquire_max (s : Semaphore) : s.acquire.max = s.max := rfl
@[simp] theorem release_max (s : Semaphore) : s.release.max = s.max := rfl
@[simp] theorem acquire_used (s : Semaphore) : s.acquire.used = s.used + 1 := rfl
@[simp] theorem release_used (s : Semaphore) : s.release.used = s.used - 1 := rfl

/-- Where a user of a semaphore stands. -/
inductive Role where
  | away
  | awake
  | asleep
  | holding
  deriving DecidableEq

variable {ι : Type} [Fintype ι] {s : Semaphore} {role : ι → Role} {t w : ι}

/-- How many users stand somewhere. -/
def count (role : ι → Role) (r : Role) : ℕ := ∑ u, if role u = r then 1 else 0

theorem count_eq_card (role : ι → Role) (r : Role) :
    count role r = (Finset.univ.filter fun u ↦ role u = r).card := by
  rw [count, Finset.card_filter]

theorem count_pos_iff {r : Role} : 0 < count role r ↔ ∃ u, role u = r := by
  rw [count_eq_card, Finset.card_pos]
  simp [Finset.Nonempty]

theorem count_eq_zero {r : Role} (h : ∀ u, role u ≠ r) : count role r = 0 :=
  Finset.sum_eq_zero fun u _ ↦ if_neg (h u)

/-- The count is right, within its bound, and no sleeper is forgotten. -/
structure Sound (s : Semaphore) (role : ι → Role) : Prop where
  used : s.used = count role .holding
  le_max : s.used ≤ s.max
  attended : count role .asleep = 0 ∨ s.max ≤ s.used + count role .awake

theorem sound_new (max : ℕ) (h : ∀ u, role u = .away) : Sound (new max) role := by
  have hnone : ∀ r, r ≠ .away → count role r = 0 := fun r hr ↦
    count_eq_zero fun u ↦ h u ▸ hr.symm
  exact ⟨(hnone .holding (by decide)).symm, Nat.zero_le max, Or.inl (hnone .asleep (by decide))⟩

namespace Sound

variable (h : Sound s role)
include h

/-- Nobody holds a permit of a semaphore whose users are all away. -/
theorem used_eq_zero (haway : ∀ u, role u ≠ .holding) : s.used = 0 := by
  rw [h.used, count_eq_zero haway]

/-- Where everybody sleeps that has come, all permits are held. -/
theorem max_le_used (hsleeper : role t = .asleep) (hnone : ∀ u, role u ≠ .awake) :
    s.max ≤ s.used := by
  have hpos : 0 < count role .asleep := count_pos_iff.mpr ⟨t, hsleeper⟩
  have hzero := count_eq_zero hnone
  have := h.attended
  omega

end Sound

variable [DecidableEq ι]

/-- One user moves: its old place loses one, its new place gains one. -/
theorem count_update (role : ι → Role) (t : ι) (new r : Role) :
    count (Function.update role t new) r + (if role t = r then 1 else 0) =
      count role r + (if new = r then 1 else 0) := by
  have hold := Finset.add_sum_erase Finset.univ (fun u ↦ if role u = r then 1 else 0)
    (Finset.mem_univ t)
  have hnew := Finset.add_sum_erase Finset.univ
    (fun u ↦ if Function.update role t new u = r then 1 else 0) (Finset.mem_univ t)
  have hrest : ∑ u ∈ Finset.univ.erase t, (if Function.update role t new u = r then 1 else 0) =
      ∑ u ∈ Finset.univ.erase t, if role u = r then 1 else 0 := by
    apply Finset.sum_congr rfl
    intro u hu
    rw [Function.update_of_ne (Finset.ne_of_mem_erase hu)]
  rw [hrest, Function.update_self] at hnew
  unfold count
  omega

namespace Sound

variable (h : Sound s role)
include h

/-- A user comes to the semaphore. -/
theorem arrive (ht : role t = .away) : Sound s (Function.update role t .awake) := by
  have hholding := count_update role t .awake .holding
  have hasleep := count_update role t .awake .asleep
  have hawake := count_update role t .awake .awake
  simp only [ht, reduceCtorEq, if_true, if_false] at hholding hasleep hawake
  refine ⟨?_, h.le_max, ?_⟩
  · have := h.used
    omega
  · have := h.attended
    omega

/-- A user takes a free permit. -/
theorem enter (ht : role t = .awake) (hfree : s.used < s.max) :
    Sound s.acquire (Function.update role t .holding) := by
  have hholding := count_update role t .holding .holding
  have hasleep := count_update role t .holding .asleep
  have hawake := count_update role t .holding .awake
  simp only [ht, reduceCtorEq, if_true, if_false] at hholding hasleep hawake
  have := h.used
  have := h.attended
  refine ⟨?_, hfree, ?_⟩ <;> simp only [acquire_used, acquire_max] <;> omega

/-- A user finds no free permit and goes to sleep. -/
theorem doze (ht : role t = .awake) (hfull : s.max ≤ s.used) :
    Sound s (Function.update role t .asleep) := by
  have hholding := count_update role t .asleep .holding
  simp only [ht, reduceCtorEq, if_false] at hholding
  have := h.used
  exact ⟨by omega, h.le_max, Or.inr (by omega)⟩

/-- A user wakes up. -/
theorem stir (ht : role t = .asleep) : Sound s (Function.update role t .awake) := by
  have hholding := count_update role t .awake .holding
  have hasleep := count_update role t .awake .asleep
  have hawake := count_update role t .awake .awake
  simp only [ht, reduceCtorEq, if_true, if_false] at hholding hasleep hawake
  have := h.used
  have := h.attended
  exact ⟨by omega, h.le_max, by omega⟩

/-- A user gives its permit back while nobody sleeps. -/
theorem leave (ht : role t = .holding) (hnone : ∀ u, role u ≠ .asleep) :
    Sound s.release (Function.update role t .away) := by
  have hholding := count_update role t .away .holding
  have hasleep := count_update role t .away .asleep
  simp only [ht, reduceCtorEq, if_true, if_false] at hholding hasleep
  have hzero := count_eq_zero hnone
  have := h.used
  have := h.le_max
  refine ⟨?_, ?_, Or.inl (by omega)⟩ <;> simp only [release_used, release_max] <;> omega

/-- A user gives its permit back and wakes another one. -/
theorem leave_waking (ht : role t = .holding) (hw : role w = .asleep) :
    Sound s.release (Function.update (Function.update role t .away) w .awake) := by
  have hne : w ≠ t := by
    rintro rfl
    rw [ht] at hw
    cases hw
  have hw' : Function.update role t .away w = .asleep := by rwa [Function.update_of_ne hne]
  have hholding := count_update role t .away .holding
  have hasleep := count_update role t .away .asleep
  have hawake := count_update role t .away .awake
  have hholding' := count_update (Function.update role t .away) w .awake .holding
  have hasleep' := count_update (Function.update role t .away) w .awake .asleep
  have hawake' := count_update (Function.update role t .away) w .awake .awake
  simp only [ht, reduceCtorEq, if_true, if_false] at hholding hasleep hawake
  simp only [hw', reduceCtorEq, if_true, if_false] at hholding' hasleep' hawake'
  have := h.used
  have := h.le_max
  have := h.attended
  refine ⟨?_, ?_, ?_⟩ <;> simp only [release_used, release_max] <;> omega

end Sound

end Semaphore

end Daku.Base
