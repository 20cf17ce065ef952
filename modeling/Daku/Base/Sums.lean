import Mathlib.Algebra.BigOperators.Group.List.Basic
import Mathlib.Algebra.GroupWithZero.Nat
import Mathlib.Tactic.Common

/-!
# Sums of unsigned 64-bit numbers

An addition that does not fit panics if overflow checks are on, and wraps around if they are off.
-/

namespace Daku.Base

/-- `+` of `u64`; nothing is a panic. -/
def addU64 (checks : Bool) (a b : ℕ) : Option ℕ :=
  if a + b < 2 ^ 64 then some (a + b)
  else if checks then none
  else some ((a + b) % 2 ^ 64)

/-- `Iterator::sum` of `u64`. -/
def sumU64 (checks : Bool) (counts : List ℕ) : Option ℕ := counts.foldlM (addU64 checks) 0

section Sums

variable {a b : ℕ}

theorem addU64_of_lt (h : a + b < 2 ^ 64) (checks : Bool) : addU64 checks a b = some (a + b) :=
  if_pos h

theorem addU64_checked (h : ¬ a + b < 2 ^ 64) : addU64 true a b = none := by
  rw [addU64, if_neg h, if_pos rfl]

theorem addU64_unchecked (a b : ℕ) : addU64 false a b = some ((a + b) % 2 ^ 64) := by
  rw [addU64]
  split
  · next h => rw [Nat.mod_eq_of_lt h]
  · exact if_neg Bool.false_ne_true

private theorem foldlM_addU64_of_lt (counts : List ℕ) (h : a + counts.sum < 2 ^ 64)
    (checks : Bool) : counts.foldlM (addU64 checks) a = some (a + counts.sum) := by
  induction counts generalizing a with
  | nil => rfl
  | cons n counts ih =>
    rw [List.sum_cons, ← add_assoc] at h
    rw [List.foldlM_cons, addU64_of_lt (by omega), Option.bind_eq_bind, Option.bind_some, ih h,
      List.sum_cons, add_assoc]

private theorem foldlM_addU64_checked (counts : List ℕ) {n : ℕ} (ha : a < 2 ^ 64)
    (h : counts.foldlM (addU64 true) a = some n) : a + counts.sum < 2 ^ 64 := by
  induction counts generalizing a with
  | nil => simpa using ha
  | cons m counts ih =>
    rw [List.foldlM_cons] at h
    by_cases hfits : a + m < 2 ^ 64
    · rw [addU64_of_lt hfits, Option.bind_eq_bind, Option.bind_some] at h
      rw [List.sum_cons, ← add_assoc]
      exact ih hfits h
    · rw [addU64_checked hfits] at h
      cases h

private theorem foldlM_addU64_unchecked (counts : List ℕ) :
    counts.foldlM (addU64 false) (a % 2 ^ 64) = some ((a + counts.sum) % 2 ^ 64) := by
  induction counts generalizing a with
  | nil => rfl
  | cons n counts ih =>
    rw [List.foldlM_cons, addU64_unchecked, Nat.mod_add_mod, Option.bind_eq_bind, Option.bind_some,
      ih, List.sum_cons, add_assoc]

/-- So is a sum exactly if the whole fits. -/
theorem sumU64_exact_iff {counts : List ℕ} :
    (∀ checks, sumU64 checks counts = some counts.sum) ↔ counts.sum < 2 ^ 64 := by
  constructor
  · intro h
    have hsum := foldlM_addU64_checked counts (Nat.two_pow_pos 64) (h true)
    rwa [zero_add] at hsum
  · intro h checks
    have hsum := foldlM_addU64_of_lt counts (by rwa [zero_add]) checks
    rwa [zero_add] at hsum

theorem sumU64_unchecked (counts : List ℕ) :
    sumU64 false counts = some (counts.sum % 2 ^ 64) := by
  have hsum := @foldlM_addU64_unchecked 0 counts
  rwa [zero_add] at hsum

/-- With checks a sum that does not fit is a panic. -/
theorem sumU64_checked {counts : List ℕ} (h : ¬ counts.sum < 2 ^ 64) :
    sumU64 true counts = none := by
  cases hsum : sumU64 true counts with
  | none => rfl
  | some n =>
    have hfits := foldlM_addU64_checked counts (Nat.two_pow_pos 64) hsum
    rw [zero_add] at hfits
    exact absurd hfits h

end Sums

end Daku.Base
