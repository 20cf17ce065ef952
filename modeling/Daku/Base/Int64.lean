import Mathlib.Order.MinMax
import Mathlib.Tactic.Linarith

/-!
# Saturating signed 64-bit arithmetic

Timestamps and streak counters are `i64` in the source and are carried here as integers.
Only the saturating operations can tell the two apart, so only they name the bounds.
-/

namespace Daku.Base

/-- Smallest `i64`. -/
def i64Min : Int := -9223372036854775808

/-- Largest `i64`. -/
def i64Max : Int := 9223372036854775807

/-- Clamp an exact result into the `i64` range. -/
def clampI64 (x : Int) : Int := max i64Min (min i64Max x)

/-- What an `i64` operation makes of its exact result where it is not checked. -/
def wrapI64 (x : Int) : Int := x.bmod (2 ^ 64)

/-- `i64::saturating_add`. -/
def satAdd (a b : Int) : Int := clampI64 (a + b)

/-- `i64::saturating_sub`. -/
def satSub (a b : Int) : Int := clampI64 (a - b)

/-- `i64::saturating_mul`. -/
def satMul (a b : Int) : Int := clampI64 (a * b)

/-- A saturating difference exceeds no bound the exact one respects. -/
theorem satSub_le {a b c : Int} (h : a - b ≤ c) (hc : i64Min ≤ c) : satSub a b ≤ c :=
  max_le hc ((min_le_right _ _).trans h)

/-- A saturating increment lands on two only from one. -/
theorem satAdd_one_eq_two_iff (c : Int) : satAdd c 1 = 2 ↔ c = 1 := by
  simp only [satAdd, clampI64, i64Min, i64Max]
  omega

/-- A counter that is at least one stays at least two once incremented. -/
theorem two_le_satAdd_one {c : Int} (h : 1 ≤ c) : 2 ≤ satAdd c 1 := by
  simp only [satAdd, clampI64, i64Min, i64Max]
  omega

theorem wrapI64_of_mem {n : Int} (hmin : i64Min ≤ n) (hmax : n ≤ i64Max) : wrapI64 n = n := by
  apply Int.bmod_eq_of_le
  · simpa [i64Min] using hmin
  · simp only [i64Max] at hmax
    omega

end Daku.Base
