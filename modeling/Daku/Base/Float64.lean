import Daku.Base.Text
import Mathlib.Algebra.Order.Ring.Rat
import Mathlib.Data.Nat.Cast.Order.Ring
import Mathlib.Tactic.Common

/-!
# Double-precision numbers

The values of `f64` as exact rationals, rounding to nearest with ties to even, and
`str::parse::<f64>`, which reads the special values by name and overflows to infinity.
-/

namespace Daku.Base

/-- A value of `f64`; the two zeros are one. -/
inductive F64 where
  | finite (q : Rat)
  | infinite (negative : Bool)
  | nan
  deriving DecidableEq, Repr

/-- `n / d` to the nearest integer, ties to the even one. -/
def roundHalfEven (n d : Nat) : Nat :=
  if 2 * (n % d) < d ∨ (2 * (n % d) = d ∧ n / d % 2 = 0) then n / d else n / d + 1

/-- The largest `e` with `2 ^ e ≤ n / d`, for positive `n` and `d`. -/
def exponent (n d : Nat) : Int :=
  let e : Int := n.log2 - d.log2
  if d * 2 ^ e.toNat ≤ n * 2 ^ (-e).toNat then e else e - 1

/-- The magnitude `n / d` rounded to 53 bits, or fewer below `2 ^ -1022`. -/
def roundMagnitude (n d : Nat) : Rat :=
  -- One unit in the last place is `2 ^ unit`.
  let unit := max (exponent n d - 52) (-1074)
  roundHalfEven (n * 2 ^ (-unit).toNat) (d * 2 ^ unit.toNat) * 2 ^ unit.toNat / 2 ^ (-unit).toNat

/-- The `f64` nearest to a rational. -/
def toF64 (q : Rat) : F64 :=
  let magnitude := roundMagnitude q.num.natAbs q.den
  if q = 0 then .finite 0
  else if 2 ^ 1024 ≤ magnitude then .infinite (q < 0)
  else .finite (if q < 0 then -magnitude else magnitude)

/-- A number of at most 53 bits keeps its value. -/
theorem roundMagnitude_of_lt {n : Nat} (hpos : n ≠ 0) (h : n < 2 ^ 53) :
    roundMagnitude n 1 = n := by
  have hlog : n.log2 < 53 := (Nat.log2_lt hpos).mpr h
  have hexponent : exponent n 1 = n.log2 := by
    have hle : 1 * 2 ^ n.log2 ≤ n * 2 ^ 0 := by
      rw [one_mul, pow_zero, mul_one]
      exact Nat.log2_self_le hpos
    have hone : Nat.log2 1 = 0 := by decide
    simp only [exponent, hone, Int.natCast_zero, sub_zero, Int.toNat_natCast,
      Int.toNat_neg_natCast]
    exact if_pos hle
  obtain ⟨m, hunit⟩ : ∃ m : Nat, max (exponent n 1 - 52) (-1074) = -(m : Int) :=
    ⟨52 - n.log2, by omega⟩
  have hround : ∀ k : Nat, roundHalfEven k 1 = k := fun k ↦ by
    simp [roundHalfEven, Nat.mod_one]
  simp only [roundMagnitude, hunit, neg_neg, Int.toNat_natCast, Int.toNat_neg_natCast, pow_zero,
    mul_one, hround]
  push_cast
  exact mul_div_cancel_right₀ _ (pow_ne_zero m two_ne_zero)

/-- A whole number of at most 53 bits keeps its value. -/
theorem toF64_natCast {n : Nat} (h : n < 2 ^ 53) : toF64 n = .finite n := by
  obtain rfl | hpos := eq_or_ne n 0
  · rfl
  have hmagnitude : roundMagnitude (n : Rat).num.natAbs (n : Rat).den = n :=
    roundMagnitude_of_lt hpos h
  have hne : (n : Rat) ≠ 0 := Nat.cast_ne_zero.mpr hpos
  have hsmall : ¬ (2 : Rat) ^ 1024 ≤ n := by
    rw [not_le]
    exact_mod_cast h.trans (Nat.pow_lt_pow_right (by decide) (by decide))
  have hnonneg : ¬ (n : Rat) < 0 := not_lt.mpr (Nat.cast_nonneg n)
  simp only [toF64, hmagnitude, if_neg hne, if_neg hsmall, if_neg hnonneg]
namespace F64

/-- `is_finite`, with the value. -/
def toRat : F64 → Option Rat
  | finite q => some q
  | infinite _ => none
  | nan => none

/-- `>=` of `f64`; no comparison with a NaN holds. -/
def ge : F64 → F64 → Bool
  | nan, _ => false
  | _, nan => false
  | finite a, finite b => b ≤ a
  | infinite negative, infinite negative' => !negative || negative'
  | infinite negative, finite _ => !negative
  | finite _, infinite negative => negative

/-- `-` of `f64`. -/
def neg : F64 → F64
  | finite q => finite (-q)
  | infinite negative => infinite !negative
  | nan => nan

end F64

/-- The exponent of a decimal number, zero if there is none. -/
def decimalExponent : List Char → Option Int
  | [] => some 0
  | e :: rest =>
    if e = 'e' ∨ e = 'E' then
      match rest with
      | '-' :: digits => (digitsValue digits).map fun n ↦ -(n : Int)
      | '+' :: digits => (digitsValue digits).map Int.ofNat
      | digits => (digitsValue digits).map Int.ofNat
    else none

/-- An unsigned decimal number: digits with a point before, among or after them, then perhaps an
exponent. -/
def decimal (cs : List Char) : Option Rat := do
  let whole := cs.takeWhile Char.isDigit
  let (fraction, rest) := match cs.dropWhile Char.isDigit with
    | '.' :: rest => (rest.takeWhile Char.isDigit, rest.dropWhile Char.isDigit)
    | rest => ([], rest)
  let digits ← digitsValue (whole ++ fraction)
  let exponent ← decimalExponent rest
  let scale := exponent - fraction.length
  some (digits * 10 ^ scale.toNat / 10 ^ (-scale).toNat)

/-- `str::parse::<f64>` without the sign. -/
def parseUnsignedF64 (cs : List Char) : Option F64 :=
  let lower := cs.map Char.toLower
  if lower = ['i', 'n', 'f'] ∨ lower = ['i', 'n', 'f', 'i', 'n', 'i', 't', 'y'] then
    some (.infinite false)
  else if lower = ['n', 'a', 'n'] then some .nan
  else (decimal cs).map toF64

/-- `str::parse::<f64>`. -/
def parseF64 (s : String) : Option F64 :=
  match s.toList with
  | '-' :: cs => (parseUnsignedF64 cs).map F64.neg
  | '+' :: cs => parseUnsignedF64 cs
  | cs => parseUnsignedF64 cs

example : parseF64 "-12.50e1" = some (.finite (-125)) := by decide +kernel
example : parseF64 "0.1" = some (.finite (3602879701896397 / 2 ^ 55)) := by decide +kernel
example : parseF64 "1e309" = some (.infinite false) := by decide +kernel

end Daku.Base
