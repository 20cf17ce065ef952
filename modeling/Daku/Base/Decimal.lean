import Daku.Base.Text

/-!
# Numbers in decimal digits

How numbers are written, as `to_string` does and with zeros in front, and that the parsers of
`str` read them back.
-/

namespace Daku.Base

/-- The digits of a number, with zeros in front up to a width. -/
def padded (width n : ℕ) : List Char :=
  List.replicate (width - (Nat.toDigits 10 n).length) '0' ++ Nat.toDigits 10 n

theorem digitsValue_eq (cs : List Char) :
    digitsValue cs =
      if cs ≠ [] ∧ cs.all Char.isDigit then some (Nat.ofDigitChars 10 cs 0) else none := by
  rw [digitsValue, Nat.ofDigitChars_eq_foldl]
  rfl

section Digits

variable {width n : ℕ}

theorem isDigit_of_mem_toDigits {c : Char} (h : c ∈ Nat.toDigits 10 n) : c.isDigit :=
  Nat.isDigit_of_mem_toDigits (by omega) (by omega) h

theorem isDigit_of_mem_padded {c : Char} (h : c ∈ padded width n) : c.isDigit := by
  obtain hzero | hdigit := List.mem_append.mp h
  · rw [List.eq_of_mem_replicate hzero]
    rfl
  · exact isDigit_of_mem_toDigits hdigit

theorem padded_ne_nil : padded width n ≠ [] := by
  intro h
  exact Nat.toDigits_ne_nil (List.append_eq_nil_iff.mp h).2

/-- A list of digits is read as its value. -/
theorem digitsValue_of_isDigit {cs : List Char} (hne : cs ≠ []) (h : ∀ c ∈ cs, c.isDigit) :
    digitsValue cs = some (Nat.ofDigitChars 10 cs 0) := by
  rw [digitsValue_eq, if_pos ⟨hne, List.all_eq_true.mpr h⟩]

theorem digitsValue_toDigits (n : ℕ) : digitsValue (Nat.toDigits 10 n) = some n := by
  rw [digitsValue_of_isDigit Nat.toDigits_ne_nil fun _ ↦ isDigit_of_mem_toDigits,
    Nat.ofDigitChars_ten_toDigits]

/-- Zeros in front do not change what is read. -/
theorem digitsValue_padded (width n : ℕ) : digitsValue (padded width n) = some n := by
  rw [digitsValue_of_isDigit padded_ne_nil fun _ ↦ isDigit_of_mem_padded, padded,
    Nat.ofDigitChars_append, Nat.ofDigitChars_replicate_zero, Nat.mul_zero,
    Nat.ofDigitChars_ten_toDigits]

end Digits

/-- Digits are read without a sign. -/
theorem parseI64_ofList {cs : List Char} {n : ℕ} (h : digitsValue cs = some n) (hn : n < 2 ^ 63) :
    parseI64 (String.ofList cs) = some (n : Int) := by
  have hdigits := (digitsValue_eq_some h).2
  have hminus : ¬ '-'.isDigit := by decide
  have hplus : ¬ '+'.isDigit := by decide
  rw [parseI64, String.toList_ofList]
  split
  · exact absurd (hdigits _ List.mem_cons_self) hminus
  · exact absurd (hdigits _ List.mem_cons_self) hplus
  · have hkept : Option.filter (fun n ↦ decide (n < 2 ^ 63)) (some n) = some n :=
      Option.filter_some_pos (decide_eq_true hn)
    rw [h, hkept]
    rfl

/-- A number is read back from its digits. -/
theorem parseU64_toString {n : ℕ} (hn : n < 2 ^ 64) : parseU64 (toString n) = some n := by
  have hplus : ¬ '+'.isDigit := by decide
  have htext : (toString n).toList = Nat.toDigits 10 n := Nat.toList_repr
  rw [parseU64, htext]
  split
  · next rest hrest =>
    have hmem : '+' ∈ Nat.toDigits 10 n := hrest ▸ List.mem_cons_self
    exact absurd (isDigit_of_mem_toDigits hmem) hplus
  · rw [digitsValue_toDigits]
    have hkept : Option.filter (fun n ↦ decide (n < 2 ^ 64)) (some n) = some n :=
      Option.filter_some_pos (decide_eq_true hn)
    exact hkept

end Daku.Base
