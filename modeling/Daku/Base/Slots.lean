import Mathlib.Data.List.Basic

/-!
# Slots

A list whose places are numbered for good: something is added at the end, or one place changes.
-/

namespace Daku.Base

variable {α : Type} {l : List α} {a b : α} {i j : ℕ}

/-- What stands at a place after a change is new there, or was there before. -/
theorem getElem?_set_cases (h : (l.set i a)[j]? = some b) :
    i = j ∧ b = a ∨ i ≠ j ∧ l[j]? = some b := by
  rw [List.getElem?_set] at h
  split at h
  · next hij =>
    split at h
    · exact Or.inl ⟨hij, (Option.some.inj h).symm⟩
    · cases h
  · next hij => exact Or.inr ⟨hij, h⟩

theorem getElem?_set_self_of {c : α} (h : l[i]? = some c) :
    (l.set i a)[i]? = some a := by
  rw [List.getElem?_set, if_pos rfl, if_pos (List.getElem?_eq_some_iff.mp h).1]

/-- What stands at a place after an addition was there before, or is the addition. -/
theorem getElem?_concat_cases (h : (l ++ [a])[j]? = some b) :
    l[j]? = some b ∨ j = l.length ∧ b = a := by
  by_cases hj : j < l.length
  · rw [List.getElem?_append_left hj] at h
    exact Or.inl h
  · have hlt := (List.getElem?_eq_some_iff.mp h).1
    rw [List.length_append, List.length_singleton] at hlt
    rw [List.getElem?_append_right (Nat.not_lt.mp hj)] at h
    exact Or.inr ⟨by omega, List.mem_singleton.mp (List.mem_of_getElem? h)⟩

theorem getElem?_concat_of (h : l[j]? = some b) : (l ++ [a])[j]? = some b := by
  rw [List.getElem?_append_left (List.getElem?_eq_some_iff.mp h).1, h]

end Daku.Base
