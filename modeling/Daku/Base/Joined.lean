import Mathlib.Algebra.BigOperators.Group.List.Basic
import Mathlib.Algebra.GroupWithZero.Nat
import Mathlib.Algebra.Order.BigOperators.Group.List
import Mathlib.Data.List.Perm.Basic
import Mathlib.Data.String.Basic

/-!
# Joined texts

Texts joined by a separator, in one go or in groups. The length of the whole tells a list of
texts from any part of it, in whatever order it was joined.
-/

namespace Daku.Base

variable {α : Type} {sep : String}

/-- The texts of one group, joined, if there are any. -/
def joinedPart (sep : String) (parts : List String) : List String :=
  if parts = [] then [] else [String.intercalate sep parts]

theorem joinedPart_eq_nil {parts : List String} : joinedPart sep parts = [] ↔ parts = [] := by
  rw [joinedPart]
  split <;> simp_all

/-- Joined groups are joined as all their texts are. -/
theorem intercalate_flatMap_joinedPart (f : α → List String) (as : List α) :
    String.intercalate sep (as.flatMap fun a ↦ joinedPart sep (f a)) =
      String.intercalate sep (as.flatMap f) := by
  induction as with
  | nil => rfl
  | cons a as ih =>
    rw [List.flatMap_cons, List.flatMap_cons, joinedPart]
    split
    · next hempty => rw [hempty, List.nil_append, List.nil_append, ih]
    · next hparts =>
      by_cases hrest : as.flatMap f = []
      · have hjoined : as.flatMap (fun a ↦ joinedPart sep (f a)) = [] := by
          rw [List.flatMap_eq_nil_iff] at hrest ⊢
          exact fun a ha ↦ joinedPart_eq_nil.mpr (hrest a ha)
        rw [hjoined, hrest, List.append_nil, List.append_nil, String.intercalate_singleton]
      · have hjoined : as.flatMap (fun a ↦ joinedPart sep (f a)) ≠ [] := by
          intro hjoined
          rw [List.flatMap_eq_nil_iff] at hjoined hrest
          exact hrest fun a ha ↦ joinedPart_eq_nil.mp (hjoined a ha)
        rw [String.intercalate_append_of_ne_nil (by simp) hjoined,
          String.intercalate_append_of_ne_nil hparts hrest, ih, String.intercalate_singleton]

/-- The length of joined texts, with a separator after each. -/
def joinedLength (sep : String) (parts : List String) : ℕ :=
  (parts.map fun part ↦ part.length + sep.length).sum

theorem length_intercalate {parts : List String} (h : parts ≠ []) :
    (String.intercalate sep parts).length + sep.length = joinedLength sep parts := by
  induction parts with
  | nil => exact absurd rfl h
  | cons part parts ih =>
    rw [joinedLength, List.map_cons, List.sum_cons]
    by_cases hparts : parts = []
    · rw [hparts, String.intercalate_singleton]
      rfl
    · rw [String.intercalate_cons_of_ne_nil hparts, String.length_append, String.length_append,
        Nat.add_assoc, ih hparts]
      rfl

/-- Some of the texts are not as long as all of them. -/
theorem eq_of_sublist_of_joinedLength (hsep : 0 < sep.length) {xs ys : List String}
    (h : xs.Sublist ys) (hlength : joinedLength sep xs = joinedLength sep ys) : xs = ys := by
  have hcons : ∀ (part : String) (parts : List String), joinedLength sep (part :: parts) =
      part.length + sep.length + joinedLength sep parts := fun _ _ ↦ List.sum_cons
  induction h with
  | slnil => rfl
  | cons part hsub ih =>
    have hle := (hsub.map fun part ↦ part.length + sep.length).sum_le_sum fun _ _ ↦ Nat.zero_le _
    rw [hcons] at hlength
    change joinedLength sep _ ≤ joinedLength sep _ at hle
    omega
  | cons_cons part hsub ih =>
    rw [hcons, hcons] at hlength
    rw [ih (by omega)]

/-- Joined in any order, a list is none of its parts. -/
theorem eq_of_intercalate_perm (hsep : 0 < sep.length) {xs ys parts : List String}
    (h : xs.Sublist ys) (hxs : xs ≠ []) (hparts : parts.Perm ys)
    (heq : String.intercalate sep xs = String.intercalate sep parts) : xs = ys := by
  have hne : parts ≠ [] := by
    rintro rfl
    rw [List.nil_perm.mp hparts] at h
    exact hxs (List.sublist_nil.mp h)
  apply eq_of_sublist_of_joinedLength hsep h
  have hsum : joinedLength sep parts = joinedLength sep ys := (hparts.map _).sum_eq
  rw [← hsum, ← length_intercalate hxs, ← length_intercalate hne, heq]

theorem sublist_flatMap {β : Type} {f g : α → List β} (h : ∀ a, (f a).Sublist (g a))
    (as : List α) : (as.flatMap f).Sublist (as.flatMap g) := by
  induction as with
  | nil => exact List.Sublist.refl _
  | cons a as ih => exact (h a).append ih

/-- Lists cut piece by piece are whole together exactly if each piece is. -/
theorem flatMap_eq_iff_of_sublist {β : Type} {f g : α → List β} (h : ∀ a, (f a).Sublist (g a))
    (as : List α) : as.flatMap f = as.flatMap g ↔ ∀ a ∈ as, f a = g a := by
  constructor
  · intro heq
    induction as with
    | nil => exact List.forall_mem_nil _
    | cons a as ih =>
      rw [List.flatMap_cons, List.flatMap_cons] at heq
      have hlength := congrArg List.length heq
      rw [List.length_append, List.length_append] at hlength
      have hhead := (h a).length_le
      have htail := (sublist_flatMap h as).length_le
      rw [List.forall_mem_cons]
      exact ⟨(h a).eq_of_length (by omega),
        ih ((sublist_flatMap h as).eq_of_length (by omega))⟩
  · intro heq
    exact List.flatMap_congr heq

end Daku.Base
