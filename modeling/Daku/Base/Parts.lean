import Std.Data.ExtTreeMap
import Mathlib.Data.List.Range
import Mathlib.Data.List.GetD
import Mathlib.Data.List.Nodup

/-!
# Numbered parts

A list is cut into parts that are numbered and collected in any order. As many parts as were cut
off are there exactly when all are, and then they read as the list.
-/

namespace Daku.Base

variable {α : Type}

/-- Parts by number. -/
abbrev Parts (α : Type) := Std.ExtTreeMap Nat (List α)

namespace Parts

/-- All items, part by part. -/
def items (p : Parts α) : List α := (p.toList.map Prod.snd).flatten

/-- The parts received so far of the parts of a list. -/
def collect (parts : List (List α)) (received : List Nat) : Parts α :=
  received.foldl (fun p i ↦ p.insert i (parts.getD i [])) ∅

variable {parts : List (List α)} {received : List Nat}

@[simp] theorem collect_nil (parts : List (List α)) : collect parts [] = ∅ := rfl

theorem collect_concat (parts : List (List α)) (received : List Nat) (i : Nat) :
    collect parts (received ++ [i]) = (collect parts received).insert i (parts.getD i []) := by
  rw [collect, List.foldl_append]
  rfl

theorem getElem?_collect (parts : List (List α)) (received : List Nat) (i : Nat) :
    (collect parts received)[i]? = if i ∈ received then some (parts.getD i []) else none := by
  induction received using List.reverseRecOn with
  | nil => simp
  | append_singleton received j ih =>
    rw [collect_concat, Std.ExtTreeMap.getElem?_insert, ih]
    by_cases hji : j = i
    · subst hji
      simp
    · have hcmp : compare j i ≠ .eq := fun h ↦ hji (Std.LawfulEqOrd.eq_of_compare h)
      simp [hcmp, Ne.symm hji]

theorem mem_collect {i : Nat} : i ∈ collect parts received ↔ i ∈ received := by
  rw [Std.ExtTreeMap.mem_iff_isSome_getElem?, getElem?_collect]
  split <;> simp [*]

/-- Different parts are counted once each. -/
theorem size_collect (h : received.Nodup) : (collect parts received).size = received.length := by
  induction received using List.reverseRecOn with
  | nil => simp
  | append_singleton received i ih =>
    rw [List.nodup_append] at h
    have hfresh : i ∉ collect parts received := by
      rw [mem_collect]
      exact fun hmem ↦ h.2.2 i hmem i (List.mem_singleton.mpr rfl) rfl
    rw [← Std.ExtTreeMap.contains_iff_mem] at hfresh
    rw [collect_concat, Std.ExtTreeMap.size_insert, if_neg hfresh, ih h.1, List.length_append,
      List.length_singleton]

/-- Once every part is there, they are in order. -/
theorem toList_collect (h : received.Perm (List.range parts.length)) :
    (collect parts received).toList = parts.zipIdx.map Prod.swap := by
  have hkeys : (parts.zipIdx.map Prod.swap).map Prod.fst = List.range parts.length := by
    rw [List.map_map, List.range_eq_range']
    exact List.zipIdx_map_snd 0 parts
  have hnumbered : (parts.zipIdx.map Prod.swap).Pairwise fun a b ↦ a.1 < b.1 := by
    rw [← List.pairwise_map (f := Prod.fst) (R := (· < ·)), hkeys]
    exact List.pairwise_lt_range
  have hordered : (collect parts received).toList.Pairwise fun a b ↦ a.1 < b.1 :=
    Std.ExtTreeMap.ordered_keys_toList.imp fun hlt ↦ compare_lt_iff_lt.mp hlt
  have hmem : ∀ a, a ∈ (collect parts received).toList ↔ a ∈ parts.zipIdx.map Prod.swap := by
    rintro ⟨i, items⟩
    rw [Std.ExtTreeMap.mem_toList_iff_getElem?_eq_some, getElem?_collect]
    simp only [h.mem_iff, List.mem_range, List.mem_map, Prod.exists,
      List.mem_zipIdx_iff_getElem?, Prod.swap_prod_mk, Prod.mk.injEq]
    constructor
    · intro hsome
      split at hsome
      · next hlt =>
        rw [List.getD_eq_getElem _ _ hlt, Option.some.injEq] at hsome
        exact ⟨items, i, by rw [List.getElem?_eq_getElem hlt, hsome], rfl, rfl⟩
      · cases hsome
    · rintro ⟨items, i, hget, rfl, rfl⟩
      obtain ⟨hlt, heq⟩ := List.getElem?_eq_some_iff.mp hget
      rw [if_pos hlt, List.getD_eq_getElem _ _ hlt, heq]
  have hne : ∀ {a b : Nat × List α}, a.1 < b.1 → a ≠ b := fun hlt heq ↦
    Nat.lt_irrefl _ (heq ▸ hlt)
  refine List.Perm.eq_of_pairwise ?_ hordered hnumbered ?_
  · exact fun a b _ _ hab hba ↦ absurd hab (Nat.lt_asymm hba)
  · exact (List.perm_ext_iff_of_nodup (hordered.imp hne) (hnumbered.imp hne)).mpr hmem

/-- Once every part is there, the items are those of the list. -/
theorem items_collect (h : received.Perm (List.range parts.length)) :
    (collect parts received).items = parts.flatten := by
  rw [items, toList_collect h, List.map_map]
  congr 1
  exact List.zipIdx_map_fst 0 parts

end Parts

end Daku.Base
