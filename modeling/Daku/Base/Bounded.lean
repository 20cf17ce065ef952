import Std.Data.ExtTreeMap
import Mathlib.Order.Nat
import Mathlib.Data.List.Perm.Subperm

/-!
# Maps that forget their smallest keys

A map of numbered entries is kept to a number of entries by dropping its smallest keys. What is
left was there before, and an entry stays while there are few enough larger keys.
-/

namespace Daku.Base.Bounded

variable {β : Type} {m : Std.ExtTreeMap Nat β}

/-- Drop the entry with the smallest key. -/
def popFirst (m : Std.ExtTreeMap Nat β) : Std.ExtTreeMap Nat β :=
  match m.toList with
  | [] => m
  | (key, _) :: _ => m.erase key

/-- Drop smallest keys, at most `fuel` of them, while there are more than `bound`. -/
def capped (bound : Nat) : Nat → Std.ExtTreeMap Nat β → Std.ExtTreeMap Nat β
  | 0, m => m
  | fuel + 1, m => if bound < m.size then capped bound fuel (popFirst m) else m

/-- A map has no more entries than keys it can have. -/
theorem size_le_length {keys : List Nat} (h : ∀ k ∈ m, k ∈ keys) : m.size ≤ keys.length := by
  rw [← Std.ExtTreeMap.length_keys]
  refine (List.Nodup.subperm Std.ExtTreeMap.nodup_keys fun k hk ↦ ?_).length_le
  exact h k (Std.ExtTreeMap.mem_keys.mp hk)

/-- The smallest key is dropped. -/
theorem popFirst_eq (h : 0 < m.size) :
    ∃ key, key ∈ m ∧ (∀ k ∈ m, key ≤ k) ∧ popFirst m = m.erase key := by
  rw [popFirst]
  cases hlist : m.toList with
  | nil =>
    rw [← Std.ExtTreeMap.length_toList, hlist] at h
    exact absurd h (Nat.lt_irrefl 0)
  | cons entry rest =>
    obtain ⟨key, v⟩ := entry
    have hsome : ∀ {k : Nat}, k ∈ m → ∃ w, (k, w) ∈ (key, v) :: rest := by
      intro k hk
      rw [Std.ExtTreeMap.mem_iff_isSome_getElem?, Option.isSome_iff_exists] at hk
      obtain ⟨w, hw⟩ := hk
      exact ⟨w, hlist ▸ Std.ExtTreeMap.mem_toList_iff_getElem?_eq_some.mpr hw⟩
    have hsorted : ((key, v) :: rest).Pairwise fun a b ↦ compare a.1 b.1 = .lt :=
      hlist ▸ Std.ExtTreeMap.ordered_keys_toList
    refine ⟨key, ?_, fun k hk ↦ ?_, rfl⟩
    · rw [Std.ExtTreeMap.mem_iff_isSome_getElem?, Option.isSome_iff_exists]
      exact ⟨v, Std.ExtTreeMap.mem_toList_iff_getElem?_eq_some.mp (hlist ▸ List.mem_cons_self)⟩
    · obtain ⟨w, hw⟩ := hsome hk
      rcases List.mem_cons.mp hw with heq | hrest
      · exact (Prod.mk.inj heq).1.ge
      · exact (compare_lt_iff_lt.mp ((List.pairwise_cons.mp hsorted).1 _ hrest)).le

/-- A small map is left alone. -/
theorem capped_of_size_le {bound fuel : Nat} (h : m.size ≤ bound) : capped bound fuel m = m := by
  cases fuel with
  | zero => rfl
  | succ fuel => rw [capped, if_neg (Nat.not_lt.mpr h)]

/-- What is left was there before. -/
theorem getElem?_of_capped {bound fuel key : Nat} {v : β}
    (h : (capped bound fuel m)[key]? = some v) : m[key]? = some v := by
  induction fuel generalizing m with
  | zero => exact h
  | succ fuel ih =>
    rw [capped] at h
    split at h
    · next hbig =>
      obtain ⟨k, -, -, hpop⟩ := popFirst_eq (Nat.zero_lt_of_lt hbig)
      have hleft := ih h
      rw [hpop, Std.ExtTreeMap.getElem?_erase] at hleft
      split at hleft
      · cases hleft
      · exact hleft
    · exact h

/-- The number of entries with a larger key. -/
def larger (m : Std.ExtTreeMap Nat β) (key : Nat) : Nat := (m.keys.filter (key < ·)).length

theorem larger_le_size (m : Std.ExtTreeMap Nat β) (key : Nat) : larger m key ≤ m.size := by
  rw [← Std.ExtTreeMap.length_keys]
  exact List.length_filter_le _ _

/-- Dropping an entry leaves no more entries with a larger key. -/
theorem larger_erase_le (m : Std.ExtTreeMap Nat β) (k key : Nat) :
    larger (m.erase k) key ≤ larger m key := by
  apply List.Subperm.length_le
  apply List.Nodup.subperm
  · exact Std.ExtTreeMap.nodup_keys.filter _
  · intro j hj
    rw [List.mem_filter] at hj ⊢
    exact ⟨Std.ExtTreeMap.mem_keys.mpr
      (Std.ExtTreeMap.mem_of_mem_erase (Std.ExtTreeMap.mem_keys.mp hj.1)), hj.2⟩

/-- An entry is not larger than itself. -/
theorem larger_insert_self_le (m : Std.ExtTreeMap Nat β) (key : Nat) (v : β) :
    larger (m.insert key v) key ≤ larger m key := by
  apply List.Subperm.length_le
  apply List.Nodup.subperm
  · exact Std.ExtTreeMap.nodup_keys.filter _
  · intro j hj
    rw [List.mem_filter, Std.ExtTreeMap.mem_keys, Std.ExtTreeMap.mem_insert] at hj
    rw [List.mem_filter, Std.ExtTreeMap.mem_keys]
    refine ⟨hj.1.resolve_left fun heq ↦ ?_, hj.2⟩
    rw [Std.LawfulEqOrd.eq_of_compare heq, decide_eq_true_eq] at hj
    exact Nat.lt_irrefl _ hj.2

/-- An entry with few larger keys stays. -/
theorem getElem?_capped_of_larger_lt {bound fuel key : Nat} (hmem : key ∈ m)
    (hfew : larger m key < bound) : (capped bound fuel m)[key]? = m[key]? := by
  induction fuel generalizing m with
  | zero => rfl
  | succ fuel ih =>
    rw [capped]
    split
    · next hbig =>
      obtain ⟨k, hk, hleast, hpop⟩ := popFirst_eq (Nat.zero_lt_of_lt hbig)
      have hne : k ≠ key := by
        rintro rfl
        have hall : m.size ≤ (k :: m.keys.filter (k < ·)).length := size_le_length fun j hj ↦ by
          rcases Nat.eq_or_lt_of_le (hleast j hj) with rfl | hlt
          · exact List.mem_cons_self
          · exact List.mem_cons_of_mem _
              (List.mem_filter.mpr ⟨Std.ExtTreeMap.mem_keys.mpr hj, decide_eq_true hlt⟩)
        rw [List.length_cons] at hall
        unfold larger at hfew
        omega
      have hcmp : compare k key ≠ .eq := fun h ↦ hne (Std.LawfulEqOrd.eq_of_compare h)
      have hkept : (m.erase k)[key]? = m[key]? := by
        rw [Std.ExtTreeMap.getElem?_erase, if_neg hcmp]
      rw [hpop, ih ?_ ((larger_erase_le m k key).trans_lt hfew), hkept]
      rw [Std.ExtTreeMap.mem_iff_isSome_getElem?, hkept, ← Std.ExtTreeMap.mem_iff_isSome_getElem?]
      exact hmem
    · rfl

/-- The entry with the largest key stays. -/
theorem getElem?_capped_of_forall_le {bound fuel key : Nat} (hbound : 0 < bound)
    (hmem : key ∈ m) (hlargest : ∀ k ∈ m, k ≤ key) :
    (capped bound fuel m)[key]? = m[key]? := by
  apply getElem?_capped_of_larger_lt hmem
  have hnone : m.keys.filter (key < ·) = [] := by
    rw [List.filter_eq_nil_iff]
    intro k hk
    have := hlargest k (Std.ExtTreeMap.mem_keys.mp hk)
    simpa using this
  rwa [larger, hnone]

end Daku.Base.Bounded
