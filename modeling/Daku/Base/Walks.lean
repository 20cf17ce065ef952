import Mathlib.Data.List.Dedup
import Mathlib.Data.List.Induction
import Mathlib.Logic.Function.Basic

/-!
# Maps of last records

A hash map collected from a list keeps the last record of a key and is walked in no particular
order: a walk lists every key once.
-/

namespace Daku.Base

variable {κ α : Type} [DecidableEq κ]

/-- The last record of each key. -/
def lastByKey (key : α → κ) (records : List α) : κ → Option α :=
  records.foldl (fun table record ↦ Function.update table (key record) (some record)) fun _ ↦ none

/-- The entries of a map, each of them once, in some order. -/
structure Walk (table : κ → Option α) where
  entries : List (κ × α)
  nodup : (entries.map Prod.fst).Nodup
  mem_iff : ∀ k a, (k, a) ∈ entries ↔ table k = some a

section LastByKey

variable {key : α → κ} {records records' : List α} {k : κ} {a : α}

theorem lastByKey_concat (records : List α) (a : α) :
    lastByKey key (records ++ [a]) =
      Function.update (lastByKey key records) (key a) (some a) := by
  rw [lastByKey, List.foldl_append]
  rfl

/-- What is found under a key has it. -/
theorem key_of_lastByKey (h : lastByKey key records k = some a) : key a = k := by
  induction records using List.reverseRecOn with
  | nil => cases h
  | append_singleton records b ih =>
    rw [lastByKey_concat] at h
    by_cases hk : k = key b
    · rw [hk, Function.update_self] at h
      rw [hk, Option.some.inj h]
    · rw [Function.update_of_ne hk] at h
      exact ih h

/-- What is found is a record. -/
theorem mem_of_lastByKey (h : lastByKey key records k = some a) : a ∈ records := by
  induction records using List.reverseRecOn with
  | nil => cases h
  | append_singleton records b ih =>
    rw [lastByKey_concat] at h
    by_cases hk : k = key b
    · rw [hk, Function.update_self] at h
      rw [Option.some.inj h]
      exact List.mem_append_right _ List.mem_cons_self
    · rw [Function.update_of_ne hk] at h
      exact List.mem_append_left _ (ih h)

/-- Without repeated keys every record is found. -/
theorem lastByKey_of_mem (hnodup : (records.map key).Nodup) (h : a ∈ records) :
    lastByKey key records (key a) = some a := by
  induction records using List.reverseRecOn with
  | nil => cases h
  | append_singleton records b ih =>
    rw [List.map_append, List.nodup_append] at hnodup
    rw [lastByKey_concat]
    obtain hmem | hlast := List.mem_append.mp h
    · have hne : key a ≠ key b := by
        apply hnodup.2.2 (key a) (List.mem_map_of_mem hmem)
        exact List.mem_singleton_self _
      rw [Function.update_of_ne hne]
      exact ih hnodup.1 hmem
    · rw [List.mem_singleton.mp hlast, Function.update_self]

/-- Without repeated keys the order of the records does not matter. -/
theorem lastByKey_perm (hnodup : (records.map key).Nodup) (h : records'.Perm records) :
    lastByKey key records' = lastByKey key records := by
  have hnodup' : (records'.map key).Nodup := (h.map key).nodup_iff.mpr hnodup
  funext k
  apply Option.ext
  intro a
  constructor
  · intro ha
    rw [← key_of_lastByKey ha]
    exact lastByKey_of_mem hnodup (h.mem_iff.mp (mem_of_lastByKey ha))
  · intro ha
    rw [← key_of_lastByKey ha]
    exact lastByKey_of_mem hnodup' (h.mem_iff.mpr (mem_of_lastByKey ha))

/-- The walk in the order of the list. -/
def Walk.inOrder (hnodup : (records.map key).Nodup) : Walk (lastByKey key records) where
  entries := records.map fun a ↦ (key a, a)
  nodup := by
    rw [List.map_map]
    exact hnodup
  mem_iff k a := by
    rw [List.mem_map]
    constructor
    · rintro ⟨b, hb, hpair⟩
      cases hpair
      exact lastByKey_of_mem hnodup hb
    · intro h
      exact ⟨a, mem_of_lastByKey h, by rw [key_of_lastByKey h]⟩

/-- The walk by keys, in the order of their last records. -/
def Walk.byKeys (key : α → κ) (records : List α) : Walk (lastByKey key records) where
  entries := (records.map key).dedup.filterMap fun k ↦
    (lastByKey key records k).map fun a ↦ (k, a)
  nodup := by
    rw [List.map_filterMap]
    refine (List.nodup_dedup _).filterMap fun k k' k'' hk hk' ↦ ?_
    obtain ⟨_, hpair, rfl⟩ := Option.map_eq_some_iff.mp hk
    obtain ⟨_, hpair', heq⟩ := Option.map_eq_some_iff.mp hk'
    obtain ⟨_, -, rfl⟩ := Option.map_eq_some_iff.mp hpair
    obtain ⟨_, -, rfl⟩ := Option.map_eq_some_iff.mp hpair'
    exact heq.symm
  mem_iff k a := by
    rw [List.mem_filterMap]
    constructor
    · rintro ⟨k', -, hpair⟩
      obtain ⟨_, hfound, heq⟩ := Option.map_eq_some_iff.mp hpair
      cases heq
      exact hfound
    · intro hfound
      refine ⟨k, List.mem_dedup.mpr ?_, by rw [hfound]; rfl⟩
      rw [← key_of_lastByKey hfound]
      exact List.mem_map_of_mem (mem_of_lastByKey hfound)

end LastByKey

end Daku.Base
