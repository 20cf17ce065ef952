import Mathlib.Data.List.Sort

/-!
# Bounded selections of the newest rows

`ORDER BY key DESC LIMIT n` over a table whose index is scanned backwards: larger keys first
and, among equal keys, the row inserted last first. Rows are listed in insertion order.
-/

namespace Daku.Base

variable {α : Type}

/-- Rows with the largest keys first; among equal keys the last inserted row comes first. -/
def newestFirst (key : α → Int) (rows : List α) : List α :=
  rows.reverse.insertionSort fun a b ↦ key b ≤ key a

/-- The `n` newest rows, newest first. -/
def newest (key : α → Int) (n : Nat) (rows : List α) : List α :=
  (newestFirst key rows).take n

/-- Rows by ascending key, equal keys in the given order. -/
def oldestFirst (key : α → Int) (rows : List α) : List α :=
  rows.insertionSort fun a b ↦ key a ≤ key b

@[simp] theorem mem_newestFirst {key : α → Int} {rows : List α} {a : α} :
    a ∈ newestFirst key rows ↔ a ∈ rows := by
  simp [newestFirst, List.mem_insertionSort]

@[simp] theorem length_newestFirst (key : α → Int) (rows : List α) :
    (newestFirst key rows).length = rows.length := by
  simp [newestFirst, List.length_insertionSort]

@[simp] theorem mem_oldestFirst {key : α → Int} {rows : List α} {a : α} :
    a ∈ oldestFirst key rows ↔ a ∈ rows := by
  simp [oldestFirst, List.mem_insertionSort]

/-- A selection takes its rows from the table. -/
theorem mem_of_mem_newest {key : α → Int} {n : Nat} {rows : List α} {a : α}
    (h : a ∈ newest key n rows) : a ∈ rows :=
  mem_newestFirst.mp (List.mem_of_mem_take h)

theorem pairwise_oldestFirst (key : α → Int) (rows : List α) :
    (oldestFirst key rows).Pairwise fun a b ↦ key a ≤ key b :=
  List.pairwise_insertionSort (fun a b ↦ key a ≤ key b) rows

theorem perm_oldestFirst (key : α → Int) (rows : List α) : (oldestFirst key rows).Perm rows :=
  List.perm_insertionSort _ rows

/-- Dropping the oldest rows down to `n` keeps every row from a bound on, if at most `n` rows
are from that bound on. -/
theorem mem_drop_oldestFirst {key : α → Int} {rows : List α} {bound : Int} {n : Nat} {a : α}
    (ha : a ∈ rows) (hkey : bound ≤ key a)
    (hcount : (rows.filter fun r ↦ bound ≤ key r).length ≤ n) :
    a ∈ (oldestFirst key rows).drop (rows.length - n) := by
  by_contra hdropped
  have hlen := (perm_oldestFirst key rows).length_eq
  have hsplit := List.take_append_drop (rows.length - n) (oldestFirst key rows)
  have htaken : a ∈ (oldestFirst key rows).take (rows.length - n) := by
    have hmem : a ∈ oldestFirst key rows := mem_oldestFirst.mpr ha
    rw [← hsplit] at hmem
    exact (List.mem_append.mp hmem).resolve_right hdropped
  -- What is kept comes after `a`, so it is from the bound on as well.
  have hkept : ∀ b ∈ (oldestFirst key rows).drop (rows.length - n), bound ≤ key b := by
    have hsorted := pairwise_oldestFirst key rows
    rw [← hsplit] at hsorted
    exact fun b hb ↦ hkey.trans ((List.pairwise_append.mp hsorted).2.2 a htaken b hb)
  have hfilter := ((perm_oldestFirst key rows).filter fun r ↦ bound ≤ key r).length_eq
  rw [← hsplit, List.filter_append, List.length_append,
    List.filter_eq_self.mpr fun b hb ↦ decide_eq_true (hkept b hb), List.length_drop,
    hlen] at hfilter
  have hpos : 0 < (((oldestFirst key rows).take (rows.length - n)).filter
      fun r ↦ bound ≤ key r).length :=
    List.length_pos_of_mem (List.mem_filter.mpr ⟨htaken, by simpa using hkey⟩)
  have hshort : rows.length - n ≠ 0 := by
    intro hzero
    rw [hzero, List.take_zero] at htaken
    cases htaken
  omega

end Daku.Base
