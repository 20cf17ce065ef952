import Daku.Base.Newest
import Mathlib.Tactic.Common

/-!
# Retention by age and by count

A log is pruned with two deletions: of its own rows those whose key is below a bound, and then
all but the `n` with the largest keys. Rows with equal keys may be listed in any order, also in
another one each time.
-/

namespace Daku.Base

variable {α : Type} {key : α → Int}

/-- `ORDER BY key DESC`: the largest keys first, and equal ones in any order. -/
structure Descending (key : α → Int) where
  sort : List α → List α
  perm : ∀ rows, (sort rows).Perm rows
  sorted : ∀ rows, (sort rows).Pairwise fun a b ↦ key b ≤ key a

/-- Among equal keys the row that was inserted last comes first. -/
def Descending.newestFirst (key : α → Int) : Descending key where
  sort := Daku.Base.newestFirst key
  perm rows := (List.perm_insertionSort _ rows.reverse).trans rows.reverse_perm
  sorted rows := List.pairwise_insertionSort (fun a b ↦ key b ≤ key a) rows.reverse

/-- `DELETE … WHERE`: how many rows are deleted, and the others. -/
def deleteWhere (p : α → Prop) [DecidablePred p] (rows : List α) : ℕ × List α :=
  ((rows.filter p).length, rows.filter fun r ↦ ¬ p r)

/-- Both deletions, with the number of rows that they delete. -/
def retain [DecidableEq α] (order : Descending key) (own : α → Prop) [DecidablePred own]
    (bound : Int) (n : ℕ) (rows : List α) : ℕ × List α :=
  let aged := deleteWhere (fun r ↦ own r ∧ key r < bound) rows
  let newest := (order.sort (aged.2.filter own)).take n
  let excess := deleteWhere (fun r ↦ own r ∧ r ∉ newest) aged.2
  (aged.1 + excess.1, excess.2)

/-- The rows that are kept: rows of others all, of the own ones from the bound on the `n` newest.
No row is changed or moved. -/
structure Retained (key : α → Int) (own : α → Prop) [DecidablePred own] (bound : Int) (n : ℕ)
    (rows kept : List α) : Prop where
  sublist : kept.Sublist rows
  others : kept.filter (fun r ↦ ¬ own r) = rows.filter fun r ↦ ¬ own r
  recent : ∀ r ∈ kept, own r → bound ≤ key r
  length : (kept.filter own).length =
    min n (rows.filter fun r ↦ own r ∧ bound ≤ key r).length
  newest : ∀ r ∈ rows, r ∉ kept → own r ∧ ∀ k ∈ kept, own k → key r ≤ key k

section Parts

variable {own other : α → Prop} [DecidablePred own] [DecidablePred other] {bound : Int} {n : ℕ}
  {rows kept : List α}

/-- A part that has no own row is kept as it is. -/
theorem Retained.filter_other (h : Retained key own bound n rows kept)
    (hother : ∀ r, other r → ¬ own r) : kept.filter other = rows.filter other := by
  have hpart : ∀ l : List α, l.filter other = (l.filter fun r ↦ ¬ own r).filter other := by
    intro l
    rw [List.filter_filter]
    apply List.filter_congr
    intro r _
    by_cases hr : other r
    · simp [hr, hother r hr]
    · simp [hr]
  rw [hpart kept, h.others, ← hpart rows]

/-- The own rows alone. -/
theorem Retained.filter_own (h : Retained key own bound n rows kept) :
    Retained key own bound n (rows.filter own) (kept.filter own) where
  sublist := h.sublist.filter own
  others := by
    have hnone : ∀ l : List α, (l.filter own).filter (fun r ↦ ¬ own r) = [] := by
      intro l
      rw [List.filter_eq_nil_iff]
      intro r hr
      simpa using (List.mem_filter.mp hr).2
    rw [hnone, hnone]
  recent r hr := h.recent r (List.mem_of_mem_filter hr)
  length := by
    rw [List.filter_filter, List.filter_filter]
    simp only [Bool.and_self]
    rw [h.length]
    congr 2
    apply List.filter_congr
    intro r _
    by_cases hr : own r <;> simp [hr]
  newest r hr hnot := by
    obtain ⟨hmem, hown⟩ := List.mem_filter.mp hr
    have hnot' : r ∉ kept := fun hk ↦ hnot (List.mem_filter.mpr ⟨hk, hown⟩)
    exact ⟨of_decide_eq_true hown, fun k hk ↦
      (h.newest r hmem hnot').2 k (List.mem_of_mem_filter hk)⟩

/-- Without rows there is nothing to keep. -/
theorem Retained.nil : Retained key own bound n [] [] where
  sublist := List.nil_sublist []
  others := rfl
  recent _ hr := absurd hr List.not_mem_nil
  length := (Nat.min_zero n).symm
  newest _ hr := absurd hr List.not_mem_nil

end Parts

/-- A row that is not among the first `n` has no larger key than one that is. -/
theorem Descending.le_of_mem_take (order : Descending key) {n : ℕ} {rows : List α} {a b : α}
    (ha : a ∈ (order.sort rows).take n) (hb : b ∈ rows) (hnot : b ∉ (order.sort rows).take n) :
    key b ≤ key a := by
  have hsplit := List.take_append_drop n (order.sort rows)
  have hsorted := order.sorted rows
  have hmem : b ∈ order.sort rows := (order.perm rows).mem_iff.mpr hb
  rw [← hsplit] at hsorted hmem
  have hdrop := (List.mem_append.mp hmem).resolve_left hnot
  exact (List.pairwise_append.mp hsorted).2.2 a ha b hdrop

theorem length_deleteWhere (p : α → Prop) [DecidablePred p] (rows : List α) :
    (deleteWhere p rows).1 + (deleteWhere p rows).2.length = rows.length := by
  simp only [deleteWhere, decide_not]
  exact (List.length_eq_length_filter_add fun r ↦ decide (p r)).symm

/-- Where nothing matches, nothing is deleted. -/
theorem deleteWhere_eq_self {p : α → Prop} [DecidablePred p] {rows : List α}
    (h : ∀ r ∈ rows, ¬ p r) : deleteWhere p rows = (0, rows) := by
  have hnone : rows.filter p = [] := List.filter_eq_nil_iff.mpr fun r hr ↦ by simp [h r hr]
  have hall : rows.filter (fun r ↦ ¬ p r) = rows :=
    List.filter_eq_self.mpr fun r hr ↦ by simp [h r hr]
  rw [deleteWhere, hnone, hall, List.length_nil]

/-- The own rows that are kept. -/
def newestOwn (order : Descending key) (own : α → Prop) [DecidablePred own] (bound : Int) (n : ℕ)
    (rows : List α) : List α :=
  (order.sort (rows.filter fun r ↦ own r ∧ bound ≤ key r)).take n

theorem mem_of_mem_newestOwn {order : Descending key} {own : α → Prop} [DecidablePred own]
    {bound : Int} {n : ℕ} {rows : List α} {r : α}
    (h : r ∈ newestOwn order own bound n rows) :
    r ∈ rows ∧ own r ∧ bound ≤ key r := by
  have hmem := (order.perm _).mem_iff.mp (List.mem_of_mem_take h)
  exact (List.mem_filter.mp hmem).imp_right of_decide_eq_true

section Retain

variable [DecidableEq α] {order : Descending key} {own : α → Prop} [DecidablePred own]
  {bound : Int} {n : ℕ} {rows : List α}

theorem length_retain :
    (retain order own bound n rows).1 + (retain order own bound n rows).2.length =
      rows.length := by
  unfold retain
  dsimp only
  rw [Nat.add_assoc, length_deleteWhere, length_deleteWhere]

/-- A bound may be replaced by one that no row can tell from it. -/
theorem retain_congr {bound' : Int} (h : ∀ r ∈ rows, key r < bound ↔ key r < bound') :
    retain order own bound n rows = retain order own bound' n rows := by
  have haged : deleteWhere (fun r ↦ own r ∧ key r < bound) rows =
      deleteWhere (fun r ↦ own r ∧ key r < bound') rows := by
    unfold deleteWhere
    congr 1
    · congr 1
      exact List.filter_congr fun r hr ↦ by simp only [h r hr]
    · exact List.filter_congr fun r hr ↦ by simp only [h r hr]
  unfold retain
  rw [haged]

/-- Of own rows that are few and recent enough none is deleted, in whatever order they come. -/
theorem retain_eq_self (hrecent : ∀ r ∈ rows, own r → bound ≤ key r)
    (hlength : (rows.filter own).length ≤ n) :
    retain order own bound n rows = (0, rows) := by
  have haged : deleteWhere (fun r ↦ own r ∧ key r < bound) rows = (0, rows) :=
    deleteWhere_eq_self fun r hr hold ↦ absurd (hrecent r hr hold.1) (not_le.mpr hold.2)
  have hexcess : deleteWhere (fun r ↦ own r ∧ r ∉ (order.sort (rows.filter own)).take n) rows =
      (0, rows) := by
    apply deleteWhere_eq_self
    rintro r hr ⟨hown, hnot⟩
    apply hnot
    rw [List.take_of_length_le (by rwa [(order.perm _).length_eq]), (order.perm _).mem_iff]
    exact List.mem_filter.mpr ⟨hr, decide_eq_true hown⟩
  unfold retain
  rw [haged]
  dsimp only
  rw [hexcess]
  rfl

/-- Both deletions in one. -/
theorem retain_eq_filter : (retain order own bound n rows).2 =
    rows.filter fun r ↦ own r → r ∈ newestOwn order own bound n rows := by
  have hown : ((rows.filter fun r ↦ ¬ (own r ∧ key r < bound)).filter own) =
      rows.filter fun r ↦ own r ∧ bound ≤ key r := by
    rw [List.filter_filter]
    apply List.filter_congr
    intro r _
    by_cases hr : own r <;> simp [hr]
  have hnewest : (order.sort ((deleteWhere (fun r ↦ own r ∧ key r < bound) rows).2.filter
      own)).take n = newestOwn order own bound n rows := by
    rw [deleteWhere, hown, newestOwn]
  unfold retain
  dsimp only
  simp only [hnewest]
  simp only [deleteWhere, List.filter_filter]
  apply List.filter_congr
  intro r _
  rw [← Bool.decide_and, decide_eq_decide, not_and, not_not, not_and, not_lt]
  constructor
  · exact fun h ↦ h.1
  · exact fun h ↦ ⟨h, fun hr ↦ (mem_of_mem_newestOwn (h hr)).2.2⟩

/-- Rows that differ from each other are retained as they should be. -/
theorem retained_retain (hnodup : rows.Nodup) :
    Retained key own bound n rows (retain order own bound n rows).2 := by
  rw [retain_eq_filter]
  have hmem : ∀ r, r ∈ rows.filter (fun r ↦ own r → r ∈ newestOwn order own bound n rows) ↔
      r ∈ rows ∧ (own r → r ∈ newestOwn order own bound n rows) := by
    intro r
    rw [List.mem_filter, decide_eq_true_eq]
  refine ⟨List.filter_sublist, ?_, ?_, ?_, ?_⟩
  · rw [List.filter_filter]
    apply List.filter_congr
    intro r _
    by_cases hown : own r <;> simp [hown]
  · intro r hr hown
    exact (mem_of_mem_newestOwn (((hmem r).mp hr).2 hown)).2.2
  · have hnodup' : (newestOwn order own bound n rows).Nodup :=
      ((order.perm _).nodup_iff.mpr (hnodup.filter _)).sublist (List.take_sublist n _)
    have hperm : ((rows.filter fun r ↦ own r → r ∈ newestOwn order own bound n rows).filter
        own).Perm (newestOwn order own bound n rows) := by
      apply (List.perm_ext_iff_of_nodup ((hnodup.filter _).filter _) hnodup').mpr
      intro r
      rw [List.mem_filter, hmem, decide_eq_true_eq]
      constructor
      · exact fun h ↦ h.1.2 h.2
      · intro hr
        exact ⟨⟨(mem_of_mem_newestOwn hr).1, fun _ ↦ hr⟩, (mem_of_mem_newestOwn hr).2.1⟩
    rw [hperm.length_eq, newestOwn, List.length_take, (order.perm _).length_eq]
  · intro r hr hdeleted
    rw [hmem, not_and, Classical.not_imp] at hdeleted
    obtain ⟨hown, hnot⟩ := hdeleted hr
    refine ⟨hown, fun k hk hownK ↦ ?_⟩
    have hkept := ((hmem k).mp hk).2 hownK
    by_cases hage : bound ≤ key r
    · have hrecent : r ∈ rows.filter fun r ↦ own r ∧ bound ≤ key r :=
        List.mem_filter.mpr ⟨hr, decide_eq_true ⟨hown, hage⟩⟩
      exact order.le_of_mem_take hkept hrecent hnot
    · have hrecent := (mem_of_mem_newestOwn hkept).2.2
      omega

/-- What was retained is retained whole the next time. -/
theorem Retained.retain_eq {kept : List α} (h : Retained key own bound n rows kept) :
    retain order own bound n kept = (0, kept) :=
  retain_eq_self h.recent (h.length.trans_le (min_le_left _ _))

end Retain

/-- One row is too old and one too many; the negative row is another's. -/
example : retain (.newestFirst id) (fun r : Int ↦ 0 ≤ r) 3 2 [7, 1, 5, 6, -4] =
    (2, [7, 6, -4]) := by decide

end Daku.Base
