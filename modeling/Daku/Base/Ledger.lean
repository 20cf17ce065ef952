import Mathlib.Data.List.Basic
import Mathlib.Tactic.Tauto

/-!
# Copies of a growing log

Entries are logged in batches, and after some batches the whole log is copied out. The copy is
complete in the end exactly when no batch comes after the last copy.
-/

namespace Daku.Base

variable {α : Type}

/-- What has been logged, and what the last copy took. -/
structure Ledger (α : Type) where
  logged : List α
  copied : List α

namespace Ledger

/-- Log a batch and, if asked to, copy the log. -/
def step (l : Ledger α) (batch : List α × Bool) : Ledger α where
  logged := l.logged ++ batch.1
  copied := if batch.2 then l.logged ++ batch.1 else l.copied

/-- The ledger after a list of batches. -/
def after (l : Ledger α) : List (List α × Bool) → Ledger α
  | [] => l
  | batch :: batches => (l.step batch).after batches

/-- Every batch with entries is followed by a copy. -/
def EveryBatchCopied : List (List α × Bool) → Prop
  | [] => True
  | batch :: batches =>
    (batch.1 = [] ∨ ∃ b ∈ batch :: batches, b.2) ∧ EveryBatchCopied batches

instance decidableEveryBatchCopied [DecidableEq α] :
    (batches : List (List α × Bool)) → Decidable (EveryBatchCopied batches)
  | [] => instDecidableTrue
  | _ :: batches =>
    have := decidableEveryBatchCopied batches
    inferInstanceAs (Decidable (_ ∧ _))

/-- A copy takes a beginning of the log. -/
theorem copied_prefix_step {l : Ledger α} (h : l.copied <+: l.logged) (batch : List α × Bool) :
    (l.step batch).copied <+: (l.step batch).logged := by
  simp only [step]
  split
  · exact List.prefix_refl _
  · exact h.trans (List.prefix_append _ _)

/-- One batch leaves the copy complete when it is copied, or when nothing changed. -/
theorem copied_eq_logged_step {l : Ledger α} (h : l.copied <+: l.logged) (batch : List α × Bool) :
    (l.step batch).copied = (l.step batch).logged ↔
      batch.2 = true ∨ (l.copied = l.logged ∧ batch.1 = []) := by
  simp only [step]
  split
  · next hcopy => simp [hcopy]
  · next hcopy =>
    simp only [hcopy, false_or, Bool.false_eq_true]
    constructor
    · intro heq
      have hle := h.length_le
      have hlen := congrArg List.length heq
      rw [List.length_append] at hlen
      have hnil : batch.1 = [] := List.length_eq_zero_iff.mp (by omega)
      rw [hnil, List.append_nil] at heq
      exact ⟨heq, hnil⟩
    · rintro ⟨heq, hnil⟩
      rw [heq, hnil, List.append_nil]

/-- The copy is complete in the end exactly when every batch is followed by a copy. -/
theorem copied_eq_logged_after (batches : List (List α × Bool)) (l : Ledger α)
    (h : l.copied <+: l.logged) :
    (l.after batches).copied = (l.after batches).logged ↔
      (l.copied = l.logged ∨ ∃ b ∈ batches, b.2) ∧ EveryBatchCopied batches := by
  induction batches generalizing l with
  | nil => simp [after, EveryBatchCopied]
  | cons batch batches ih =>
    rw [after, ih _ (copied_prefix_step h batch), copied_eq_logged_step h batch,
      EveryBatchCopied]
    simp only [List.mem_cons, exists_eq_or_imp]
    tauto

/-- What is logged in the end. -/
theorem logged_after (batches : List (List α × Bool)) (l : Ledger α) :
    (l.after batches).logged = l.logged ++ batches.flatMap Prod.fst := by
  induction batches generalizing l with
  | nil => simp [after]
  | cons batch batches ih => simp [after, ih, step]

end Ledger

end Daku.Base
