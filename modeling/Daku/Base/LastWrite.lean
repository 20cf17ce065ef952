import Mathlib.Data.List.Basic

/-!
# The last write of a log

Some entries of a log write a value, and the value that counts is that of the last one.
-/

namespace Daku.Base

variable {ω β : Type}

/-- The value the last writing entry of the log writes, or the one from before. -/
def lastWrite (written : ω → Option β) (log : List ω) (before : β) : β :=
  (log.filterMap written).getLast?.getD before

variable {written : ω → Option β} {log : List ω} {before : β}

@[simp] theorem lastWrite_nil : lastWrite written [] before = before := rfl

/-- An entry in front of others. -/
theorem lastWrite_cons (entry : ω) (log : List ω) :
    lastWrite written (entry :: log) before =
      lastWrite written log ((written entry).getD before) := by
  rw [lastWrite, lastWrite, List.filterMap_cons]
  cases written entry with
  | none => rfl
  | some value => simp only [Option.getD_some, List.getLast?_cons]

/-- Entries after others. -/
theorem lastWrite_append (log entries : List ω) :
    lastWrite written (log ++ entries) before =
      lastWrite written entries (lastWrite written log before) := by
  induction log generalizing before with
  | nil => rfl
  | cons entry log ih => rw [List.cons_append, lastWrite_cons, lastWrite_cons, ih]

/-- Once something is written, the value is one of those written, whatever was before. -/
theorem exists_lastWrite (h : ∃ entry ∈ log, (written entry).isSome) :
    ∃ entry ∈ log, ∀ before, written entry = some (lastWrite written log before) := by
  obtain ⟨entry, hentry, hsome⟩ := h
  obtain ⟨value, hvalue⟩ := Option.isSome_iff_exists.mp hsome
  have hmem : value ∈ log.filterMap written := List.mem_filterMap.mpr ⟨entry, hentry, hvalue⟩
  obtain ⟨last, hlast⟩ := Option.isSome_iff_exists.mp
    (List.getLast?_isSome.mpr (List.ne_nil_of_mem hmem))
  obtain ⟨writer, hwriter, hwrites⟩ := List.mem_filterMap.mp (List.mem_of_getLast? hlast)
  refine ⟨writer, hwriter, fun before ↦ ?_⟩
  rw [lastWrite, hlast, Option.getD_some, hwrites]

end Daku.Base
