import Daku.Base.Cuts
import Mathlib.Data.List.DropRight

/-!
# Tokens of a text

A text is split at separators, and the trimmed pieces that are not empty are its tokens. Texts
that are joined with a separator and white space have the tokens of each, and texts that are
tokens themselves are read back.
-/

namespace Daku.Base

/-- The tokens of a list. -/
def tokens (isSep : Char → Bool) (cs : List Char) : List String :=
  ((splitWhere isSep cs).map fun piece ↦ trim (String.ofList piece)).filter (· ≠ "")

/-- A text that is a token of itself: not empty, without separators and without white space
around. -/
structure IsToken (isSep : Char → Bool) (s : String) : Prop where
  ne_empty : s ≠ ""
  trimmed : trim s = s
  notSep : ∀ c ∈ s.toList, isSep c = false

section Trim

variable {s : String} {c : Char} {cs : List Char}

/-- Trimming drops at the left and then at the right. -/
private theorem toList_trim (s : String) :
    (trim s).toList = (s.toList.dropWhile isUnicodeSpace).rdropWhile isUnicodeSpace := by
  rw [trim, String.toList_ofList]
  rfl

theorem mem_of_mem_trim (h : c ∈ (trim s).toList) : c ∈ s.toList := by
  rw [toList_trim] at h
  exact (List.dropWhile_suffix _).subset ((List.rdropWhile_prefix _ _).subset h)

theorem trim_trim (s : String) : trim (trim s) = trim s := by
  apply String.toList_inj.mp
  rw [toList_trim (trim s)]
  have hleft : (trim s).toList.dropWhile isUnicodeSpace = (trim s).toList := by
    obtain ⟨rest, hrest⟩ :=
      List.rdropWhile_prefix isUnicodeSpace (s.toList.dropWhile isUnicodeSpace)
    rw [← toList_trim] at hrest
    cases htrim : (trim s).toList with
    | nil => rfl
    | cons c cs =>
      have hkept := List.dropWhile_idempotent isUnicodeSpace s.toList
      rw [← hrest, htrim, List.cons_append] at hkept
      have hc := List.dropWhile_eq_self_iff.mp hkept (Nat.zero_lt_succ _)
      exact List.dropWhile_cons_of_neg hc
  rw [hleft, toList_trim, List.rdropWhile_idempotent]

theorem trim_cons_space (h : isUnicodeSpace c = true) :
    trim (String.ofList (c :: cs)) = trim (String.ofList cs) := by
  rw [trim, trim, String.toList_ofList, String.toList_ofList, List.dropWhile_cons_of_pos h]

end Trim

section Tokens

variable {isSep : Char → Bool} {c : Char} {cs xs ys : List Char} {s token : String}

theorem splitWhere_ne_nil (isSep : Char → Bool) (cs : List Char) : splitWhere isSep cs ≠ [] := by
  intro h
  have hhead := head?_splitWhere isSep cs
  rw [h] at hhead
  cases hhead

/-- Without a separator there is one piece. -/
theorem splitWhere_of_notSep (h : ∀ c ∈ cs, isSep c = false) : splitWhere isSep cs = [cs] := by
  induction cs with
  | nil => rfl
  | cons c cs ih =>
    rw [splitWhere, ih fun d hd ↦ h d (List.mem_cons_of_mem _ hd)]
    dsimp only
    rw [h c List.mem_cons_self]
    rfl

/-- A separator ends a piece. -/
theorem splitWhere_append_sep (h : isSep c = true) (xs ys : List Char) :
    splitWhere isSep (xs ++ c :: ys) = splitWhere isSep xs ++ splitWhere isSep ys := by
  induction xs with
  | nil =>
    show splitWhere isSep (c :: ys) = [[]] ++ splitWhere isSep ys
    rw [splitWhere]
    cases hys : splitWhere isSep ys with
    | nil => exact absurd hys (splitWhere_ne_nil isSep ys)
    | cons piece pieces =>
      dsimp only
      rw [if_pos h]
      rfl
  | cons d xs ih =>
    rw [List.cons_append, splitWhere, splitWhere, ih]
    cases hxs : splitWhere isSep xs with
    | nil => exact absurd hxs (splitWhere_ne_nil isSep xs)
    | cons piece pieces =>
      dsimp only [List.cons_append]
      split <;> rfl

theorem tokens_append_sep (h : isSep c = true) (xs ys : List Char) :
    tokens isSep (xs ++ c :: ys) = tokens isSep xs ++ tokens isSep ys := by
  rw [tokens, splitWhere_append_sep h, List.map_append, List.filter_append]
  rfl

/-- White space in front belongs to no token. -/
theorem tokens_cons_space (hspace : isUnicodeSpace c = true) (hsep : isSep c = false)
    (cs : List Char) : tokens isSep (c :: cs) = tokens isSep cs := by
  rw [tokens, tokens, splitWhere]
  cases hcs : splitWhere isSep cs with
  | nil => exact absurd hcs (splitWhere_ne_nil isSep cs)
  | cons piece pieces =>
    dsimp only
    rw [hsep, if_neg Bool.false_ne_true, List.map_cons, List.map_cons, trim_cons_space hspace]

theorem isToken_of_mem_tokens (h : token ∈ tokens isSep cs) : IsToken isSep token := by
  obtain ⟨hmem, hne⟩ := List.mem_filter.mp h
  obtain ⟨piece, hpiece, rfl⟩ := List.mem_map.mp hmem
  refine ⟨of_decide_eq_true hne, trim_trim _, fun c hc ↦ ?_⟩
  have hc' := mem_of_mem_trim hc
  rw [String.toList_ofList] at hc'
  exact notSep_of_mem_splitWhere hpiece hc'

theorem tokens_of_isToken (h : IsToken isSep s) : tokens isSep s.toList = [s] := by
  rw [tokens, splitWhere_of_notSep h.notSep, List.map_singleton, String.ofList_toList, h.trimmed]
  exact List.filter_cons_of_pos (decide_eq_true h.ne_empty)

/-- Joined texts have the tokens of each. -/
theorem tokens_intercalate {c d : Char} (hsep : isSep c = true) (hspace : isUnicodeSpace d = true)
    (hplain : isSep d = false) (parts : List String) :
    tokens isSep (String.intercalate (String.ofList [c, d]) parts).toList =
      parts.flatMap fun s ↦ tokens isSep s.toList := by
  induction parts with
  | nil =>
    rw [String.intercalate_nil, String.toList_empty, tokens, splitWhere]
    rfl
  | cons s parts ih =>
    cases parts with
    | nil => rw [String.intercalate_singleton, List.flatMap_singleton]
    | cons t parts =>
      rw [String.intercalate_cons_cons, String.toList_append, String.toList_append,
        String.toList_ofList, List.append_assoc, List.cons_append, List.singleton_append,
        tokens_append_sep hsep, tokens_cons_space hspace hplain, ih]
      rfl

/-- Texts have themselves as tokens exactly if each is one. -/
theorem mem_flatMap_tokens_iff {parts : List String} :
    (∀ token, token ∈ parts.flatMap (fun s ↦ tokens isSep s.toList) ↔ token ∈ parts) ↔
      ∀ s ∈ parts, IsToken isSep s := by
  constructor
  · intro h s hs
    obtain ⟨_, -, htoken⟩ := List.mem_flatMap.mp ((h s).mpr hs)
    exact isToken_of_mem_tokens htoken
  · intro h token
    rw [List.mem_flatMap]
    constructor
    · rintro ⟨s, hs, htoken⟩
      rw [tokens_of_isToken (h s hs), List.mem_singleton] at htoken
      rwa [htoken]
    · intro hs
      refine ⟨token, hs, ?_⟩
      rw [tokens_of_isToken (h token hs)]
      exact List.mem_singleton_self _

end Tokens

end Daku.Base
