import Daku.Base.Text
import Mathlib.Data.List.Infix

/-!
# Cutting texts at separators

What the pieces of a split text are, by the first separator of the text.
-/

namespace Daku.Base

section Cuts

variable {sep : Char} {xs ys cs : List Char}

theorem splitChars_ne_nil (sep : Char) (cs : List Char) : splitChars sep cs ≠ [] := by
  intro h
  have hhead := head?_splitChars sep cs
  rw [h] at hhead
  cases hhead

/-- A text without separators is its only piece. -/
theorem splitChars_of_notMem (h : sep ∉ cs) : splitChars sep cs = [cs] := by
  induction cs with
  | nil => rfl
  | cons c cs ih =>
    rw [List.mem_cons, not_or] at h
    rw [splitChars, ih h.2]
    exact if_neg (Ne.symm h.1)

/-- A separator separates the pieces before it from those after it. -/
theorem splitChars_append_sep (sep : Char) (xs ys : List Char) :
    splitChars sep (xs ++ sep :: ys) = splitChars sep xs ++ splitChars sep ys := by
  induction xs with
  | nil =>
    show splitChars sep (sep :: ys) = [] :: splitChars sep ys
    rw [splitChars]
    cases hys : splitChars sep ys with
    | nil => exact absurd hys (splitChars_ne_nil sep ys)
    | cons piece pieces => exact if_pos rfl
  | cons x xs ih =>
    rw [List.cons_append, splitChars, splitChars, ih]
    cases hxs : splitChars sep xs with
    | nil => exact absurd hxs (splitChars_ne_nil sep xs)
    | cons piece pieces =>
      rw [List.cons_append]
      dsimp only
      split <;> rfl

/-- The first piece ends at the first separator. -/
theorem splitChars_append (h : sep ∉ xs) :
    splitChars sep (xs ++ sep :: ys) = xs :: splitChars sep ys := by
  rw [splitChars_append_sep, splitChars_of_notMem h]
  rfl

/-- The last piece begins after the last separator. -/
theorem getLast?_splitChars_append (h : sep ∉ ys) :
    (splitChars sep (xs ++ sep :: ys)).getLast? = some ys := by
  rw [splitChars_append_sep, splitChars_of_notMem h, List.getLast?_concat]

/-- The first piece of a split, and the pieces of what comes after its separator. -/
theorem splitChars_eq_cons {pieces : List (List Char)} :
    splitChars sep cs = xs :: pieces ↔
      sep ∉ xs ∧ (cs = xs ∧ pieces = [] ∨ ∃ ys, cs = xs ++ sep :: ys ∧ splitChars sep ys = pieces) := by
  constructor
  · intro h
    by_cases hmem : sep ∈ cs
    · obtain ⟨before, after, hcs, hbefore⟩ := List.eq_append_cons_of_mem hmem
      rw [hcs, splitChars_append hbefore, List.cons.injEq] at h
      rw [← h.1]
      exact ⟨hbefore, Or.inr ⟨after, hcs, h.2⟩⟩
    · rw [splitChars_of_notMem hmem, List.cons.injEq] at h
      rw [← h.1]
      exact ⟨hmem, Or.inl ⟨rfl, h.2.symm⟩⟩
  · rintro ⟨hxs, ⟨rfl, rfl⟩ | ⟨ys, rfl, rfl⟩⟩
    · exact splitChars_of_notMem hxs
    · exact splitChars_append hxs

end Cuts

/-- Cut a list at the first separator; a list without one has nothing after it. -/
def cutAt (sep : Char) : List Char → List Char × Option (List Char)
  | [] => ([], none)
  | c :: cs =>
    if c = sep then ([], some cs)
    else (c :: (cutAt sep cs).1, (cutAt sep cs).2)

/-- The separator and what comes after it, if anything does. -/
def follow (sep : Char) (rest : Option (List Char)) : List Char :=
  match rest with
  | some cs => sep :: cs
  | none => []

section CutAt

variable {sep : Char} {xs cs : List Char}

theorem cutAt_append (h : sep ∉ xs) (rest : Option (List Char)) :
    cutAt sep (xs ++ follow sep rest) = (xs, rest) := by
  induction xs with
  | nil =>
    cases rest with
    | none => rfl
    | some cs => exact if_pos rfl
  | cons x xs ih =>
    rw [List.mem_cons, not_or] at h
    rw [List.cons_append, cutAt, if_neg (Ne.symm h.1), ih h.2]

theorem cutAt_of_notMem (h : sep ∉ cs) : cutAt sep cs = (cs, none) := by
  have hcut := cutAt_append h none
  rwa [follow, List.append_nil] at hcut

/-- A cut is in what follows a part without separators. -/
theorem cutAt_append_left (h : sep ∉ xs) (cs : List Char) :
    cutAt sep (xs ++ cs) = (xs ++ (cutAt sep cs).1, (cutAt sep cs).2) := by
  induction xs with
  | nil => rfl
  | cons x xs ih =>
    rw [List.mem_cons, not_or] at h
    rw [List.cons_append, cutAt, if_neg (Ne.symm h.1), ih h.2]
    rfl

/-- A cut is in the part that has a separator, if what follows is kept. -/
theorem cutAt_append_of_mem (h : sep ∈ xs) (cs : List Char) :
    (cutAt sep (xs ++ cs)).1 = (cutAt sep xs).1 := by
  induction xs with
  | nil => cases h
  | cons x xs ih =>
    rw [List.cons_append, cutAt, cutAt]
    by_cases hx : x = sep
    · rw [if_pos hx, if_pos hx]
    · rw [if_neg hx, if_neg hx, ih ((List.mem_cons.mp h).resolve_left (Ne.symm hx))]

/-- The two sides of a cut are the list. -/
theorem cutAt_join (sep : Char) (cs : List Char) :
    (cutAt sep cs).1 ++ follow sep (cutAt sep cs).2 = cs := by
  induction cs with
  | nil => rfl
  | cons c cs ih =>
    rw [cutAt]
    split
    · next hc =>
      rw [hc]
      rfl
    · rw [List.cons_append, ih]

theorem notMem_cutAt (sep : Char) (cs : List Char) : sep ∉ (cutAt sep cs).1 := by
  induction cs with
  | nil => exact List.not_mem_nil
  | cons c cs ih =>
    rw [cutAt]
    split
    · exact List.not_mem_nil
    · next hc =>
      rw [List.mem_cons, not_or]
      exact ⟨Ne.symm hc, ih⟩

theorem mem_of_mem_cutAt {c : Char} (h : c ∈ (cutAt sep cs).1) : c ∈ cs := by
  rw [← cutAt_join sep cs]
  exact List.mem_append_left _ h

theorem mem_of_mem_after_cutAt {c : Char} {rest : List Char} (h : (cutAt sep cs).2 = some rest)
    (hc : c ∈ rest) : c ∈ cs := by
  rw [← cutAt_join sep cs, h]
  exact List.mem_append_right _ (List.mem_cons_of_mem _ hc)

/-- What comes before the first separator is the first piece. -/
theorem splitChar_headD (sep : Char) (s : String) :
    (splitChar sep s).headD "" = String.ofList (cutAt sep s.toList).1 := by
  have hcut : ∀ cs : List Char, (splitChars sep cs).head? = some (cutAt sep cs).1 := by
    intro cs
    rw [head?_splitChars]
    induction cs with
    | nil => rfl
    | cons c cs ih =>
      rw [cutAt]
      split
      · next hc => simp [hc]
      · next hc => simpa [hc] using ih
  rw [splitChar, List.headD_eq_head?_getD, List.head?_map, hcut]
  rfl

end CutAt

/-- Split a list at every character of a kind; there is always at least one piece. -/
def splitWhere (isSep : Char → Bool) : List Char → List (List Char)
  | [] => [[]]
  | c :: cs =>
    match splitWhere isSep cs with
    | [] => [[c]]
    | piece :: pieces => if isSep c then [] :: piece :: pieces else (c :: piece) :: pieces

/-- `str::split_whitespace`. -/
def splitWhitespace (s : String) : List String :=
  ((splitWhere isUnicodeSpace s.toList).filter (· ≠ [])).map String.ofList

/-- Cut a list at the first occurrence of another one. -/
def cutAtText (sep : List Char) : List Char → Option (List Char × List Char)
  | [] => (dropPrefix sep []).map fun rest ↦ ([], rest)
  | c :: cs =>
    match dropPrefix sep (c :: cs) with
    | some rest => some ([], rest)
    | none => (cutAtText sep cs).map fun cut ↦ (c :: cut.1, cut.2)

/-- `str::split_once` with a string. -/
def splitOnce (sep s : String) : Option (String × String) :=
  (cutAtText sep.toList s.toList).map fun cut ↦ (String.ofList cut.1, String.ofList cut.2)

section Splits

variable {isSep : Char → Bool} {sep cs xs ys : List Char}

/-- The first piece ends at the first separator. -/
theorem head?_splitWhere (isSep : Char → Bool) (cs : List Char) :
    (splitWhere isSep cs).head? = some (cs.takeWhile fun c ↦ !isSep c) := by
  induction cs with
  | nil => rfl
  | cons c cs ih =>
    rw [splitWhere, List.takeWhile_cons]
    cases hpieces : splitWhere isSep cs with
    | nil =>
      rw [hpieces] at ih
      cases ih
    | cons piece pieces =>
      rw [hpieces, List.head?_cons, Option.some.injEq] at ih
      cases hc : isSep c <;> simp [ih]

/-- No piece has a separator. -/
theorem notSep_of_mem_splitWhere {piece : List Char} {c : Char} (h : piece ∈ splitWhere isSep cs)
    (hc : c ∈ piece) : isSep c = false := by
  induction cs generalizing piece with
  | nil =>
    rw [splitWhere, List.mem_singleton] at h
    rw [h] at hc
    cases hc
  | cons d cs ih =>
    rw [splitWhere] at h
    cases hpieces : splitWhere isSep cs with
    | nil =>
      have hhead := head?_splitWhere isSep cs
      rw [hpieces] at hhead
      cases hhead
    | cons first pieces =>
      rw [hpieces] at h ih
      dsimp only at h
      by_cases hd : isSep d
      · rw [if_pos hd] at h
        obtain rfl | h := List.mem_cons.mp h
        · cases hc
        · exact ih h hc
      · rw [if_neg hd] at h
        obtain rfl | h := List.mem_cons.mp h
        · obtain rfl | hc := List.mem_cons.mp hc
          · exact Bool.eq_false_iff.mpr hd
          · exact ih List.mem_cons_self hc
        · exact ih (List.mem_cons_of_mem _ h) hc

theorem headD_map_splitWhere (isSep : Char → Bool) (cs : List Char) :
    ((splitWhere isSep cs).map String.ofList).headD "" =
      String.ofList (cs.takeWhile fun c ↦ !isSep c) := by
  rw [List.headD_eq_head?_getD, List.head?_map, head?_splitWhere]
  rfl

theorem dropPrefix_append (pre cs : List Char) : dropPrefix pre (pre ++ cs) = some cs := by
  induction pre with
  | nil => cases cs <;> rfl
  | cons c pre ih =>
    rw [List.cons_append, dropPrefix, if_pos rfl, ih]

theorem dropPrefix_eq_some {pre rest : List Char} (h : dropPrefix pre cs = some rest) :
    cs = pre ++ rest := by
  induction pre generalizing cs with
  | nil =>
    cases cs <;> exact Option.some.inj h
  | cons c pre ih =>
    cases cs with
    | nil => cases h
    | cons d cs =>
      rw [dropPrefix] at h
      split at h
      · next hc => rw [hc, ih h, List.cons_append]
      · cases h

/-- `str::strip_prefix` leaves what follows the prefix. -/
theorem stripPrefix_eq_some {pre s rest : String} :
    stripPrefix pre s = some rest ↔ s.toList = pre.toList ++ rest.toList := by
  rw [stripPrefix, Option.map_eq_some_iff]
  constructor
  · rintro ⟨cs, hcs, rfl⟩
    rw [String.toList_ofList]
    exact dropPrefix_eq_some hcs
  · intro h
    exact ⟨rest.toList, by rw [h, dropPrefix_append], String.ofList_toList⟩

/-- The cut is at the separator if the part before it does not have the separator's first
character. -/
theorem cutAtText_append {c : Char} (h : c ∉ xs) :
    cutAtText (c :: sep) (xs ++ (c :: sep ++ ys)) = some (xs, ys) := by
  induction xs with
  | nil =>
    have hdrop := dropPrefix_append (c :: sep) ys
    rw [List.cons_append] at hdrop
    rw [List.nil_append, List.cons_append, cutAtText, hdrop]
  | cons x xs ih =>
    rw [List.mem_cons, not_or] at h
    have hdrop : dropPrefix (c :: sep) (x :: (xs ++ (c :: sep ++ ys))) = none := by
      rw [dropPrefix, if_neg h.1]
    rw [List.cons_append, cutAtText, hdrop, ih h.2]
    rfl

/-- `str::contains` finds what stands in the text. -/
theorem containsText_iff {sub s : String} :
    containsText sub s = true ↔ sub.toList <:+: s.toList := by
  rw [containsText, List.any_eq_true]
  constructor
  · rintro ⟨tail, htail, hdrop⟩
    obtain ⟨rest, hrest⟩ := Option.isSome_iff_exists.mp hdrop
    exact List.infix_iff_prefix_suffix.mpr ⟨tail, ⟨rest, (dropPrefix_eq_some hrest).symm⟩,
      (List.mem_tails _ _).mp htail⟩
  · intro h
    obtain ⟨tail, ⟨rest, hrest⟩, hsuffix⟩ := List.infix_iff_prefix_suffix.mp h
    refine ⟨tail, (List.mem_tails _ _).mpr hsuffix, ?_⟩
    rw [← hrest, dropPrefix_append]
    rfl

/-- A text without white space is not trimmed. -/
theorem trim_of_noSpace {s : String} (h : ∀ c ∈ s.toList, isUnicodeSpace c = false) :
    trim s = s := by
  have hkeep : ∀ cs : List Char, (∀ c ∈ cs, isUnicodeSpace c = false) →
      cs.dropWhile isUnicodeSpace = cs := by
    intro cs hcs
    cases cs with
    | nil => rfl
    | cons c cs => exact List.dropWhile_cons_of_neg (by simp [hcs c List.mem_cons_self])
  rw [trim, hkeep _ h, hkeep _ fun c hc ↦ h c (List.mem_reverse.mp hc), List.reverse_reverse,
    String.ofList_toList]

theorem noSpace_of_mem_splitWhitespace {token s : String} (h : token ∈ splitWhitespace s) :
    ∀ c ∈ token.toList, isUnicodeSpace c = false := by
  obtain ⟨piece, hpiece, rfl⟩ := List.mem_map.mp h
  rw [String.toList_ofList]
  exact fun c ↦ notSep_of_mem_splitWhere (List.mem_filter.mp hpiece).1

end Splits

end Daku.Base
