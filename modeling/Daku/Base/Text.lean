import Mathlib.Algebra.Group.Nat.Defs
import Mathlib.Data.List.Basic

/-!
# Text operations

The `str` methods the source uses, on the characters of a string. They follow the documented
behaviour of the standard library, in particular its notion of white space.
-/

namespace Daku.Base

/-- The Unicode `White_Space` property, which `str::trim` uses. -/
def isUnicodeSpace (c : Char) : Bool :=
  let n := c.toNat
  (0x9 ≤ n && n ≤ 0xD) || n == 0x20 || n == 0x85 || n == 0xA0 || n == 0x1680 ||
    (0x2000 ≤ n && n ≤ 0x200A) || n == 0x2028 || n == 0x2029 || n == 0x202F ||
    n == 0x205F || n == 0x3000

/-- The rest of a list after a prefix. -/
def dropPrefix : List Char → List Char → Option (List Char)
  | [], cs => some cs
  | p :: ps, c :: cs => if p = c then dropPrefix ps cs else none
  | _ :: _, [] => none

/-- `str::strip_prefix`. -/
def stripPrefix (pre s : String) : Option String :=
  (dropPrefix pre.toList s.toList).map String.ofList

/-- `str::trim`. -/
def trim (s : String) : String :=
  String.ofList (((s.toList.dropWhile isUnicodeSpace).reverse.dropWhile isUnicodeSpace).reverse)

/-- `str::trim_end_matches` with a character. -/
def trimEndChar (c : Char) (s : String) : String :=
  String.ofList ((s.toList.reverse.dropWhile (· = c)).reverse)

/-- Split a list at every separator; there is always at least one piece. -/
def splitChars (sep : Char) : List Char → List (List Char)
  | [] => [[]]
  | c :: cs =>
    match splitChars sep cs with
    | [] => [[c]]
    | piece :: pieces => if c = sep then [] :: piece :: pieces else (c :: piece) :: pieces

/-- `str::split` with a character. -/
def splitChar (sep : Char) (s : String) : List String :=
  (splitChars sep s.toList).map String.ofList

/-- Split a list at every occurrence of a non-empty separator; `skip` characters belong to the
separator just found. -/
def splitCharsAt (sep : List Char) : Nat → List Char → List (List Char)
  | _, [] => [[]]
  | skip + 1, _ :: cs => splitCharsAt sep skip cs
  | 0, c :: cs =>
    if (dropPrefix sep (c :: cs)).isSome then [] :: splitCharsAt sep (sep.length - 1) cs
    else
      match splitCharsAt sep 0 cs with
      | [] => [[c]]
      | piece :: pieces => (c :: piece) :: pieces

/-- `str::split` with a non-empty string. -/
def splitText (sep s : String) : List String :=
  (splitCharsAt sep.toList 0 s.toList).map String.ofList

/-- Remove a suffix as often as it occurs at the end; `fuel` bounds the rounds. -/
def dropSuffixes (suffix : List Char) : Nat → List Char → List Char
  | 0, cs => cs
  | fuel + 1, cs =>
    match dropPrefix suffix.reverse cs.reverse with
    | some rest => dropSuffixes suffix fuel rest.reverse
    | none => cs

/-- `str::trim_end_matches` with a non-empty string. Every round removes a character, so the
length of the text is enough rounds. -/
def trimEndMatches (suffix s : String) : String :=
  String.ofList (dropSuffixes suffix.toList s.toList.length s.toList)

/-- `str::contains` with a character. -/
def containsChar (c : Char) (s : String) : Bool := s.toList.contains c

/-- `str::eq_ignore_ascii_case`. -/
def eqIgnoreAsciiCase (a b : String) : Bool :=
  a.toList.map Char.toLower = b.toList.map Char.toLower

/-- `str::to_ascii_lowercase`. -/
def toAsciiLowercase (s : String) : String := String.ofList (s.toList.map Char.toLower)

/-- `str::contains` with a string. -/
def containsText (sub s : String) : Bool :=
  s.toList.tails.any fun tail ↦ (dropPrefix sub.toList tail).isSome

/-- Value of a non-empty list of decimal digits. -/
def digitsValue (cs : List Char) : Option Nat :=
  if cs ≠ [] ∧ cs.all Char.isDigit then
    some (cs.foldl (fun n c ↦ 10 * n + (c.toNat - 48)) 0)
  else none

/-- `str::parse::<u64>`: digits, perhaps after a plus sign, within the range. -/
def parseU64 (s : String) : Option Nat :=
  let digits := match s.toList with
    | '+' :: rest => rest
    | cs => cs
  (digitsValue digits).filter fun n ↦ n < 2 ^ 64

/-- `str::parse::<u32>`: digits, perhaps after a plus sign, within the range. -/
def parseU32 (s : String) : Option Nat :=
  let digits := match s.toList with
    | '+' :: rest => rest
    | cs => cs
  (digitsValue digits).filter fun n ↦ n < 2 ^ 32

/-- `str::parse::<i64>`: digits, perhaps after a sign, within the range. -/
def parseI64 (s : String) : Option Int :=
  match s.toList with
  | '-' :: digits => ((digitsValue digits).filter fun n ↦ n ≤ 2 ^ 63).map fun n ↦ -(n : Int)
  | '+' :: digits => ((digitsValue digits).filter fun n ↦ n < 2 ^ 63).map fun n ↦ (n : Int)
  | digits => ((digitsValue digits).filter fun n ↦ n < 2 ^ 63).map fun n ↦ (n : Int)

/-- `str::replacen(from, to, 1)` with a non-empty `from`. -/
def replaceFirst (old new s : String) : String :=
  String.ofList (go s.toList)
where
  /-- The search for the first occurrence. -/
  go : List Char → List Char
    | [] => []
    | c :: cs =>
      match dropPrefix old.toList (c :: cs) with
      | some rest => new.toList ++ rest
      | none => c :: go cs

/-- The first piece of a split list ends before the first separator. -/
theorem head?_splitChars (sep : Char) (cs : List Char) :
    (splitChars sep cs).head? = some (cs.takeWhile (· ≠ sep)) := by
  induction cs with
  | nil => rfl
  | cons c cs ih =>
    simp only [splitChars, List.takeWhile_cons]
    cases hs : splitChars sep cs with
    | nil => simp [hs] at ih
    | cons piece pieces =>
      rw [hs, List.head?_cons, Option.some.injEq] at ih
      by_cases hc : c = sep
      · simp [hc]
      · simp [hc, ih]

/-- Further digits do not make a number smaller. -/
private theorem le_foldl_digits (cs : List Char) (n : ℕ) :
    n ≤ cs.foldl (fun n c ↦ 10 * n + (c.toNat - 48)) n := by
  induction cs generalizing n with
  | nil => exact Nat.le_refl n
  | cons c cs ih =>
    have := ih (10 * n + (c.toNat - 48))
    rw [List.foldl_cons]
    omega

theorem digitsValue_eq_some {cs : List Char} {n : ℕ} (h : digitsValue cs = some n) :
    cs ≠ [] ∧ ∀ c ∈ cs, c.isDigit := by
  simp only [digitsValue, Option.ite_none_right_eq_some, List.all_eq_true] at h
  exact h.1

theorem digitsValue_le_append {ds es : List Char} {m n : ℕ} (hm : digitsValue ds = some m)
    (hn : digitsValue (ds ++ es) = some n) : m ≤ n := by
  simp only [digitsValue, Option.ite_none_right_eq_some, Option.some.injEq] at hm hn
  rw [← hm.2, ← hn.2, List.foldl_append]
  exact le_foldl_digits es _

/-- The digits of a number, which a plus sign may precede. -/
theorem parseU32_eq_some {s : String} {n : ℕ} (h : parseU32 s = some n) :
    ∃ ds, digitsValue ds = some n ∧ (s.toList = ds ∨ s.toList = '+' :: ds) := by
  simp only [parseU32, Option.filter_eq_some_iff] at h
  split at h
  · rename_i ds hs
    exact ⟨ds, h.1, Or.inr hs⟩
  · exact ⟨s.toList, h.1, Or.inl rfl⟩

/-- A number that begins with the text of another one is no smaller. -/
theorem parseU32_le_of_prefix {s t : String} {m n : ℕ} (hs : parseU32 s = some m)
    (ht : parseU32 t = some n) (h : s.toList <+: t.toList) : m ≤ n := by
  obtain ⟨ds, hm, hds⟩ := parseU32_eq_some hs
  obtain ⟨es, hn, hes⟩ := parseU32_eq_some ht
  have hplus : ¬ '+'.isDigit := by decide
  obtain ⟨hne, hdigits⟩ := digitsValue_eq_some hm
  have hother := (digitsValue_eq_some hn).2
  have hprefix : ds <+: es := by
    rcases hds with hds | hds <;> rcases hes with hes | hes <;> rw [hds, hes] at h
    · exact h
    · cases ds with
      | nil => exact absurd rfl hne
      | cons c ds =>
        rw [List.cons_prefix_cons] at h
        exact absurd (hdigits c List.mem_cons_self) (h.1 ▸ hplus)
    · exact absurd (hother '+' (h.subset List.mem_cons_self)) hplus
    · exact (List.cons_prefix_cons.mp h).2
  obtain ⟨rest, rfl⟩ := hprefix
  exact digitsValue_le_append hm hn

/-- The text of a number has digits only, after a plus sign perhaps. -/
theorem isDigit_of_parseU32 {s : String} {n : ℕ} (h : parseU32 s = some n) :
    ∀ c ∈ s.toList, c = '+' ∨ c.isDigit := by
  obtain ⟨ds, hn, hds⟩ := parseU32_eq_some h
  have hdigits := (digitsValue_eq_some hn).2
  intro c hc
  rcases hds with hds | hds <;> rw [hds] at hc
  · exact Or.inr (hdigits c hc)
  · exact (List.mem_cons.mp hc).imp_right (hdigits c)

/-- An ASCII text has as many bytes as characters. -/
theorem utf8ByteSize_of_ascii {s : String} (h : ∀ c ∈ s.toList, c.val ≤ 127) :
    s.utf8ByteSize = s.toList.length := by
  suffices H : ∀ cs : List Char, (∀ c ∈ cs, c.val ≤ 127) →
      (String.ofList cs).utf8ByteSize = cs.length by
    have := H s.toList h
    rwa [String.ofList_toList] at this
  intro cs
  induction cs with
  | nil => intro _; rfl
  | cons c cs ih =>
    intro hcs
    have hc := Char.utf8Size_eq_one_iff.mpr (hcs c List.mem_cons_self)
    have hrest := ih fun d hd ↦ hcs d (List.mem_cons_of_mem c hd)
    rw [String.ofList_cons, String.utf8ByteSize_append, String.utf8ByteSize_singleton, hc, hrest,
      List.length_cons]
    omega

end Daku.Base
