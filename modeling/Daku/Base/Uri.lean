import Daku.Base.Cuts

/-!
# Components of URIs

The components of a text as a URI reference, cut as the regular expression of RFC 3986,
appendix B, cuts it: every text has them, and they determine it.
-/

namespace Daku.Base

/-- What stands between `//` and the path: user information, which ends at the last `@`, and the
host with its port. -/
structure Authority where
  userinfo : Option (List Char)
  host : List Char
  deriving DecidableEq, Repr

namespace Authority

/-- The text of an authority. -/
def chars (a : Authority) : List Char :=
  match a.userinfo with
  | some userinfo => userinfo ++ '@' :: a.host
  | none => a.host

/-- The authority of a text. -/
def ofChars (cs : List Char) : Authority where
  userinfo := (cutAt '@' cs.reverse).2.map List.reverse
  host := (cutAt '@' cs.reverse).1.reverse

theorem mem_chars_of_mem_host {a : Authority} {c : Char} (h : c ∈ a.host) : c ∈ a.chars := by
  rw [chars]
  cases a.userinfo with
  | none => exact h
  | some userinfo => exact List.mem_append_right _ (List.mem_cons_of_mem _ h)

theorem chars_ofChars (cs : List Char) : (ofChars cs).chars = cs := by
  have hjoin := congrArg List.reverse (cutAt_join '@' cs.reverse)
  rw [ofChars, chars]
  cases hcut : (cutAt '@' cs.reverse).2 with
  | none => simpa [hcut, follow] using hjoin
  | some userinfo => simpa [hcut, follow] using hjoin

theorem ofChars_chars {a : Authority} (h : '@' ∉ a.host) : ofChars a.chars = a := by
  have hcut : cutAt '@' a.chars.reverse = (a.host.reverse, a.userinfo.map List.reverse) := by
    have happend := cutAt_append (List.mem_reverse.not.mpr h) (a.userinfo.map List.reverse)
    rw [← happend, chars]
    cases a.userinfo <;> simp [follow]
  rw [ofChars, hcut]
  cases a with
  | mk userinfo host => cases userinfo <;> simp

theorem notMem_host_ofChars (cs : List Char) : '@' ∉ (ofChars cs).host := by
  rw [ofChars, List.mem_reverse]
  exact notMem_cutAt '@' _

/-- The last piece of a text split at `@` is its host as an authority. -/
theorem getLast?_splitChars_at (cs : List Char) :
    (splitChars '@' cs).getLast? = some (ofChars cs).host := by
  have hhost := notMem_host_ofChars cs
  have hchars := chars_ofChars cs
  rw [chars] at hchars
  cases hinfo : (ofChars cs).userinfo with
  | none =>
    rw [hinfo] at hchars
    dsimp only at hchars
    rw [hchars] at hhost ⊢
    rw [splitChars_of_notMem hhost]
    rfl
  | some userinfo =>
    rw [hinfo] at hchars
    dsimp only at hchars
    have hlast := @getLast?_splitChars_append '@' userinfo _ hhost
    rwa [hchars] at hlast

/-- What follows without an `@` belongs to the host. -/
theorem host_ofChars_append {a : Authority} (hhost : '@' ∉ a.host) {cs : List Char}
    (h : '@' ∉ cs) : (ofChars (a.chars ++ cs)).host = a.host ++ cs := by
  have happend : a.chars ++ cs = chars ⟨a.userinfo, a.host ++ cs⟩ := by
    rw [chars, chars]
    cases a.userinfo with
    | none => rfl
    | some userinfo => rw [List.append_assoc, List.cons_append]
  have hboth : '@' ∉ a.host ++ cs := by
    rw [List.mem_append, not_or]
    exact ⟨hhost, h⟩
  rw [happend, ofChars_chars hboth]

/-- What comes before a part with an `@` does not belong to the host. -/
theorem host_ofChars_append_of_mem {cs : List Char} (h : '@' ∈ cs) (xs : List Char) :
    (ofChars (xs ++ cs)).host = (ofChars cs).host := by
  rw [ofChars, ofChars, List.reverse_append, cutAt_append_of_mem (List.mem_reverse.mpr h)]

end Authority

/-- The components of a URI reference. -/
structure UriParts where
  scheme : Option (List Char)
  authority : Option Authority
  path : List Char
  query : Option (List Char)
  fragment : Option (List Char)
  deriving DecidableEq, Repr

/-- A scheme: a letter and then letters, digits, `+`, `-` and `.`. -/
def isScheme : List Char → Bool
  | [] => false
  | c :: cs => c.isAlpha && cs.all fun d ↦ d.isAlphanum || d ∈ ['+', '-', '.']

/-- A scheme and its colon. -/
def schemeChars : Option (List Char) → List Char
  | some scheme => scheme ++ [':']
  | none => []

/-- An authority after its slashes. -/
def authorityChars : Option Authority → List Char
  | some authority => '/' :: '/' :: authority.chars
  | none => []

/-- Cut a scheme off. -/
def cutScheme (cs : List Char) : Option (List Char) × List Char :=
  match cutAt ':' cs with
  | (scheme, some rest) => if scheme = [] ∨ '/' ∈ scheme then (none, cs) else (some scheme, rest)
  | (_, none) => (none, cs)

/-- Cut an authority off. -/
def cutAuthority : List Char → Option Authority × List Char
  | '/' :: '/' :: rest =>
    (some (Authority.ofChars (cutAt '/' rest).1), follow '/' (cutAt '/' rest).2)
  | path => (none, path)

theorem cutScheme_join (cs : List Char) :
    schemeChars (cutScheme cs).1 ++ (cutScheme cs).2 = cs := by
  have hjoin := cutAt_join ':' cs
  rw [cutScheme]
  split
  · next scheme rest hcut =>
    rw [hcut] at hjoin
    split
    · rfl
    · rw [schemeChars, List.append_assoc]
      exact hjoin
  · rfl

theorem cutAuthority_join (cs : List Char) :
    authorityChars (cutAuthority cs).1 ++ (cutAuthority cs).2 = cs := by
  rw [cutAuthority.eq_def]
  split
  · next rest =>
    dsimp only
    rw [authorityChars, Authority.chars_ofChars, List.cons_append, List.cons_append, cutAt_join]
  · rfl

/-- Where no scheme is cut off, nothing is. -/
theorem cutScheme_eq_of_none {cs : List Char} (h : (cutScheme cs).1 = none) :
    cutScheme cs = (none, cs) := by
  have hjoin := cutScheme_join cs
  rw [h, schemeChars, List.nil_append] at hjoin
  exact Prod.ext h hjoin

/-- Where no authority is cut off, nothing is. -/
theorem cutAuthority_eq_of_none {cs : List Char} (h : (cutAuthority cs).1 = none) :
    cutAuthority cs = (none, cs) := by
  have hjoin := cutAuthority_join cs
  rw [h, authorityChars, List.nil_append] at hjoin
  exact Prod.ext h hjoin

/-- A scheme is cut off where there is one. -/
theorem cutScheme_append {scheme cs : List Char} (hne : scheme ≠ []) (hcolon : ':' ∉ scheme)
    (hslash : '/' ∉ scheme) : cutScheme (scheme ++ ':' :: cs) = (some scheme, cs) := by
  have hcut := cutAt_append hcolon (some cs)
  rw [follow] at hcut
  rw [cutScheme, hcut]
  exact if_neg (not_or.mpr ⟨hne, hslash⟩)

/-- What is cut off as a scheme is one. -/
theorem mem_cutScheme {scheme cs : List Char} (h : scheme ∈ (cutScheme cs).1) :
    scheme ≠ [] ∧ ':' ∉ scheme ∧ '/' ∉ scheme := by
  have hcolon := notMem_cutAt ':' cs
  rw [cutScheme] at h
  split at h
  · next first rest hcut =>
    rw [hcut] at hcolon
    split at h
    · cases h
    · next hne =>
      obtain rfl := Option.mem_some.mp h
      rw [not_or] at hne
      exact ⟨hne.1, hcolon, hne.2⟩
  · cases h

/-- An authority is cut off up to its path. -/
theorem cutAuthority_append {authority : Authority} (hhost : '@' ∉ authority.host)
    (hslash : '/' ∉ authority.chars) {path : List Char}
    (hpath : path = [] ∨ path.head? = some '/') :
    cutAuthority ('/' :: '/' :: (authority.chars ++ path)) = (some authority, path) := by
  have hfollow : ∃ rest, path = follow '/' rest := by
    cases path with
    | nil => exact ⟨none, rfl⟩
    | cons c cs =>
      simp only [reduceCtorEq, List.head?_cons, Option.some.injEq, false_or] at hpath
      exact ⟨some cs, hpath ▸ rfl⟩
  obtain ⟨rest, rfl⟩ := hfollow
  rw [cutAuthority, cutAt_append hslash, Authority.ofChars_chars hhost]

namespace UriParts

/-- The components of a text. -/
def ofChars (cs : List Char) : UriParts :=
  let beforeFragment := cutAt '#' cs
  let beforeQuery := cutAt '?' beforeFragment.1
  let afterScheme := cutScheme beforeQuery.1
  let afterAuthority := cutAuthority afterScheme.2
  { scheme := afterScheme.1
    authority := afterAuthority.1
    path := afterAuthority.2
    query := beforeQuery.2
    fragment := beforeFragment.2 }

/-- The text up to its query. -/
def hier (p : UriParts) : List Char :=
  schemeChars p.scheme ++ (authorityChars p.authority ++ p.path)

/-- The text with these components. -/
def chars (p : UriParts) : List Char :=
  p.hier ++ follow '?' p.query ++ follow '#' p.fragment

/-- Components that a text can have. -/
structure WellFormed (p : UriParts) : Prop where
  scheme : ∀ scheme ∈ p.scheme, scheme ≠ [] ∧ ':' ∉ scheme ∧ '/' ∉ scheme
  host : ∀ authority ∈ p.authority, '@' ∉ authority.host
  authority : ∀ authority ∈ p.authority, '/' ∉ authority.chars
  rooted : p.authority.isSome → p.path = [] ∨ p.path.head? = some '/'
  plain : p.authority = none → (cutAuthority p.path).1 = none
  unnamed : p.scheme = none → (cutScheme (authorityChars p.authority ++ p.path)).1 = none
  hier : '?' ∉ p.hier ∧ '#' ∉ p.hier
  query : ∀ query ∈ p.query, '#' ∉ query

section Components

variable {p : UriParts} {cs : List Char}

/-- The text up to its query is what stands before the first `#` and the first `?`. -/
theorem hier_ofChars (cs : List Char) : (ofChars cs).hier = (cutAt '?' (cutAt '#' cs).1).1 := by
  rw [hier]
  dsimp only [ofChars]
  rw [cutAuthority_join, cutScheme_join]

/-- A text is that of its components. -/
theorem chars_ofChars (cs : List Char) : (ofChars cs).chars = cs := by
  rw [chars, hier_ofChars]
  dsimp only [ofChars]
  rw [cutAt_join, cutAt_join]

/-- The components of a text are components that a text can have. -/
theorem wellFormed_ofChars (cs : List Char) : (ofChars cs).WellFormed := by
  have hauthority : ∀ authority ∈ (ofChars cs).authority, ∃ rest,
      authority = Authority.ofChars (cutAt '/' rest).1 ∧
        (ofChars cs).path = follow '/' (cutAt '/' rest).2 := by
    intro authority h
    dsimp only [ofChars] at h ⊢
    rw [cutAuthority.eq_def] at h ⊢
    split at h
    · next rest _ =>
      obtain rfl := Option.mem_some.mp h
      exact ⟨rest, rfl, rfl⟩
    · cases h
  constructor
  · exact fun scheme h ↦ mem_cutScheme h
  · intro authority h
    obtain ⟨rest, rfl, -⟩ := hauthority authority h
    exact Authority.notMem_host_ofChars _
  · intro authority h
    obtain ⟨rest, rfl, -⟩ := hauthority authority h
    rw [Authority.chars_ofChars]
    exact notMem_cutAt '/' rest
  · intro h
    obtain ⟨authority, hsome⟩ := Option.isSome_iff_exists.mp h
    obtain ⟨rest, -, hpath⟩ := hauthority authority hsome
    rw [hpath]
    cases (cutAt '/' rest).2 with
    | none => exact Or.inl rfl
    | some _ => exact Or.inr rfl
  · intro h
    dsimp only [ofChars] at h ⊢
    rw [cutAuthority_eq_of_none h]
    exact h
  · intro h
    dsimp only [ofChars] at h ⊢
    rw [cutAuthority_join, cutScheme_eq_of_none h]
    exact h
  · rw [hier_ofChars]
    exact ⟨notMem_cutAt '?' _, fun h ↦ notMem_cutAt '#' cs (mem_of_mem_cutAt h)⟩
  · intro query h hmem
    exact notMem_cutAt '#' cs (mem_of_mem_after_cutAt h hmem)

/-- A host has no delimiter of a query or a fragment. -/
theorem WellFormed.notMem_host (h : p.WellFormed) {authority : Authority}
    (ha : p.authority = some authority) : '?' ∉ authority.host ∧ '#' ∉ authority.host := by
  have hmem : ∀ c ∈ authority.host, c ∈ p.hier := by
    intro c hc
    rw [UriParts.hier, ha, authorityChars, List.cons_append, List.cons_append]
    apply List.mem_append_right
    apply List.mem_cons_of_mem
    apply List.mem_cons_of_mem
    exact List.mem_append_left _ (Authority.mem_chars_of_mem_host hc)
  exact ⟨fun hc ↦ h.hier.1 (hmem _ hc), fun hc ↦ h.hier.2 (hmem _ hc)⟩

/-- Well-formed components are those of their text. -/
theorem WellFormed.ofChars_chars (h : p.WellFormed) : ofChars p.chars = p := by
  have hquery : '#' ∉ p.hier ++ follow '?' p.query := by
    rw [List.mem_append, not_or]
    refine ⟨h.hier.2, fun hmem ↦ ?_⟩
    cases hq : p.query with
    | none =>
      rw [hq] at hmem
      cases hmem
    | some query =>
      rw [hq, follow, List.mem_cons] at hmem
      exact h.query query hq (hmem.resolve_left (by decide))
  have hscheme : cutScheme p.hier = (p.scheme, authorityChars p.authority ++ p.path) := by
    rw [UriParts.hier]
    cases hs : p.scheme with
    | none => exact cutScheme_eq_of_none (h.unnamed hs)
    | some scheme =>
      obtain ⟨hne, hcolon, hslash⟩ := h.scheme scheme hs
      rw [schemeChars, List.append_assoc, List.singleton_append]
      exact cutScheme_append hne hcolon hslash
  have hauthority : cutAuthority (authorityChars p.authority ++ p.path) =
      (p.authority, p.path) := by
    cases ha : p.authority with
    | none => exact cutAuthority_eq_of_none (h.plain ha)
    | some authority =>
      exact cutAuthority_append (h.host authority ha) (h.authority authority ha)
        (h.rooted (by rw [ha]; rfl))
  rw [ofChars, chars, cutAt_append hquery]
  dsimp only
  rw [cutAt_append h.hier.1]
  dsimp only
  rw [hscheme]
  dsimp only
  rw [hauthority]

/-- A text with a scheme and two slashes has that scheme, and an authority. -/
theorem ofChars_of_prefix {scheme rest : List Char} (hne : scheme ≠ [])
    (h : ∀ c ∈ scheme, c ∉ [':', '/', '?', '#']) :
    (ofChars (scheme ++ ':' :: '/' :: '/' :: rest)).scheme = some scheme ∧
      (ofChars (scheme ++ ':' :: '/' :: '/' :: rest)).authority =
        some (Authority.ofChars (cutAt '/' (cutAt '?' (cutAt '#' rest).1).1).1) := by
  have hplain : ∀ d ∈ ['?', '#'], ∀ cs, (cutAt d (scheme ++ ':' :: '/' :: '/' :: cs)).1 =
      scheme ++ ':' :: '/' :: '/' :: (cutAt d cs).1 := by
    intro d hd cs
    have hmem : d ∉ scheme ++ [':', '/', '/'] := by
      intro hc
      obtain hc | hc := List.mem_append.mp hc
      · apply h d hc
        simp only [List.mem_cons, List.not_mem_nil, or_false] at hd ⊢
        tauto
      · have hdelims : ∀ d ∈ ['?', '#'], d ∉ [':', '/', '/'] := by simp
        exact hdelims d hd hc
    have happend := cutAt_append_left hmem cs
    rw [List.append_assoc] at happend
    exact (congrArg Prod.fst happend).trans (List.append_assoc _ _ _)
  have hscheme : ∀ cs, cutScheme (scheme ++ ':' :: '/' :: '/' :: cs) =
      (some scheme, '/' :: '/' :: cs) := by
    intro cs
    apply cutScheme_append hne
    · exact fun hc ↦ h ':' hc (by decide)
    · exact fun hc ↦ h '/' hc (by decide)
  rw [ofChars, hplain '#' (by decide), hplain '?' (by decide), hscheme]
  exact ⟨rfl, rfl⟩

end Components

end UriParts

end Daku.Base
