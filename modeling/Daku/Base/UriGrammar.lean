import Daku.Base.Uri

/-!
# The grammar of URIs

The characters that RFC 3986 allows in each component of a URI.
-/

namespace Daku.Base

/-- A hexadecimal digit. -/
def isHexDigit (c : Char) : Bool :=
  c.isDigit || ('a' ≤ c && c ≤ 'f') || ('A' ≤ c && c ≤ 'F')

/-- Allowed characters and percent-encoded bytes. -/
def isEncoded (allowed : Char → Bool) : List Char → Bool
  | '%' :: a :: b :: cs => isHexDigit a && isHexDigit b && isEncoded allowed cs
  | c :: cs => allowed c && isEncoded allowed cs
  | [] => true

def isUnreserved (c : Char) : Bool := c.isAlphanum || c ∈ ['-', '.', '_', '~']

def isSubDelim (c : Char) : Bool := c ∈ ['!', '$', '&', '\'', '(', ')', '*', '+', ',', ';', '=']

def isPchar (c : Char) : Bool := isUnreserved c || isSubDelim c || c ∈ [':', '@']

/-- Characters of an address in brackets; its numbers are not looked at. -/
def isAddress (cs : List Char) : Bool :=
  (cs.all (fun c ↦ isHexDigit c || c ∈ [':', '.']) && ':' ∈ cs) ||
    (cs.all (fun c ↦ isUnreserved c || isSubDelim c || c = ':') &&
      cs.head?.any fun c ↦ c ∈ ['v', 'V'])

/-- A name, or an address in brackets. -/
def isHost : List Char → Bool
  | '[' :: rest => rest.getLast? = some ']' && isAddress rest.dropLast
  | name => isEncoded (fun c ↦ isUnreserved c || isSubDelim c) name

/-- The host of a host with its port. -/
def hostOf : List Char → List Char
  | '[' :: rest => '[' :: ((cutAt ']' rest).1 ++ [']'])
  | cs => (cutAt ':' cs).1

theorem hostOf_of_name {cs : List Char} (h : cs.head? ≠ some '[') :
    hostOf cs = (cutAt ':' cs).1 := by
  rw [hostOf.eq_def]
  split
  · exact absurd rfl h
  · rfl

/-- A host, and perhaps a port after a colon. -/
structure IsHostPort (cs : List Char) : Prop where
  host : isHost (hostOf cs) = true
  port : ∃ port, cs = hostOf cs ++ follow ':' port ∧ ∀ digits ∈ port, digits.all Char.isDigit

/-- The components of an absolute URI, perhaps with a fragment. -/
structure IsUri (p : UriParts) : Prop where
  scheme : ∃ scheme, p.scheme = some scheme ∧ isScheme scheme = true
  userinfo : ∀ authority ∈ p.authority, ∀ userinfo ∈ authority.userinfo,
    isEncoded (fun c ↦ isUnreserved c || isSubDelim c || c = ':') userinfo = true
  host : ∀ authority ∈ p.authority, IsHostPort authority.host
  path : isEncoded (fun c ↦ isPchar c || c = '/') p.path = true
  query : ∀ query ∈ p.query, isEncoded (fun c ↦ isPchar c || c ∈ ['/', '?']) query = true
  fragment : ∀ fragment ∈ p.fragment,
    isEncoded (fun c ↦ isPchar c || c ∈ ['/', '?']) fragment = true

section NoBlank

/-- A blank, which no URI has. -/
def isBlank (c : Char) : Bool := c ∈ [' ', '\t', '\n']

/-- A kind of characters without blanks. -/
def NoBlank (kind : Char → Bool) : Prop := ∀ c ∈ [' ', '\t', '\n'], kind c = false

variable {kind : Char → Bool} {cs : List Char} {p : UriParts}

instance : Decidable (NoBlank kind) :=
  List.decidableBAll (fun c ↦ kind c = false) _

theorem NoBlank.not_isBlank (hkind : NoBlank kind) {c : Char} (h : kind c = true) :
    isBlank c = false := by
  apply decide_eq_false
  intro hblank
  rw [hkind c hblank] at h
  cases h

/-- Encoded text has no blanks if none is allowed. -/
theorem not_isBlank_of_isEncoded (hkind : NoBlank kind) (h : isEncoded kind cs = true) :
    ∀ c ∈ cs, isBlank c = false := by
  have hhex : NoBlank isHexDigit := by decide
  fun_induction isEncoded kind cs with
  | case1 a b cs ih =>
    simp only [Bool.and_eq_true] at h
    intro c hc
    simp only [List.mem_cons] at hc
    obtain rfl | rfl | rfl | hc := hc
    · rfl
    · exact hhex.not_isBlank h.1.1
    · exact hhex.not_isBlank h.1.2
    · exact ih h.2 c hc
  | case2 c cs _ ih =>
    rw [Bool.and_eq_true] at h
    intro d hd
    obtain rfl | hd := List.mem_cons.mp hd
    · exact hkind.not_isBlank h.1
    · exact ih h.2 d hd
  | case3 => exact fun _ hc ↦ absurd hc List.not_mem_nil

theorem not_isBlank_of_isScheme (h : isScheme cs = true) : ∀ c ∈ cs, isBlank c = false := by
  have hfirst : NoBlank Char.isAlpha := by decide
  have hrest : NoBlank fun d ↦ d.isAlphanum || d ∈ ['+', '-', '.'] := by decide
  cases cs with
  | nil => cases h
  | cons c cs =>
    rw [isScheme, Bool.and_eq_true, List.all_eq_true] at h
    intro d hd
    obtain rfl | hd := List.mem_cons.mp hd
    · exact hfirst.not_isBlank h.1
    · exact hrest.not_isBlank (h.2 d hd)

theorem not_isBlank_of_isAddress (h : isAddress cs = true) : ∀ c ∈ cs, isBlank c = false := by
  have hsix : NoBlank fun c ↦ isHexDigit c || c ∈ [':', '.'] := by decide
  have hfuture : NoBlank fun c ↦ isUnreserved c || isSubDelim c || c = ':' := by decide
  rw [isAddress, Bool.or_eq_true, Bool.and_eq_true, Bool.and_eq_true, List.all_eq_true,
    List.all_eq_true] at h
  intro c hc
  obtain ⟨hall, -⟩ | ⟨hall, -⟩ := h
  · exact hsix.not_isBlank (hall c hc)
  · exact hfuture.not_isBlank (hall c hc)

theorem not_isBlank_of_isHost (h : isHost cs = true) : ∀ c ∈ cs, isBlank c = false := by
  have hname : NoBlank fun c ↦ isUnreserved c || isSubDelim c := by decide
  rw [isHost.eq_def] at h
  split at h
  · next rest =>
    rw [Bool.and_eq_true, decide_eq_true_eq] at h
    intro c hc
    rw [← List.dropLast_append_getLast? _ h.1] at hc
    obtain rfl | hc := List.mem_cons.mp hc
    · rfl
    · obtain hc | hc := List.mem_append.mp hc
      · exact not_isBlank_of_isAddress h.2 c hc
      · rw [List.mem_singleton.mp hc]
        rfl
  · exact not_isBlank_of_isEncoded hname h

theorem IsHostPort.not_isBlank (h : IsHostPort cs) : ∀ c ∈ cs, isBlank c = false := by
  have hdigit : NoBlank Char.isDigit := by decide
  obtain ⟨port, hport, hdigits⟩ := h.port
  intro c hc
  rw [hport] at hc
  obtain hc | hc := List.mem_append.mp hc
  · exact not_isBlank_of_isHost h.host c hc
  · cases port with
    | none => cases hc
    | some digits =>
      obtain rfl | hc := List.mem_cons.mp hc
      · rfl
      · exact hdigit.not_isBlank (List.all_eq_true.mp (hdigits digits rfl) c hc)

/-- What follows a delimiter has no blanks if it is encoded. -/
private theorem not_isBlank_follow {sep : Char} (hsep : isBlank sep = false) (hkind : NoBlank kind)
    {rest : Option (List Char)} (h : ∀ cs ∈ rest, isEncoded kind cs = true) :
    ∀ c ∈ follow sep rest, isBlank c = false := by
  intro c hc
  cases rest with
  | none => cases hc
  | some cs =>
    obtain rfl | hc := List.mem_cons.mp hc
    · exact hsep
    · exact not_isBlank_of_isEncoded hkind (h cs rfl) c hc

private theorem not_isBlank_authorityChars (h : IsUri p) :
    ∀ c ∈ authorityChars p.authority, isBlank c = false := by
  have huserinfo : NoBlank fun c ↦ isUnreserved c || isSubDelim c || c = ':' := by decide
  intro c hc
  cases ha : p.authority with
  | none =>
    rw [ha] at hc
    cases hc
  | some authority =>
    have hhost := (h.host authority ha).not_isBlank
    rw [ha, authorityChars, Authority.chars] at hc
    obtain rfl | hc := List.mem_cons.mp hc
    · rfl
    obtain rfl | hc := List.mem_cons.mp hc
    · rfl
    cases hinfo : authority.userinfo with
    | none =>
      rw [hinfo] at hc
      exact hhost c hc
    | some userinfo =>
      rw [hinfo] at hc
      obtain hc | hc := List.mem_append.mp hc
      · exact not_isBlank_of_isEncoded huserinfo (h.userinfo authority ha userinfo hinfo) c hc
      · obtain rfl | hc := List.mem_cons.mp hc
        · rfl
        · exact hhost c hc

/-- A URI has no blanks. -/
theorem IsUri.not_isBlank (h : IsUri p) : ∀ c ∈ p.chars, isBlank c = false := by
  have hpath : NoBlank fun c ↦ isPchar c || c = '/' := by decide
  have hquery : NoBlank fun c ↦ isPchar c || c ∈ ['/', '?'] := by decide
  obtain ⟨scheme, hscheme, hvalid⟩ := h.scheme
  intro c hc
  rw [UriParts.chars, UriParts.hier, hscheme, schemeChars] at hc
  simp only [List.append_assoc, List.mem_append] at hc
  obtain hc | hc | hc | hc | hc | hc := hc
  · exact not_isBlank_of_isScheme hvalid c hc
  · rw [List.mem_singleton.mp hc]
    rfl
  · exact not_isBlank_authorityChars h c hc
  · exact not_isBlank_of_isEncoded hpath h.path c hc
  · exact not_isBlank_follow rfl hquery h.query c hc
  · exact not_isBlank_follow rfl hquery h.fragment c hc

end NoBlank

end Daku.Base
