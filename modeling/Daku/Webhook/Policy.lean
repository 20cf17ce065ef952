import Daku.Base.UriGrammar
import Daku.Webhook.Urls

/-!
# The policy for webhook URLs

`webhook_url_allowed` against the grammar of URIs, by `crates/daku-core/src/webhook.rs:44–73`:
loopback `http` or any `https`, and never with user information.
-/

namespace Daku.Webhook

open Daku.Base

/-- What the policy permits: no user information, a host, and `https` or `http` on the loopback.
Schemes may be written in capitals. -/
def Permitted (p : UriParts) : Prop :=
  ∃ scheme authority, p.scheme = some scheme ∧ p.authority = some authority ∧
    authority.userinfo = none ∧ hostOf authority.host ≠ [] ∧
    (scheme.map Char.toLower = "https".toList ∨ (scheme.map Char.toLower = "http".toList ∧
      String.ofList (hostOf authority.host) ∈ ["127.0.0.1", "localhost", "[::1]"]))

/-- An `https` URL with a host, a path and no user information. -/
def IsTarget (p : UriParts) : Prop :=
  ∃ scheme authority, p.scheme = some scheme ∧ scheme.map Char.toLower = "https".toList ∧
    p.authority = some authority ∧ authority.userinfo = none ∧ hostOf authority.host ≠ [] ∧
    p.path ≠ []

/-- An `https` URL without a host but with something else before the next slash. -/
def HostMissing (p : UriParts) : Prop :=
  p.scheme = some "https".toList ∧ ∃ authority, p.authority = some authority ∧
    authority.userinfo = none ∧ hostOf authority.host = [] ∧
    authority.host ++ beforeSlash p ≠ [] ∧ '@' ∉ beforeSlash p

section Policy

variable {url : String} {p : UriParts} {scheme rest : List Char} {authority : Authority}

/-- What an `https` URL must have after its scheme. -/
private theorem https_iff (rest : String) :
    (if rest = "" ∨ rest.toList.any (· ∈ [' ', '\t', '\n']) then false
      else
        let authority := (splitChar '/' rest).headD ""
        !(containsChar '@' authority || authority = "")) = true ↔
      (∀ c ∈ rest.toList, isBlank c = false) ∧ '@' ∉ (cutAt '/' rest.toList).1 ∧
        (cutAt '/' rest.toList).1 ≠ [] := by
  have hblank : rest.toList.any (· ∈ [' ', '\t', '\n']) = false ↔
      ∀ c ∈ rest.toList, isBlank c = false := by
    rw [List.any_eq_false]
    exact forall₂_congr fun c _ ↦ Bool.not_eq_true _ ▸ Iff.rfl
  have hempty : rest = "" → (cutAt '/' rest.toList).1 = [] := by
    rintro rfl
    rfl
  dsimp only
  rw [splitChar_headD, containsChar, String.toList_ofList (l := (cutAt '/' rest.toList).1)]
  by_cases hrest : rest = "" ∨ rest.toList.any (· ∈ [' ', '\t', '\n']) = true
  · rw [if_pos hrest]
    refine iff_of_false Bool.noConfusion fun h ↦ ?_
    obtain hrest | hrest := hrest
    · exact h.2.2 (hempty hrest)
    · rw [hblank.mpr h.1] at hrest
      cases hrest
  · rw [if_neg hrest]
    rw [not_or, Bool.not_eq_true] at hrest
    rw [Bool.not_eq_true', Bool.or_eq_false_iff, decide_eq_false_iff_not,
      String.ofList_eq_empty_iff, and_iff_right (hblank.mp hrest.2)]
    simp

private theorem http_iff (rest : String) :
    (let authority := (splitChar '/' rest).headD ""
      if containsChar '@' authority then false
      else decide (loopbackHost authority ∈ ["127.0.0.1", "localhost", "::1"])) = true ↔
      '@' ∉ (cutAt '/' rest.toList).1 ∧
        loopbackHost (String.ofList (cutAt '/' rest.toList).1) ∈
          ["127.0.0.1", "localhost", "::1"] := by
  dsimp only
  rw [splitChar_headD, containsChar, String.toList_ofList]
  by_cases hat : (cutAt '/' rest.toList).1.contains '@' = true
  · rw [if_pos hat]
    exact iff_of_false Bool.noConfusion fun h ↦ h.1 (List.contains_iff_mem.mp hat)
  · rw [if_neg hat, decide_eq_true_iff]
    exact (and_iff_right fun h ↦ hat (List.contains_iff_mem.mpr h)).symm

/-- Which URLs are allowed, by what follows the scheme. -/
theorem webhookUrlAllowed_iff : webhookUrlAllowed url = true ↔
    (∃ rest, (trim url).toList = "https://".toList ++ rest ∧ (∀ c ∈ rest, isBlank c = false) ∧
      '@' ∉ (cutAt '/' rest).1 ∧ (cutAt '/' rest).1 ≠ []) ∨
    (∃ rest, (trim url).toList = "http://".toList ++ rest ∧ '@' ∉ (cutAt '/' rest).1 ∧
      loopbackHost (String.ofList (cutAt '/' rest).1) ∈ ["127.0.0.1", "localhost", "::1"]) := by
  have hdiff : ∀ rest rest' : List Char,
      "https://".toList ++ rest ≠ "http://".toList ++ rest' := by
    intro rest rest' h
    have hfifth := congrArg (fun cs ↦ cs[4]?) h
    cases hfifth
  rw [webhookUrlAllowed]
  cases hsecure : stripPrefix "https://" (trim url) with
  | some rest =>
    have htext := stripPrefix_eq_some.mp hsecure
    refine (https_iff rest).trans ⟨fun h ↦ Or.inl ⟨rest.toList, htext, h⟩, fun h ↦ ?_⟩
    obtain ⟨rest', htext', h⟩ | ⟨rest', htext', -⟩ := h
    · rw [htext] at htext'
      rwa [List.append_cancel_left htext']
    · exact absurd (htext.symm.trans htext') (hdiff _ _)
  | none =>
    have hnone : ∀ rest, (trim url).toList ≠ "https://".toList ++ rest := by
      intro rest htext
      rw [← String.toList_ofList (l := rest)] at htext
      rw [stripPrefix_eq_some.mpr htext] at hsecure
      cases hsecure
    dsimp only
    cases hplain : stripPrefix "http://" (trim url) with
    | some rest =>
      have htext := stripPrefix_eq_some.mp hplain
      refine (http_iff rest).trans ⟨fun h ↦ Or.inr ⟨rest.toList, htext, h⟩, fun h ↦ ?_⟩
      obtain ⟨rest', htext', -⟩ | ⟨rest', htext', h⟩ := h
      · exact absurd htext' (hnone rest')
      · rw [htext] at htext'
        rwa [List.append_cancel_left htext']
    | none =>
      refine iff_of_false Bool.noConfusion fun h ↦ ?_
      obtain ⟨rest, htext, -⟩ | ⟨rest, htext, -⟩ := h
      · exact hnone rest htext
      · rw [← String.toList_ofList (l := rest)] at htext
        rw [stripPrefix_eq_some.mpr htext] at hplain
        cases hplain

/-- What follows the scheme of a URL, up to the next slash. -/
theorem firstPiece_eq (cs : List Char) (hscheme : (UriParts.ofChars cs).scheme = some scheme)
    (hauthority : (UriParts.ofChars cs).authority = some authority) :
    ∃ rest, cs = scheme ++ ("://".toList ++ rest) ∧
      (cutAt '/' rest).1 = authority.chars ++ beforeSlash (UriParts.ofChars cs) := by
  have hchars := UriParts.chars_ofChars cs
  have hslash := (UriParts.wellFormed_ofChars cs).authority authority hauthority
  rw [chars_of_authority hscheme hauthority] at hchars
  exact ⟨_, hchars.symm, congrArg Prod.fst (cutAt_append_left hslash _)⟩

/-- A text that begins like a URL has that scheme and an authority. -/
theorem parts_of_prefix {cs : List Char} (hne : scheme ≠ [])
    (hplain : ∀ c ∈ scheme, c ∉ [':', '/', '?', '#']) (h : cs = scheme ++ ("://".toList ++ rest)) :
    (UriParts.ofChars cs).scheme = some scheme ∧ ∃ authority,
      (UriParts.ofChars cs).authority = some authority ∧
        (cutAt '/' rest).1 = authority.chars ++ beforeSlash (UriParts.ofChars cs) := by
  have hbegin := @UriParts.ofChars_of_prefix scheme rest hne hplain
  have hcs : cs = scheme ++ ':' :: '/' :: '/' :: rest := h
  rw [← hcs] at hbegin
  obtain ⟨rest', hrest, hpiece⟩ := firstPiece_eq cs hbegin.1 hbegin.2
  rw [h] at hrest
  rw [← List.append_cancel_left (List.append_cancel_left hrest)] at hpiece
  exact ⟨hbegin.1, _, hbegin.2, hpiece⟩

/-- An address in brackets is read up to its bracket. -/
private theorem loopbackHost_address {inner t : List Char} (h : ']' ∉ inner) :
    loopbackHost (String.ofList ('[' :: (inner ++ ']' :: t))) = String.ofList inner := by
  have hbegin : stripPrefix "[" (String.ofList ('[' :: (inner ++ ']' :: t))) =
      some (String.ofList (inner ++ ']' :: t)) := by
    rw [stripPrefix_eq_some, String.toList_ofList, String.toList_ofList (l := inner ++ ']' :: t)]
    rfl
  have hcut := cutAt_append h (some t)
  rw [follow] at hcut
  rw [loopbackHost, hbegin]
  dsimp only
  rw [splitChar_headD, String.toList_ofList, hcut]

/-- A name is read up to a colon. -/
private theorem loopbackHost_name {cs : List Char} (h : cs.head? ≠ some '[') :
    loopbackHost (String.ofList cs) = String.ofList (cutAt ':' cs).1 := by
  have hbegin : stripPrefix "[" (String.ofList cs) = none := by
    rw [Option.eq_none_iff_forall_ne_some]
    intro rest hrest
    rw [stripPrefix_eq_some, String.toList_ofList] at hrest
    exact h (congrArg List.head? hrest)
  rw [loopbackHost, hbegin]
  dsimp only
  rw [splitChar_headD, String.toList_ofList]

/-- In brackets only the address of version 6 can be a host. -/
private theorem loopback_of_address {inner : List Char} (hvalid : isHost ('[' :: (inner ++ [']'])))
    (h : String.ofList inner ∈ ["127.0.0.1", "localhost", "::1"]) :
    String.ofList ('[' :: (inner ++ [']'])) ∈ ["127.0.0.1", "localhost", "[::1]"] := by
  have hnames : ∀ name ∈ ["127.0.0.1", "localhost"],
      isHost ('[' :: (name.toList ++ [']'])) = false := by
    decide
  have hname : ∀ name ∈ ["127.0.0.1", "localhost"], String.ofList inner ≠ name := by
    rintro name hname rfl
    have hfalse := hnames _ hname
    rw [String.toList_ofList, hvalid] at hfalse
    cases hfalse
  simp only [List.mem_cons, List.not_mem_nil, or_false] at h
  obtain h | h | h := h
  · exact absurd h (hname _ (by decide))
  · exact absurd h (hname _ (by decide))
  · rw [← String.toList_inj, String.toList_ofList] at h
    rw [h]
    decide

/-- What stands before the first colon of the rest is the name, and not the address of version 6. -/
private theorem loopback_of_name {host t : List Char}
    (ht : t = [] ∨ ∃ c cs, t = c :: cs ∧ isQueryOrFragment c = true)
    (h : String.ofList (cutAt ':' (host ++ t)).1 ∈ ["127.0.0.1", "localhost", "::1"]) :
    String.ofList (cutAt ':' host).1 ∈ ["127.0.0.1", "localhost", "[::1]"] := by
  have hcolon : ':' ∉ (cutAt ':' (host ++ t)).1 := notMem_cutAt ':' _
  have hsame : (cutAt ':' (host ++ t)).1 = (cutAt ':' host).1 := by
    by_cases hmem : ':' ∈ host
    · exact cutAt_append_of_mem hmem t
    · rw [cutAt_append_left hmem] at h ⊢
      rw [cutAt_of_notMem hmem]
      obtain rfl | ⟨c, cs, rfl, hc⟩ := ht
      · exact List.append_nil host
      · -- No name of the loopback has the delimiter of a query or a fragment.
        have hmem : c ∈ host ++ (cutAt ':' (c :: cs)).1 := by
          have hne : c ≠ ':' := fun heq ↦ by
            rw [heq] at hc
            cases hc
          rw [cutAt, if_neg hne]
          exact List.mem_append_right _ List.mem_cons_self
        have hnames : ∀ name ∈ ["127.0.0.1", "localhost", "::1"],
            ∀ c ∈ name.toList, isQueryOrFragment c = false := by
          simp [isQueryOrFragment]
        rw [hnames _ h c (by rwa [String.toList_ofList])] at hc
        cases hc
  rw [hsame] at h hcolon
  simp only [List.mem_cons, List.not_mem_nil, or_false] at h ⊢
  obtain h | h | h := h
  · exact Or.inl h
  · exact Or.inr (Or.inl h)
  · rw [← String.toList_inj, String.toList_ofList] at h
    rw [h] at hcolon
    exact absurd (by decide) hcolon

/-- A host that is allowed over `http` is one of the loopback. -/
theorem loopback_of_host {host t : List Char} (hhost : IsHostPort host)
    (ht : t = [] ∨ ∃ c cs, t = c :: cs ∧ isQueryOrFragment c = true)
    (h : loopbackHost (String.ofList (host ++ t)) ∈ ["127.0.0.1", "localhost", "::1"]) :
    String.ofList (hostOf host) ∈ ["127.0.0.1", "localhost", "[::1]"] := by
  obtain ⟨port, hport, -⟩ := hhost.port
  by_cases hbracket : host.head? = some '['
  · obtain ⟨rest, rfl⟩ := List.head?_eq_some_iff.mp hbracket
    have hvalid := hhost.host
    rw [hport, hostOf, List.cons_append, List.cons_append, List.append_assoc, List.append_assoc,
      List.singleton_append, loopbackHost_address (notMem_cutAt ']' rest)] at h
    rw [hostOf] at hvalid ⊢
    exact loopback_of_address hvalid h
  · have hhead : (host ++ t).head? ≠ some '[' := by
      cases host with
      | cons c cs => exact hbracket
      | nil =>
        obtain rfl | ⟨c, cs, rfl, hc⟩ := ht
        · intro heq
          cases heq
        · intro heq
          rw [Option.some.inj heq] at hc
          cases hc
    rw [loopbackHost_name hhead] at h
    rw [hostOf_of_name hbracket]
    exact loopback_of_name ht h

/-- What follows an authority begins with the delimiter of a query or a fragment. -/
private theorem beforeSlash_cases (cs : List Char)
    (hauthority : (UriParts.ofChars cs).authority = some authority) :
    beforeSlash (UriParts.ofChars cs) = [] ∨ ∃ c rest,
      beforeSlash (UriParts.ofChars cs) = c :: rest ∧ isQueryOrFragment c = true :=
  beforeSlash_eq_or ((UriParts.wellFormed_ofChars cs).rooted (by rw [hauthority]; rfl))

/-- What is between an allowed scheme and the next slash. -/
private theorem parts_of_allowed (h : webhookUrlAllowed url = true) :
    let p := UriParts.ofChars (trim url).toList
    ∃ scheme authority, p.scheme = some scheme ∧ p.authority = some authority ∧
      '@' ∉ authority.chars ++ beforeSlash p ∧
      ((scheme = "https".toList ∧ authority.chars ++ beforeSlash p ≠ []) ∨
        (scheme = "http".toList ∧ loopbackHost (String.ofList (authority.chars ++ beforeSlash p)) ∈
          ["127.0.0.1", "localhost", "::1"])) := by
  have hsecure : ∀ c ∈ "https".toList, c ∉ [':', '/', '?', '#'] := by simp
  have hplain : ∀ c ∈ "http".toList, c ∉ [':', '/', '?', '#'] := by simp
  obtain ⟨rest, htext, -, hat, hne⟩ | ⟨rest, htext, hat, hloopback⟩ := webhookUrlAllowed_iff.mp h
  · obtain ⟨hscheme, authority, hauthority, hpiece⟩ := parts_of_prefix (by decide) hsecure htext
    rw [hpiece] at hat hne
    exact ⟨_, authority, hscheme, hauthority, hat, Or.inl ⟨rfl, hne⟩⟩
  · obtain ⟨hscheme, authority, hauthority, hpiece⟩ := parts_of_prefix (by decide) hplain htext
    rw [hpiece] at hat hloopback
    exact ⟨_, authority, hscheme, hauthority, hat, Or.inr ⟨rfl, hloopback⟩⟩

/-- An `https` URI is allowed if there is something, and no `@`, before the next slash. -/
private theorem allowed_of_https (huri : IsUri (UriParts.ofChars (trim url).toList))
    (hscheme : (UriParts.ofChars (trim url).toList).scheme = some "https".toList)
    (hauthority : (UriParts.ofChars (trim url).toList).authority = some authority)
    (hat : '@' ∉ authority.chars ++ beforeSlash (UriParts.ofChars (trim url).toList))
    (hne : authority.chars ++ beforeSlash (UriParts.ofChars (trim url).toList) ≠ []) :
    webhookUrlAllowed url = true := by
  obtain ⟨rest, htext, hpiece⟩ := firstPiece_eq _ hscheme hauthority
  have hblank := huri.not_isBlank
  rw [UriParts.chars_ofChars, htext] at hblank
  rw [← hpiece] at hat hne
  refine webhookUrlAllowed_iff.mpr (Or.inl ⟨rest, htext, fun c hc ↦ hblank c ?_, hat, hne⟩)
  exact List.mem_append_right _ (List.mem_append_right _ hc)

/-- Without an `@` there is no user information. -/
private theorem userinfo_eq_none (h : '@' ∉ authority.chars) :
    authority.userinfo = none ∧ authority.chars = authority.host := by
  rw [Authority.chars] at h ⊢
  cases hinfo : authority.userinfo with
  | none => exact ⟨rfl, rfl⟩
  | some userinfo =>
    rw [hinfo] at h
    exact absurd (List.mem_append_right _ List.mem_cons_self) h

private theorem chars_eq_host (h : authority.userinfo = none) :
    authority.chars = authority.host := by
  rw [Authority.chars, h]

/-- The policy is met for a URI exactly if it is no `https` URI without a host that has something
else before the next slash, and no `https` URI that is written in capitals. -/
theorem webhook_policy_iff (url : String) (huri : IsUri (UriParts.ofChars (trim url).toList)) :
    ((webhookUrlAllowed url = true → Permitted (UriParts.ofChars (trim url).toList)) ∧
        (IsTarget (UriParts.ofChars (trim url).toList) → webhookUrlAllowed url = true)) ↔
      ¬ HostMissing (UriParts.ofChars (trim url).toList) ∧
        ¬ (IsTarget (UriParts.ofChars (trim url).toList) ∧
          (UriParts.ofChars (trim url).toList).scheme ≠ some "https".toList) := by
  have hwf := UriParts.wellFormed_ofChars (trim url).toList
  constructor
  · rintro ⟨hsound, hcomplete⟩
    constructor
    · rintro ⟨hscheme, authority, hauthority, hinfo, hhost, hne, hat⟩
      have hchars := chars_eq_host hinfo
      have hallowed := allowed_of_https huri hscheme hauthority
        (by rw [hchars, List.mem_append, not_or]; exact ⟨hwf.host authority hauthority, hat⟩)
        (by rwa [hchars])
      obtain ⟨_, authority', -, hauthority', -, hhost', -⟩ := hsound hallowed
      rw [hauthority] at hauthority'
      exact hhost' (Option.some.inj hauthority' ▸ hhost)
    · rintro ⟨htarget, hcapitals⟩
      obtain ⟨scheme, authority, hscheme, -, -, h⟩ := parts_of_allowed (hcomplete htarget)
      obtain ⟨scheme', -, hscheme', hlower, -⟩ := htarget
      rw [hscheme] at hscheme' hcapitals
      obtain rfl := Option.some.inj hscheme'
      obtain ⟨rfl, -⟩ | ⟨rfl, -⟩ := h
      · exact hcapitals rfl
      · exact absurd hlower (by decide)
  · rintro ⟨hmissing, hcapitals⟩
    constructor
    · intro hallowed
      obtain ⟨scheme, authority, hscheme, hauthority, hat, h⟩ := parts_of_allowed hallowed
      rw [List.mem_append, not_or] at hat
      obtain ⟨hinfo, hchars⟩ := userinfo_eq_none hat.1
      rw [hchars] at h
      obtain ⟨rfl, hne⟩ | ⟨rfl, hloopback⟩ := h
      · refine ⟨_, authority, hscheme, hauthority, hinfo, fun hhost ↦ ?_, Or.inl (by decide)⟩
        exact hmissing ⟨hscheme, authority, hauthority, hinfo, hhost, hne, hat.2⟩
      · have hname := loopback_of_host (huri.host authority hauthority)
          (beforeSlash_cases _ hauthority) hloopback
        refine ⟨_, authority, hscheme, hauthority, hinfo, fun hhost ↦ ?_, Or.inr ⟨by decide, hname⟩⟩
        rw [hhost] at hname
        exact absurd hname (by decide)
    · intro htarget
      have hscheme : (UriParts.ofChars (trim url).toList).scheme = some "https".toList := by
        by_contra hne
        exact hcapitals ⟨htarget, hne⟩
      obtain ⟨_, authority, -, -, hauthority, hinfo, hhost, hpath⟩ := htarget
      have hchars := chars_eq_host hinfo
      have hrooted := (hwf.rooted (by rw [hauthority]; rfl)).resolve_left hpath
      have hnothing : beforeSlash (UriParts.ofChars (trim url).toList) = [] := by
        obtain ⟨rest, hrest⟩ := List.head?_eq_some_iff.mp hrooted
        rw [beforeSlash, hrest]
        rfl
      apply allowed_of_https huri hscheme hauthority
      · rw [hchars, hnothing, List.append_nil]
        exact hwf.host authority hauthority
      · rw [hchars, hnothing, List.append_nil]
        intro hempty
        rw [hempty] at hhost
        exact hhost rfl

end Policy

/-- A URL of a host with a path. -/
def hookParts (scheme host : String) : UriParts where
  scheme := some scheme.toList
  authority := some ⟨none, host.toList⟩
  path := "/x".toList
  query := none
  fragment := none

private theorem isUri_hookParts {scheme host : String} (hscheme : isScheme scheme.toList = true)
    (hhost : IsHostPort host.toList) : IsUri (hookParts scheme host) where
  scheme := ⟨_, rfl, hscheme⟩
  userinfo := by
    rintro _ ⟨⟩ _ ⟨⟩
  host := by
    rintro _ ⟨⟩
    exact hhost
  path := by
    show isEncoded _ "/x".toList = true
    decide
  query := by
    rintro _ ⟨⟩
  fragment := by
    rintro _ ⟨⟩

theorem webhook_policy_met :
    let p := UriParts.ofChars (trim " https://hooks.example/x").toList
    (webhookUrlAllowed " https://hooks.example/x" = true → Permitted p) ∧
      (IsTarget p → webhookUrlAllowed " https://hooks.example/x" = true) := by
  have hparts : UriParts.ofChars (trim " https://hooks.example/x").toList =
      hookParts "https" "hooks.example" := by decide +kernel
  have hhost : IsHostPort "hooks.example".toList :=
    ⟨by decide, none, by decide, fun _ h ↦ by cases h⟩
  have huri : IsUri (UriParts.ofChars (trim " https://hooks.example/x").toList) := by
    rw [hparts]
    exact isUri_hookParts (by decide) hhost
  apply (webhook_policy_iff " https://hooks.example/x" huri).mpr
  rw [hparts]
  refine ⟨?_, fun h ↦ h.2 rfl⟩
  rintro ⟨-, authority, hauthority, -, hnone, -⟩
  cases hauthority
  exact absurd hnone (by decide)

/-- A URL without a host is allowed, and one with its scheme in capitals is not. -/
theorem webhook_policy_broken :
    (IsUri (UriParts.ofChars (trim "https://:443/x").toList) ∧
      webhookUrlAllowed "https://:443/x" = true ∧
      ¬ Permitted (UriParts.ofChars (trim "https://:443/x").toList)) ∧
    IsUri (UriParts.ofChars (trim "HTTPS://hooks.example/x").toList) ∧
      IsTarget (UriParts.ofChars (trim "HTTPS://hooks.example/x").toList) ∧
      webhookUrlAllowed "HTTPS://hooks.example/x" = false := by
  have hparts : UriParts.ofChars (trim "https://:443/x").toList = hookParts "https" ":443" := by
    decide +kernel
  have hcapitals : UriParts.ofChars (trim "HTTPS://hooks.example/x").toList =
      hookParts "HTTPS" "hooks.example" := by decide +kernel
  have hport : IsHostPort ":443".toList := by
    refine ⟨by decide, some "443".toList, by decide, fun digits h ↦ ?_⟩
    cases h
    decide
  have hname : IsHostPort "hooks.example".toList :=
    ⟨by decide, none, by decide, fun _ h ↦ by cases h⟩
  rw [hparts, hcapitals]
  refine ⟨⟨isUri_hookParts (by decide) hport, by decide +kernel, ?_⟩,
    isUri_hookParts (by decide) hname,
    ⟨_, _, rfl, by decide, rfl, rfl, by decide, by decide⟩, by decide +kernel⟩
  rintro ⟨_, authority, -, hauthority, -, hhost, -⟩
  cases hauthority
  exact hhost rfl

end Daku.Webhook
