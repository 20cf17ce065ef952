import Daku.Base.Uri

/-!
# URLs of the webhook

The policy for webhook URLs and what logs show of a URL, by
`crates/daku-core/src/webhook.rs:44–73, 135–161`.
-/

namespace Daku.Webhook

open Daku.Base

/-- The host that an `http` URL may have on the loopback (`webhook.rs:62–67`). -/
def loopbackHost (authority : String) : String :=
  match stripPrefix "[" authority with
  | some bracketed => (splitChar ']' bracketed).headD ""
  | none => (splitChar ':' authority).headD ""

/-- `webhook_url_allowed` (`webhook.rs:44–73`). -/
def webhookUrlAllowed (url : String) : Bool :=
  let url := trim url
  match stripPrefix "https://" url with
  | some rest =>
    if rest = "" ∨ rest.toList.any (· ∈ [' ', '\t', '\n']) then false
    else
      let authority := (splitChar '/' rest).headD ""
      !(containsChar '@' authority || authority = "")
  | none =>
    match stripPrefix "http://" url with
    | some rest =>
      let authority := (splitChar '/' rest).headD ""
      if containsChar '@' authority then false
      else loopbackHost authority ∈ ["127.0.0.1", "localhost", "::1"]
    | none => false

/-- Where a query or a fragment begins. -/
def isQueryOrFragment (c : Char) : Bool := c = '?' || c = '#'

/-- `redacted_url` (`webhook.rs:140–161`). -/
def redactedUrl (url : String) : String :=
  match splitOnce "://" (trim url) with
  | none => "<unparseable>"
  | some (scheme, rest) =>
    let authority := (splitChar '/' rest).headD ""
    if authority = "" then "<unparseable>"
    else
      let afterUserinfo := ((splitChar '@' authority).getLast?).getD ""
      let host := ((splitWhere isQueryOrFragment afterUserinfo.toList).map String.ofList).headD ""
      if host = "" then "<unparseable>" else s!"{scheme}://{host}"

example : redactedUrl "https://user:pw@h.example:8443/p?q#f" = "https://h.example:8443" := by
  decide +kernel

/-- What should be shown of a URL: its scheme and its host with the port. -/
def schemeAndHost (scheme host : List Char) : String :=
  if host = [] then "<unparseable>" else String.ofList (scheme ++ ("://".toList ++ host))

section Redacted

variable {p : UriParts} {scheme : List Char} {authority : Authority} {url : String}

/-- What follows the authority up to the next slash; nothing if there is a path. -/
def beforeSlash (p : UriParts) : List Char :=
  (cutAt '/' (p.path ++ (follow '?' p.query ++ follow '#' p.fragment))).1

/-- A URL with an authority, cut at `://` and at the next slash. -/
theorem chars_of_authority (hscheme : p.scheme = some scheme)
    (hauthority : p.authority = some authority) :
    p.chars = scheme ++ ("://".toList ++ (authority.chars ++
      (p.path ++ (follow '?' p.query ++ follow '#' p.fragment)))) := by
  simp [UriParts.chars, UriParts.hier, hscheme, hauthority, schemeChars, authorityChars]

/-- What `redacted_url` shows of a URL. -/
theorem redactedUrl_eq (hspace : ∀ c ∈ url.toList, isUnicodeSpace c = false)
    (hscheme : (UriParts.ofChars url.toList).scheme = some scheme)
    (hauthority : (UriParts.ofChars url.toList).authority = some authority) :
    redactedUrl url = schemeAndHost scheme ((Authority.ofChars
      (authority.chars ++ beforeSlash (UriParts.ofChars url.toList))).host.takeWhile
        fun c ↦ !isQueryOrFragment c) := by
  have hwf := UriParts.wellFormed_ofChars url.toList
  have hchars := UriParts.chars_ofChars url.toList
  generalize UriParts.ofChars url.toList = p at *
  have hcolon := (hwf.scheme scheme hscheme).2.1
  have hslash := hwf.authority authority hauthority
  rw [chars_of_authority hscheme hauthority] at hchars
  have hcut : cutAtText "://".toList url.toList = some (scheme, authority.chars ++
      (p.path ++ (follow '?' p.query ++ follow '#' p.fragment))) := by
    rw [← hchars]
    exact cutAtText_append hcolon
  have hfirst := cutAt_append_left hslash (p.path ++ (follow '?' p.query ++ follow '#' p.fragment))
  rw [redactedUrl, trim_of_noSpace hspace, splitOnce, hcut, Option.map_some]
  dsimp only
  have hlast :
      ((splitChar '@' (String.ofList (authority.chars ++ beforeSlash p))).getLast?).getD "" =
        String.ofList (Authority.ofChars (authority.chars ++ beforeSlash p)).host := by
    rw [splitChar, List.getLast?_map, String.toList_ofList, Authority.getLast?_splitChars_at]
    rfl
  rw [splitChar_headD, String.toList_ofList, hfirst]
  dsimp only
  rw [← beforeSlash, hlast, String.toList_ofList, headD_map_splitWhere, schemeAndHost]
  by_cases hnone : authority.chars ++ beforeSlash p = []
  · rw [hnone, if_pos (String.ofList_eq_empty_iff.mpr rfl), if_pos (by rfl)]
  · rw [if_neg (String.ofList_eq_empty_iff.not.mpr hnone)]
    by_cases hhost : (Authority.ofChars (authority.chars ++ beforeSlash p)).host.takeWhile
        (fun c ↦ !isQueryOrFragment c) = []
    · rw [hhost, if_pos (String.ofList_eq_empty_iff.mpr rfl), if_pos rfl]
    · rw [if_neg (String.ofList_eq_empty_iff.not.mpr hhost), if_neg hhost]
      show toString (String.ofList scheme) ++ "://" ++ toString (String.ofList _) = _
      rw [String.ofList_append, String.ofList_append, String.ofList_toList, String.append_assoc]
      rfl

/-- Without a path, what follows the authority begins a query or a fragment. -/
theorem beforeSlash_eq_or (hrooted : p.path = [] ∨ p.path.head? = some '/') :
    beforeSlash p = [] ∨ ∃ c cs, beforeSlash p = c :: cs ∧ isQueryOrFragment c = true := by
  rw [beforeSlash]
  obtain hpath | hpath := hrooted
  · rw [hpath, List.nil_append]
    cases p.query with
    | some query => exact Or.inr ⟨'?', _, rfl, rfl⟩
    | none =>
      cases p.fragment with
      | some fragment => exact Or.inr ⟨'#', _, rfl, rfl⟩
      | none => exact Or.inl rfl
  · obtain ⟨rest, hrest⟩ := List.head?_eq_some_iff.mp hpath
    rw [hrest]
    exact Or.inl rfl

/-- Nothing after the authority is taken for the host: there is no `@` before the next slash, or
what follows the last one happens to be the host. -/
def HostShown (p : UriParts) (authority : Authority) : Prop :=
  '@' ∉ beforeSlash p ∨ (Authority.ofChars (beforeSlash p)).host.takeWhile
    (fun c ↦ !isQueryOrFragment c) = authority.host

/-- A host is shown up to what follows it. -/
private theorem takeWhile_host {host cs : List Char} (hquery : '?' ∉ host) (hfragment : '#' ∉ host)
    (hcs : cs = [] ∨ ∃ c cs', cs = c :: cs' ∧ isQueryOrFragment c = true) :
    (host ++ cs).takeWhile (fun c ↦ !isQueryOrFragment c) = host := by
  have hhost : ∀ c ∈ host, (!isQueryOrFragment c) = true := by
    intro c hc
    have hne : c ≠ '?' ∧ c ≠ '#' := ⟨fun h ↦ hquery (h ▸ hc), fun h ↦ hfragment (h ▸ hc)⟩
    simp [isQueryOrFragment, hne]
  rw [List.takeWhile_append_of_pos hhost]
  obtain rfl | ⟨c, cs', rfl, hc⟩ := hcs
  · simp
  · simp [hc]

/-- Different hosts are shown differently. -/
private theorem schemeAndHost_inj (hscheme : isScheme scheme = true) {host host' : List Char} :
    schemeAndHost scheme host = schemeAndHost scheme host' ↔ host = host' := by
  have hne : ∀ host : List Char,
      "<unparseable>" ≠ String.ofList (scheme ++ ("://".toList ++ host)) := by
    intro host h
    cases scheme with
    | nil => cases hscheme
    | cons c cs =>
      have hchars : '<' :: "unparseable>".toList = c :: (cs ++ ("://".toList ++ host)) :=
        (congrArg String.toList h).trans String.toList_ofList
      have hc : '<' = c := (List.cons.inj hchars).1
      rw [← hc] at hscheme
      cases hscheme
  rw [schemeAndHost, schemeAndHost]
  by_cases hhost : host = [] <;> by_cases hhost' : host' = []
  · simp [hhost, hhost']
  · rw [if_pos hhost, if_neg hhost', hhost, iff_false_left (hne host')]
    exact Ne.symm hhost'
  · rw [if_neg hhost, if_pos hhost', hhost', iff_false_left (hne host).symm]
    exact hhost
  · rw [if_neg hhost, if_neg hhost', String.ofList_inj]
    simp

/-- `redacted_url` shows the scheme and the host exactly if nothing is taken for the host. -/
theorem redactedUrl_eq_iff (hspace : ∀ c ∈ url.toList, isUnicodeSpace c = false)
    (hscheme : (UriParts.ofChars url.toList).scheme = some scheme)
    (hvalid : isScheme scheme = true)
    (hauthority : (UriParts.ofChars url.toList).authority = some authority) :
    redactedUrl url = schemeAndHost scheme authority.host ↔
      HostShown (UriParts.ofChars url.toList) authority := by
  have hwf := UriParts.wellFormed_ofChars url.toList
  rw [redactedUrl_eq hspace hscheme hauthority, schemeAndHost_inj hvalid]
  generalize UriParts.ofChars url.toList = p at *
  have hhost := hwf.host authority hauthority
  have hhier := hwf.notMem_host hauthority
  have hrooted := hwf.rooted (by rw [hauthority]; rfl)
  by_cases hat : '@' ∈ beforeSlash p
  · rw [Authority.host_ofChars_append_of_mem hat, HostShown]
    simp [hat]
  · rw [Authority.host_ofChars_append hhost hat, HostShown,
      takeWhile_host hhier.1 hhier.2 (beforeSlash_eq_or hrooted)]
    simp [hat]

end Redacted

end Daku.Webhook
