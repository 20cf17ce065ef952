import Daku.Webhook.Urls

/-!
# Scrubbed log lines

The log lines of a diagnostics bundle, by `crates/daku-core/src/diagnostics.rs:26–63`: URLs keep
their scheme and host, and carriers of secrets their key.
-/

namespace Daku.Diagnostics

open Daku.Base Daku.Webhook

/-- The keys of secrets (`diagnostics.rs:38–47`). -/
def secretKeys : List String := ["token", "secret", "password", "passwd", "auth", "credential",
  "access_token", "api_key", "apikey", "client_secret"]

/-- One token of a line (`diagnostics.rs:33–54`). -/
def scrubToken (token : String) : String :=
  if containsText "://" token then redactedUrl token
  else
    match cutAt '=' token.toList with
    | (key, some _) =>
      if toAsciiLowercase (String.ofList key) ∈ secretKeys then String.ofList key ++ "=…" else token
    | (_, none) => token

/-- The joined tokens, cut to 300 characters where they have more bytes. -/
def limitLine (joined : String) : String :=
  if 300 < joined.utf8ByteSize then String.ofList (joined.toList.take 299) ++ "…" else joined

/-- `scrub_log_line` (`diagnostics.rs:30–63`). -/
def scrubLogLine (line : String) : String :=
  limitLine (String.intercalate " " ((splitWhitespace line).map scrubToken))

example : scrubLogLine "refresh token=CANARY-9 user=alice" = "refresh token=… user=alice" := by
  decide +kernel

/-- A token that carries a secret after this key. -/
def IsSecret (token : String) (key : List Char) : Prop :=
  toAsciiLowercase (String.ofList key) ∈ secretKeys ∧
    ∃ value, cutAt '=' token.toList = (key, some value)

/-- A token that is an absolute URL with this scheme and this authority. -/
def IsUrl (token : String) (scheme : List Char) (authority : Authority) : Prop :=
  (UriParts.ofChars token.toList).scheme = some scheme ∧ isScheme scheme = true ∧
    (UriParts.ofChars token.toList).authority = some authority

/-- A scrubbed token keeps only the key of a secret and only the scheme and the host of a URL. -/
structure Keeps (token scrubbed : String) : Prop where
  secret : ∀ key, IsSecret token key → scrubbed = String.ofList key ++ "=…"
  url : ∀ scheme authority, IsUrl token scheme authority →
    scrubbed = schemeAndHost scheme authority.host

/-- A secret has no `://` in it, and nothing after the authority of a URL is taken for its host. -/
structure Harmless (token : String) : Prop where
  secret : ∀ key, IsSecret token key → containsText "://" token = false
  url : ∀ scheme authority, IsUrl token scheme authority →
    HostShown (UriParts.ofChars token.toList) authority

/-- The tokens differ at most in what is to be hidden. -/
def SameShown (token token' : String) : Prop :=
  token = token' ∨ (∃ key, IsSecret token key ∧ IsSecret token' key) ∨
    ∃ scheme authority authority', IsUrl token scheme authority ∧ IsUrl token' scheme authority' ∧
      authority.host = authority'.host

section Tokens

variable {token token' : String} {key scheme : List Char} {authority : Authority}

/-- A URL contains `://`. -/
theorem IsUrl.containsText (h : IsUrl token scheme authority) :
    containsText "://" token = true := by
  have hchars := UriParts.chars_ofChars token.toList
  rw [chars_of_authority h.1 h.2.2] at hchars
  exact containsText_iff.mpr ⟨scheme, _, (List.append_assoc _ _ _).trans hchars⟩

/-- No key of a secret has a colon. -/
private theorem notMem_key (h : IsSecret token key) : ':' ∉ key := by
  intro hmem
  have hkeys : ∀ k ∈ secretKeys, ':' ∉ k.toList := by decide
  apply hkeys _ h.1
  rw [toAsciiLowercase, String.toList_ofList, String.toList_ofList]
  exact List.mem_map.mpr ⟨':', hmem, rfl⟩

/-- A redacted URL has a colon, if it could be read. -/
private theorem redactedUrl_shape (url : String) :
    redactedUrl url = "<unparseable>" ∨ ':' ∈ (redactedUrl url).toList := by
  rw [redactedUrl]
  split
  · exact Or.inl rfl
  · next scheme rest _ =>
    dsimp only
    split
    · exact Or.inl rfl
    · split
      · exact Or.inl rfl
      · apply Or.inr
        simp [toString]

/-- A redacted URL is no scrubbed secret. -/
private theorem redactedUrl_ne (h : IsSecret token key) :
    redactedUrl token ≠ String.ofList key ++ "=…" := by
  intro heq
  obtain hshape | hshape := redactedUrl_shape token
  · have hmem : '=' ∈ "<unparseable>".toList := by
      rw [← hshape, heq, String.toList_append]
      exact List.mem_append_right _ (by decide)
    exact absurd hmem (by decide)
  · rw [heq, String.toList_append, String.toList_ofList] at hshape
    obtain hkey | hend := List.mem_append.mp hshape
    · exact notMem_key h hkey
    · exact absurd hend (by decide)

/-- A token keeps only what may be shown exactly if it is harmless. -/
theorem keeps_scrubToken_iff (hspace : ∀ c ∈ token.toList, isUnicodeSpace c = false) :
    Keeps token (scrubToken token) ↔ Harmless token := by
  have hsecret : ∀ key, IsSecret token key →
      (scrubToken token = String.ofList key ++ "=…" ↔ containsText "://" token = false) := by
    intro key h
    obtain ⟨hkey, value, hcut⟩ := h
    rw [scrubToken]
    cases hcontains : Base.containsText "://" token with
    | true =>
      rw [if_pos rfl]
      exact iff_of_false (redactedUrl_ne ⟨hkey, value, hcut⟩) Bool.noConfusion
    | false =>
      rw [if_neg Bool.noConfusion, hcut]
      dsimp only
      rw [if_pos hkey]
      exact iff_of_true rfl rfl
  have hurl : ∀ scheme authority, IsUrl token scheme authority →
      (scrubToken token = schemeAndHost scheme authority.host ↔
        HostShown (UriParts.ofChars token.toList) authority) := by
    intro scheme authority h
    rw [scrubToken, if_pos h.containsText]
    exact redactedUrl_eq_iff hspace h.1 h.2.1 h.2.2
  constructor
  · intro h
    exact ⟨fun key hkey ↦ (hsecret key hkey).mp (h.secret key hkey),
      fun scheme authority hparts ↦
        (hurl scheme authority hparts).mp (h.url scheme authority hparts)⟩
  · intro h
    exact ⟨fun key hkey ↦ (hsecret key hkey).mpr (h.secret key hkey),
      fun scheme authority hparts ↦
        (hurl scheme authority hparts).mpr (h.url scheme authority hparts)⟩

/-- What harmless tokens are scrubbed to does not depend on what is to be hidden. -/
theorem scrubToken_eq_of_sameShown (h : SameShown token token')
    (hkeeps : Keeps token (scrubToken token)) (hkeeps' : Keeps token' (scrubToken token')) :
    scrubToken token = scrubToken token' := by
  obtain rfl | ⟨key, hkey, hkey'⟩ | ⟨scheme, authority, authority', hurl, hurl', hhost⟩ := h
  · rfl
  · rw [hkeeps.secret key hkey, hkeeps'.secret key hkey']
  · rw [hkeeps.url scheme authority hurl, hkeeps'.url scheme authority' hurl', hhost]

end Tokens

/-- A text has at most as many characters as bytes. -/
private theorem length_toList_le_utf8ByteSize (s : String) : s.toList.length ≤ s.utf8ByteSize := by
  suffices H : ∀ cs : List Char, cs.length ≤ (String.ofList cs).utf8ByteSize by
    have hs := H s.toList
    rwa [String.ofList_toList] at hs
  intro cs
  induction cs with
  | nil => exact Nat.zero_le _
  | cons c cs ih =>
    have hc := Char.utf8Size_pos c
    rw [String.ofList_cons, String.utf8ByteSize_append, String.utf8ByteSize_singleton,
      List.length_cons]
    omega

/-- A scrubbed line has at most 300 characters. -/
theorem length_limitLine (joined : String) : (limitLine joined).toList.length ≤ 300 := by
  have hbytes := length_toList_le_utf8ByteSize joined
  rw [limitLine]
  split
  · rw [String.toList_append, String.toList_ofList, List.length_append, List.length_take]
    have hend : "…".toList.length = 1 := rfl
    omega
  · omega

/-- Lines of harmless tokens that differ in what is to be hidden have the same scrubbed tokens. -/
theorem map_scrubToken_eq {tokens tokens' : List String}
    (h : List.Forall₂ SameShown tokens tokens')
    (hkeeps : ∀ token ∈ tokens, Keeps token (scrubToken token))
    (hkeeps' : ∀ token ∈ tokens', Keeps token (scrubToken token)) :
    tokens.map scrubToken = tokens'.map scrubToken := by
  induction h with
  | nil => rfl
  | cons hsame _ ih =>
    rw [List.forall_mem_cons] at hkeeps hkeeps'
    rw [List.map_cons, List.map_cons, scrubToken_eq_of_sameShown hsame hkeeps.1 hkeeps'.1,
      ih hkeeps.2 hkeeps'.2]

/-- A scrubbed line keeps only the keys of secrets and the schemes and hosts of URLs exactly if
its tokens are harmless; then it is the same for lines that differ in what is to be hidden, and it
has at most 300 characters in any case. -/
theorem scrub_hides_iff (line : String) :
    ((∀ token ∈ splitWhitespace line, Keeps token (scrubToken token)) ↔
        ∀ token ∈ splitWhitespace line, Harmless token) ∧
      (∀ line', List.Forall₂ SameShown (splitWhitespace line) (splitWhitespace line') →
        (∀ token ∈ splitWhitespace line, Harmless token) →
        (∀ token ∈ splitWhitespace line', Harmless token) →
        scrubLogLine line = scrubLogLine line') ∧
      (scrubLogLine line).toList.length ≤ 300 := by
  have hiff : ∀ line : String, ∀ token ∈ splitWhitespace line,
      (Keeps token (scrubToken token) ↔ Harmless token) :=
    fun line token htoken ↦ keeps_scrubToken_iff (noSpace_of_mem_splitWhitespace htoken)
  refine ⟨forall₂_congr (hiff line), fun line' hsame hline hline' ↦ ?_, length_limitLine _⟩
  have htokens := map_scrubToken_eq hsame
    (fun token htoken ↦ (hiff line token htoken).mpr (hline token htoken))
    (fun token htoken ↦ (hiff line' token htoken).mpr (hline' token htoken))
  rw [scrubLogLine, scrubLogLine, htokens]

/-- A password after its key. -/
private theorem isSecret_password {token : String} (value : List Char)
    (hcut : cutAt '=' token.toList = ("password".toList, some value)) :
    IsSecret token "password".toList := by
  have hkey : toAsciiLowercase (String.ofList "password".toList) ∈ secretKeys := by decide +kernel
  exact ⟨hkey, value, hcut⟩

theorem scrub_hides_in_one_line :
    scrubLogLine "probe password=hunter2" = scrubLogLine "probe  password=letmein" := by
  have hwords : splitWhitespace "probe password=hunter2" = ["probe", "password=hunter2"] := by
    decide +kernel
  have hwords' : splitWhitespace "probe  password=letmein" = ["probe", "password=letmein"] := by
    decide +kernel
  have hsame : SameShown "password=hunter2" "password=letmein" :=
    Or.inr (Or.inl ⟨"password".toList, isSecret_password "hunter2".toList
      (by decide +kernel), isSecret_password "letmein".toList (by decide +kernel)⟩)
  have hharmless : ∀ token ∈ ["probe", "password=hunter2", "password=letmein"], Harmless token := by
    intro token htoken
    have hplain : containsText "://" token = false := by
      revert token
      decide +kernel
    refine ⟨fun key _ ↦ hplain, fun scheme authority hurl ↦ ?_⟩
    rw [hurl.containsText] at hplain
    cases hplain
  refine (scrub_hides_iff "probe password=hunter2").2.1 "probe  password=letmein" ?_ ?_ ?_
  · rw [hwords, hwords']
    exact .cons (Or.inl rfl) (.cons hsame .nil)
  · rw [hwords]
    exact fun token htoken ↦ hharmless token (by simp at htoken ⊢; tauto)
  · rw [hwords']
    exact fun token htoken ↦ hharmless token (by simp at htoken ⊢; tauto)

/-- A secret with `://` in it and an `@` in a query are shown. -/
theorem scrub_leaks :
    (List.Forall₂ SameShown (splitWhitespace "password=hunter2://x")
        (splitWhitespace "password=letmein") ∧
      scrubLogLine "password=hunter2://x" = "password=hunter2://x" ∧
      scrubLogLine "password=letmein" = "password=…") ∧
    List.Forall₂ SameShown (splitWhitespace "https://h.example?user=a@hunter2")
        (splitWhitespace "https://h.example") ∧
      scrubLogLine "https://h.example?user=a@hunter2" = "https://hunter2" ∧
      scrubLogLine "https://h.example" = "https://h.example" := by
  have hwords : splitWhitespace "password=hunter2://x" = ["password=hunter2://x"] ∧
      splitWhitespace "password=letmein" = ["password=letmein"] ∧
      splitWhitespace "https://h.example?user=a@hunter2" = ["https://h.example?user=a@hunter2"] ∧
      splitWhitespace "https://h.example" = ["https://h.example"] := by
    decide +kernel
  have hsecret : SameShown "password=hunter2://x" "password=letmein" :=
    Or.inr (Or.inl ⟨"password".toList, isSecret_password "hunter2://x".toList
      (by decide +kernel), isSecret_password "letmein".toList (by decide +kernel)⟩)
  have hurl : ∀ token ∈ ["https://h.example?user=a@hunter2", "https://h.example"],
      IsUrl token "https".toList ⟨none, "h.example".toList⟩ := by
    have hparts : ∀ token ∈ ["https://h.example?user=a@hunter2", "https://h.example"],
        (UriParts.ofChars token.toList).scheme = some "https".toList ∧
          isScheme "https".toList = true ∧
          (UriParts.ofChars token.toList).authority = some ⟨none, "h.example".toList⟩ := by
      decide +kernel
    exact hparts
  have hshown : SameShown "https://h.example?user=a@hunter2" "https://h.example" :=
    Or.inr (Or.inr ⟨_, _, _, hurl _ List.mem_cons_self,
      hurl _ (List.mem_cons_of_mem _ List.mem_cons_self), rfl⟩)
  rw [hwords.1, hwords.2.1, hwords.2.2.1, hwords.2.2.2]
  exact ⟨⟨.cons hsecret .nil, by decide +kernel, by decide +kernel⟩, .cons hshown .nil,
    by decide +kernel, by decide +kernel⟩

end Daku.Diagnostics
