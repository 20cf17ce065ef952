import Daku.Base.Uri
import Daku.Desktop.DrillIn
import Daku.Signals.NoFalseHealthy

/-!
# Stored URLs

Three Signals store a URL without its query and its fragment, by
`crates/daku-core/src/signal_eval.rs:27–32`: `outbound.rs:30–57` and `transaction.rs:47–72` those of
the rows of a response, and `http_probe.rs:68–103` the configured one. The desktop shows what
`src/dashboard_state.rs:2231–2246` takes for the host.
-/

namespace Daku.Signals

open Daku.Base Daku.Protocol Daku.Http Daku.Collector Daku.Desktop

/-- The Signals that store a URL. -/
inductive UrlSignal where
  | outbound
  | slowTxn
  | httpProbe
  deriving DecidableEq, Repr

namespace UrlSignal

/-- The Signal with its probe. -/
def voting : UrlSignal → VotingSignal
  | outbound => .outbound
  | slowTxn => .slowTxn
  | httpProbe => .httpProbe

/-- The JSON objects of an observation that have a URL. -/
def entries (o : Observation) : UrlSignal → List Value
  | outbound => ((o.payload.get "failure_rows").bind Value.asArray).getD []
  | slowTxn => ((o.payload.get "slow_rows").bind Value.asArray).getD []
  | httpProbe => [o.payload]

end UrlSignal

/-- The URL of a stored object is this one of a row, or the configured one. -/
inductive Stores (x : ProbeInput) (url : String) (entry : Value) : UrlSignal → Prop
  | outbound {row : Value} {o : OutboundRow} (hrow : outboundRow x.codec row = some o)
      (hurl : url = rowText x.codec row "url") (hentry : entry = o.toValue) :
      Stores x url entry .outbound
  | slowTxn {row : Value} {o : SlowRow} (hrow : slowRow x.codec row = some o)
      (hurl : url = rowText x.codec row "url") (hentry : entry = o.toValue) :
      Stores x url entry .slowTxn
  | httpProbe {s : Session} {o : Observation}
      (hprobe : outcome (VotingSignal.httpProbe.probe x) s = .ok o)
      (hurl : url = x.environment.instanceUrl) (hentry : entry = o.payload) :
      Stores x url entry .httpProbe

/-- What the desktop shows of the URL of a stored object (`dashboard_state.rs:1233, 1393`). -/
def urlCell (entry : Value) : String := urlHost (cell entry "url")

/-- The URLs have the same scheme, host, port and path. -/
structure SameLocation (u v : String) : Prop where
  scheme : (UriParts.ofChars u.toList).scheme = (UriParts.ofChars v.toList).scheme
  host : (UriParts.ofChars u.toList).authority.map Authority.host =
    (UriParts.ofChars v.toList).authority.map Authority.host
  path : (UriParts.ofChars u.toList).path = (UriParts.ofChars v.toList).path

/-- The user information of a URL. -/
def userinfo (url : String) : Option (List Char) :=
  (UriParts.ofChars url.toList).authority.bind Authority.userinfo

section Redaction

variable {u v : String}

/-- What is kept is everything up to the query. -/
theorem toList_redactUrl (url : String) :
    (redactUrl url).toList = (UriParts.ofChars url.toList).hier := by
  rw [redactUrl, splitChar_headD, splitChar_headD, UriParts.hier_ofChars, String.toList_ofList,
    String.toList_ofList]

/-- Authorities with one host are told apart by their user information. -/
theorem authorityChars_inj {a b : Option Authority} (ha : ∀ x ∈ a, '@' ∉ x.host)
    (hb : ∀ x ∈ b, '@' ∉ x.host) (hhost : a.map Authority.host = b.map Authority.host) :
    authorityChars a = authorityChars b ↔
      a.bind Authority.userinfo = b.bind Authority.userinfo := by
  cases a with
  | none =>
    rw [Option.map_eq_none_iff.mp hhost.symm]
    exact iff_of_true rfl rfl
  | some a =>
    obtain ⟨b, rfl, hsame⟩ := Option.map_eq_some_iff.mp hhost.symm
    constructor
    · intro h
      have hchars : a.chars = b.chars := (List.cons.inj (List.cons.inj h).2).2
      rw [← Authority.ofChars_chars (ha a rfl), ← Authority.ofChars_chars (hb b rfl), hchars]
    · intro h
      have hchars : a.chars = b.chars := by
        rw [Option.bind_some, Option.bind_some] at h
        rw [Authority.chars, Authority.chars, h, hsame]
      rw [authorityChars, authorityChars, hchars]

/-- Of two URLs for one place the same is kept if they have the same user information, and only
then. -/
theorem redactUrl_eq_iff (h : SameLocation u v) :
    redactUrl u = redactUrl v ↔ userinfo u = userinfo v := by
  have hparts := authorityChars_inj (UriParts.wellFormed_ofChars u.toList).host
    (UriParts.wellFormed_ofChars v.toList).host h.host
  rw [← String.toList_inj, toList_redactUrl, toList_redactUrl, UriParts.hier, UriParts.hier,
    h.scheme, h.path, List.append_cancel_left_eq, List.append_cancel_right_eq, hparts]
  rfl

end Redaction

section Entries

variable {x y : ProbeInput} {u v : String} {entry entry' : Value} {sig sig' : UrlSignal}
  {s : Session} {o : Observation}

private theorem eq_of_keyed {ρ : Type} {codec : Codec} {row : Value} {build : String → ρ} {r : ρ}
    (h : keyed codec row build = some r) : ∃ sysId, r = build sysId := by
  rw [keyed] at h
  split at h
  · cases h
  · exact ⟨_, (Option.some.inj h).symm⟩

/-- The URL that is stored is the redacted one. -/
theorem Stores.get_url (h : Stores x u entry sig) :
    entry.get "url" = some (.string (redactUrl u)) := by
  cases h with
  | outbound hrow hurl hentry =>
    obtain ⟨sysId, rfl⟩ := eq_of_keyed hrow
    rw [hentry, hurl]
    rfl
  | slowTxn hrow hurl hentry =>
    obtain ⟨sysId, rfl⟩ := eq_of_keyed hrow
    rw [hentry, hurl]
    rfl
  | @httpProbe s o hprobe hurl hentry =>
    rw [VotingSignal.probe, Signals.httpProbe] at hprobe
    dsimp only at hprobe
    obtain ⟨response, -, ho⟩ := ok_of_outcome_bind hprobe
    rw [hentry, ← Except.ok.inj ho, hurl]
    rfl

/-- The rows that are kept are built of rows of the response. -/
private theorem exists_row_of_mem {ρ : Type} {codec : Codec} {map : Value → Option ρ}
    {result : Except String HttpResponse} {r : ρ}
    (h : r ∈ (readRowsTolerantly codec map result).1.1) : ∃ row, map row = some r := by
  rw [readRowsTolerantly.eq_def] at h
  split at h
  · cases h
  split at h
  · cases h
  split at h
  · cases h
  · obtain ⟨row, -, hrow⟩ := List.mem_filterMap.mp (List.mem_of_mem_take h)
    exact ⟨row, hrow⟩

/-- Every URL of an observation is stored for that of a row or for the configured one. -/
theorem exists_stores (hprobe : outcome (sig.voting.probe x) s = .ok o) :
    ∀ entry ∈ sig.entries o, ∃ url, Stores x url entry sig := by
  intro entry hentry
  cases sig with
  | outbound =>
    obtain ⟨count, -, hrest⟩ := ok_of_outcome_bind hprobe
    obtain ⟨rows, hrows, ho⟩ := ok_of_outcome_bind hrest
    rw [UrlSignal.entries, ← Except.ok.inj ho] at hentry
    obtain ⟨r, hr, rfl⟩ := List.mem_map.mp hentry
    rw [rowsOf] at hrows
    split at hrows
    · obtain ⟨result, -, hread⟩ := ok_of_outcome_bind hrows
      rw [← Except.ok.inj hread] at hr
      obtain ⟨row, hrow⟩ := exists_row_of_mem hr
      exact ⟨_, .outbound hrow rfl rfl⟩
    · rw [← Except.ok.inj hrows] at hr
      cases hr
  | slowTxn =>
    obtain ⟨avgMs, -, hrest⟩ := ok_of_outcome_bind hprobe
    obtain ⟨rows, hrows, ho⟩ := ok_of_outcome_bind hrest
    rw [UrlSignal.entries, ← Except.ok.inj ho] at hentry
    obtain ⟨r, hr, rfl⟩ := List.mem_map.mp hentry
    rw [slowRowsOf] at hrows
    split at hrows
    · obtain ⟨both, hboth, hfirst⟩ := ok_of_outcome_bind hrows
      obtain ⟨result, -, hread⟩ := ok_of_outcome_bind hboth
      rw [← Except.ok.inj hfirst, ← Except.ok.inj hread] at hr
      obtain ⟨row, hrow⟩ := exists_row_of_mem hr
      exact ⟨_, .slowTxn hrow rfl rfl⟩
    · rw [← Except.ok.inj hrows] at hr
      cases hr
  | httpProbe =>
    rw [UrlSignal.entries, List.mem_singleton] at hentry
    exact ⟨_, .httpProbe hprobe rfl hentry⟩

end Entries

/-- Of two URLs for one place the same is stored and shown exactly if they have the same user
information: neither the query nor the fragment matters, but the user information is kept. -/
theorem stored_urls_iff {x y : ProbeInput} {sig sig' : UrlSignal} {u v : String}
    {entry entry' : Value} (hu : Stores x u entry sig) (hv : Stores y v entry' sig')
    (h : SameLocation u v) :
    (textOf entry "url" = textOf entry' "url" ∧ urlCell entry = urlCell entry') ↔
      userinfo u = userinfo v := by
  have htext : textOf entry "url" = some (redactUrl u) := by
    rw [textOf, hu.get_url]
    rfl
  have htext' : textOf entry' "url" = some (redactUrl v) := by
    rw [textOf, hv.get_url]
    rfl
  have hcell : textOf entry "url" = textOf entry' "url" → urlCell entry = urlCell entry' := by
    intro hsame
    rw [urlCell, urlCell, cell, cell, hsame]
  rw [and_iff_left_of_imp hcell, htext, htext', Option.some.injEq]
  exact redactUrl_eq_iff h

/-- A row of a response with a URL. -/
def rowWithUrl (url : String) : Value := .object [("sys_id", .string "1"), ("url", .string url)]

/-- The stored object of such a row. -/
def storedRow (url : String) : OutboundRow := ⟨"1", redactUrl url, "", ""⟩

theorem stores_rowWithUrl (x : ProbeInput) (url : String) :
    Stores x url (storedRow url).toValue .outbound :=
  .outbound (@rfl _ (outboundRow x.codec (rowWithUrl url))) rfl rfl

/-- Marks in another order, and an `@` in a query, make no difference. -/
theorem stored_urls_without_userinfo :
    (textOf (storedRow "https://h/p?x@y#z").toValue "url" =
        textOf (storedRow "https://h/p#a?b").toValue "url" ∧
      urlCell (storedRow "https://h/p?x@y#z").toValue =
        urlCell (storedRow "https://h/p#a?b").toValue) ↔
      userinfo "https://h/p?x@y#z" = userinfo "https://h/p#a?b" :=
  stored_urls_iff (stores_rowWithUrl sampleInput _) (stores_rowWithUrl sampleInput _)
    ⟨by decide +kernel, by decide +kernel, by decide +kernel⟩

/-- A password in a URL is stored and shown. -/
theorem userinfo_stored :
    Stores sampleInput "https://user:pw@h/p" (storedRow "https://user:pw@h/p").toValue .outbound ∧
      Stores sampleInput "https://h/p" (storedRow "https://h/p").toValue .outbound ∧
      SameLocation "https://user:pw@h/p" "https://h/p" ∧
      textOf (storedRow "https://user:pw@h/p").toValue "url" = some "https://user:pw@h/p" ∧
      textOf (storedRow "https://h/p").toValue "url" = some "https://h/p" ∧
      urlCell (storedRow "https://user:pw@h/p").toValue = "user:pw@h" ∧
      urlCell (storedRow "https://h/p").toValue = "h" := by
  refine ⟨stores_rowWithUrl sampleInput _, stores_rowWithUrl sampleInput _,
    ⟨by decide +kernel, by decide +kernel, by decide +kernel⟩, ?_⟩
  decide +kernel

end Daku.Signals
