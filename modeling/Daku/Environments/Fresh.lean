import Daku.Environments.TestEnvironment
import Daku.Http.Replies

/-!
# Testing with the Credential that was given

A Test with an explicit Credential on a client that has memos, against the same Test on a new
client. The server takes one secret for the Environment; which secret the probe shows it depends
on the memos of earlier commands (`crates/daku-core/src/servicenow.rs:210–347`).
-/

namespace Daku.Environments

open Daku.Base Daku.Protocol Daku.Http Daku.Signals

/-- The request of the availability probe. -/
def availabilityRequest (environment : EnvironmentConfig) (authorization : String) : HttpRequest :=
  dataRequest environment "GET" glideWarPath none [("Authorization", authorization)]

/-- The server takes one secret for the Environment: a basic header, or the body of a token
request and the tokens issued for it. To these it shows the page, to others a 401. -/
def OneSecret (codec : Codec) (environment : EnvironmentConfig)
    (server : HttpRequest → HttpResponse) (secret : String) (issued : String → Prop)
    (page : HttpResponse) : Prop :=
  page.status ≠ 401 ∧
    match environment.authMethod with
    | .basic => server (availabilityRequest environment secret) = page ∧
        ∀ value, value ≠ secret → (server (availabilityRequest environment value)).status = 401
    | .oauthClientCredentials =>
        ((server (tokenRequest environment secret)).status = 200 ∧ ∃ grant,
          codec.accessGrant (server (tokenRequest environment secret)).body = some grant ∧
            issued grant.accessToken) ∧
        (∀ body, body ≠ secret → (server (tokenRequest environment body)).status = 401) ∧
        (∀ token, issued token →
          server (availabilityRequest environment ("Bearer " ++ token)) = page) ∧
        ∀ token, ¬ issued token →
          (server (availabilityRequest environment ("Bearer " ++ token))).status = 401

/-- What the server makes of a blob. -/
inductive Verdict where
  | unparsed
  | refused
  | accepted
  deriving DecidableEq, Repr

/-- What a server that takes this secret makes of a blob. -/
def verdict (codec : Codec) (environment : EnvironmentConfig) (secret blob : String) : Verdict :=
  let shown := match environment.authMethod with
    | .basic => (codec.basicCred blob).map fun c ↦ basicAuthorization codec c.username c.password
    | .oauthClientCredentials => (codec.oauthCred blob).map tokenBody
  match shown with
  | none => .unparsed
  | some value => if value = secret then .accepted else .refused

/-- A Test with this Credential shows the server no other: what it observes, and what a rotation
makes of it, is as on a new client, and for ServiceNow it reports Reachable only if the blob is
accepted. -/
structure ProbesGiven (codec : Codec) (environment : EnvironmentConfig) (secret given : String)
    (credentials : CredentialStore) (probe : ProbeClock) (s fresh : Session) : Prop where
  reachable : environment.platform = .servicenow → ∀ observation,
    outcome (testEnvironment codec environment (some given) credentials probe) s =
      .ok observation → observation.reachability = .reachable →
        verdict codec environment secret given = .accepted
  same : outcome (testEnvironment codec environment (some given) credentials probe) s =
    outcome (testEnvironment codec environment (some given) credentials probe) fresh
  rotate : outcome (rotateProbe codec environment given credentials probe) s =
    outcome (rotateProbe codec environment given credentials probe) fresh

/-- The memos of the client lead to the verdict on the given blob. -/
def MemosAgree (codec : Codec) (environment : EnvironmentConfig) (secret given : String)
    (issued : String → Prop) (s : Session) : Prop :=
  match environment.authMethod with
  | .basic => ∀ memo, s.credentialBlobs environment.id = some memo →
      verdict codec environment secret memo.value = .refused ∨
        verdict codec environment secret memo.value = verdict codec environment secret given
  | .oauthClientCredentials =>
      (∃ cached, usedToken s.clock s.readings (s.tokens environment.id) = some cached ∧
          issued cached.access.value ∧ verdict codec environment secret given = .accepted) ∨
        ((∀ cached, usedToken s.clock s.readings (s.tokens environment.id) = some cached →
            ¬ issued cached.access.value) ∧
          ∀ memo, s.credentialBlobs environment.id = some memo →
            verdict codec environment secret memo.value = verdict codec environment secret given)

/-- The condition: the command is refused by the checks of its fields, or its probe has no memos,
or they lead to the same verdict. -/
def TestAdmits (codec : Codec) (environment : EnvironmentConfig) (secret given : String)
    (issued : String → Prop) (s : Session) : Prop :=
  (∃ e, validateTest codec environment (some given) = .error e) ∨
    environment.platform ≠ .servicenow ∨ MemosAgree codec environment secret given issued s

/-- The page is one that reads as reachable. -/
def ReadsReachable (codec : Codec) (page : HttpResponse) : Prop :=
  (observed codec .default 0 (.ok page)).reachability = .reachable

section Answers

variable {codec : Codec} {environment : EnvironmentConfig} {server : HttpRequest → HttpResponse}
variable {secret : String} {issued : String → Prop} {page : HttpResponse}

/-- A basic Credential ends the call as its verdict says. -/
theorem basicAnswer_of_verdict (hauth : environment.authMethod = .basic)
    (hserver : OneSecret codec environment server secret issued page) (blob : String) :
    match verdict codec environment secret blob with
    | .unparsed => basicAnswer codec server environment "GET" glideWarPath none blob =
        .error "basic credential JSON"
    | .refused => ∃ r, basicAnswer codec server environment "GET" glideWarPath none blob = .ok r ∧
        r.status = 401
    | .accepted => basicAnswer codec server environment "GET" glideWarPath none blob =
        .ok page := by
  simp only [OneSecret, hauth] at hserver
  obtain ⟨-, haccepts, hrefuses⟩ := hserver
  simp only [verdict, hauth, basicAnswer]
  cases hparsed : codec.basicCred blob with
  | none => rfl
  | some parsed =>
    by_cases hvalue : basicAuthorization codec parsed.username parsed.password = secret
    · simp only [Option.map_some, hvalue, if_true]
      exact congrArg _ haccepts
    · simp only [Option.map_some, hvalue, if_false]
      exact ⟨_, rfl, hrefuses _ hvalue⟩

/-- End of a call with OAuth and no token in use. -/
def oauthEnd (v : Verdict) (environmentId : String) (page : HttpResponse) :
    Except String HttpResponse :=
  match v with
  | .unparsed => .error "oauth credential JSON"
  | .refused => .error s!"oauth_token.do returned HTTP {401} for {environmentId}"
  | .accepted => .ok page

theorem credentialJson_ne_tokenStatus (status : Nat) (environmentId : String) :
    "oauth credential JSON" ≠
      s!"oauth_token.do returned HTTP {status} for {environmentId}" := by
  intro h
  have h := congrArg (fun s : String ↦ s.toList.take 6) h
  simp [toString] at h

/-- An OAuth Credential without a token in use ends the call as its verdict says. -/
theorem oauthGrant_of_verdict (hauth : environment.authMethod = .oauthClientCredentials)
    (hserver : OneSecret codec environment server secret issued page) (blob : String) :
    (oauthGrant codec server environment blob).map
        (bearerReply server environment "GET" glideWarPath none) =
      oauthEnd (verdict codec environment secret blob) environment.id page := by
  simp only [OneSecret, hauth] at hserver
  obtain ⟨-, ⟨h200, grant, hgrant, hissued⟩, hrefuses, hpage, -⟩ := hserver
  simp only [verdict, hauth, oauthGrant]
  cases hparsed : codec.oauthCred blob with
  | none => rfl
  | some parsed =>
    by_cases hbody : tokenBody parsed = secret
    · simp only [Option.map_some, hbody, if_true, h200, ne_eq, not_true, if_false, hgrant]
      exact congrArg _ (hpage _ hissued)
    · have h401 := hrefuses _ hbody
      simp only [Option.map_some, hbody, if_false, h401]
      rfl

/-- How the request of a probe with the given blob ends. -/
def probeEnd (codec : Codec) (server : HttpRequest → HttpResponse)
    (environment : EnvironmentConfig) (given : String) (s : Session) :
    Except String HttpResponse :=
  let memo := (s.credentialBlobs environment.id).map Held.value
  match environment.authMethod with
  | .basic => basicResult codec server environment "GET" glideWarPath none memo given
  | .oauthClientCredentials => oauthResult codec server environment "GET" glideWarPath none
      (usedToken s.clock s.readings (s.tokens environment.id)) (memo.getD given)

theorem request_outcome {given : String} {s : Session} (hserves : Serves server s) :
    outcome (request codec environment (ephemeralStore environment.id given) "GET" glideWarPath
      none) s = probeEnd codec server environment given s := by
  have hget : (ephemeralStore environment.id given).get environment.id = .ok (some given) := by
    simp [ephemeralStore]
  have hwith : With server environment.id (s.tokens environment.id)
      (s.credentialBlobs environment.id) s := ⟨hserves, rfl, rfl⟩
  unfold probeEnd
  cases hauth : environment.authMethod with
  | basic => exact outcome_eq (With.request_basic hauth hget) hwith
  | oauthClientCredentials => exact outcome_eq (At.request_oauth hauth hget rfl) ⟨hwith, rfl, rfl⟩

/-- The end on a client without memos. -/
def freshEnd (codec : Codec) (environment : EnvironmentConfig)
    (server : HttpRequest → HttpResponse) (given : String) : Except String HttpResponse :=
  match environment.authMethod with
  | .basic => basicAnswer codec server environment "GET" glideWarPath none given
  | .oauthClientCredentials => (oauthGrant codec server environment given).map
      (bearerReply server environment "GET" glideWarPath none)

theorem probeEnd_fresh {given : String} {transport : Nat → HttpRequest → Except String HttpResponse}
    {clock : Nat → Nat} :
    probeEnd codec server environment given (Session.new transport clock) =
      freshEnd codec environment server given := by
  unfold probeEnd freshEnd
  cases environment.authMethod with
  | basic =>
    show basicResult _ _ _ _ _ _ none given = _
    rw [basicResult, Option.getD_none]
    cases basicAnswer codec server environment "GET" glideWarPath none given with
    | ok r =>
      simp only
      split <;> rfl
    | error e => rfl
  | oauthClientCredentials => rfl

/-- Where the memos agree with the given blob, the end is that of a new client. -/
theorem probeEnd_of_agree {given : String} {s : Session}
    (hserver : OneSecret codec environment server secret issued page)
    (hagree : MemosAgree codec environment secret given issued s) :
    probeEnd codec server environment given s = freshEnd codec environment server given := by
  have hpage := hserver.1
  unfold MemosAgree at hagree
  unfold probeEnd freshEnd
  cases hauth : environment.authMethod with
  | basic =>
    simp only [hauth] at hagree
    have hgiven := basicAnswer_of_verdict hauth hserver given
    simp only [basicResult]
    cases hmemo : s.credentialBlobs environment.id with
    | none =>
      simp only [Option.map_none, Option.getD_none]
      cases basicAnswer codec server environment "GET" glideWarPath none given with
      | ok r =>
        simp only
        split <;> rfl
      | error e => rfl
    | some memo =>
      have hm := basicAnswer_of_verdict hauth hserver memo.value
      simp only [Option.map_some, Option.getD_some]
      rcases hagree memo hmemo with hrefused | hsame
      · rw [hrefused] at hm
        obtain ⟨r, hr, hstatus⟩ := hm
        simp only [hr, hstatus, if_true]
      · rw [hsame] at hm
        cases hv : verdict codec environment secret given with
        | unparsed =>
          rw [hv] at hm hgiven
          simp only [hm, hgiven]
        | refused =>
          rw [hv] at hm
          obtain ⟨r, hr, hstatus⟩ := hm
          simp only [hr, hstatus, if_true]
        | accepted =>
          rw [hv] at hm hgiven
          simp only [hm, hgiven, hpage, if_false]
  | oauthClientCredentials =>
    simp only [hauth] at hagree
    have hanswer := oauthGrant_of_verdict hauth hserver
    simp only [OneSecret, hauth] at hserver
    obtain ⟨-, -, -, hissues, hrefuses⟩ := hserver
    rcases hagree with ⟨cached, hused, hissued, haccepted⟩ | ⟨hnot, hmemos⟩
    · have hreply : bearerReply server environment "GET" glideWarPath none cached.access.value =
          page := hissues _ hissued
      simp only [hused]
      rw [oauthResult_of_taken (by rwa [hreply]), hreply, hanswer, haccepted]
      rfl
    · have hverdict : verdict codec environment secret
          (((s.credentialBlobs environment.id).map Held.value).getD given) =
            verdict codec environment secret given := by
        cases hmemo : s.credentialBlobs environment.id with
        | none => rfl
        | some memo => exact hmemos memo hmemo
      simp only
      rw [oauthResult_of_refused fun cached hused ↦ hrefuses _ (hnot cached hused), hanswer,
        hanswer, hverdict]

/-- Where they do not, the client shows the page to a blob that is not accepted, or it ends in an
error that is not that of a new client. -/
theorem probeEnd_of_not_agree {given : String} {s : Session}
    (hserver : OneSecret codec environment server secret issued page)
    (hagree : ¬ MemosAgree codec environment secret given issued s) :
    (probeEnd codec server environment given s = .ok page ∧
        verdict codec environment secret given ≠ .accepted) ∨
      ∃ e, probeEnd codec server environment given s = .error e ∧
        freshEnd codec environment server given ≠ .error e := by
  unfold MemosAgree at hagree
  unfold probeEnd freshEnd
  cases hauth : environment.authMethod with
  | basic =>
    simp only [hauth] at hagree
    push Not at hagree
    obtain ⟨memo, hmemo, hrefused, hdiffers⟩ := hagree
    have hm := basicAnswer_of_verdict hauth hserver memo.value
    have hgiven := basicAnswer_of_verdict hauth hserver given
    simp only [basicResult, hmemo, Option.map_some, Option.getD_some]
    cases hv : verdict codec environment secret memo.value with
    | refused => exact absurd hv hrefused
    | accepted =>
      rw [hv] at hm hdiffers
      simp only [hm, hserver.1, if_false]
      exact .inl ⟨trivial, hdiffers.symm⟩
    | unparsed =>
      rw [hv] at hm hdiffers
      simp only [hm]
      refine .inr ⟨_, rfl, fun h ↦ ?_⟩
      cases hg : verdict codec environment secret given with
      | unparsed => exact hdiffers hg.symm
      | refused =>
        rw [hg] at hgiven
        obtain ⟨r, hr, -⟩ := hgiven
        cases h.symm.trans hr
      | accepted =>
        rw [hg] at hgiven
        cases h.symm.trans hgiven
  | oauthClientCredentials =>
    simp only [hauth] at hagree
    have hanswer := oauthGrant_of_verdict hauth hserver
    have hpage := hserver.1
    simp only [OneSecret, hauth] at hserver
    obtain ⟨-, -, -, hissues, hrefuses⟩ := hserver
    by_cases hissued : ∃ cached, usedToken s.clock s.readings (s.tokens environment.id) =
        some cached ∧ issued cached.access.value
    · obtain ⟨cached, hused, hissued⟩ := hissued
      have hreply : bearerReply server environment "GET" glideWarPath none cached.access.value =
          page := hissues _ hissued
      simp only [hused]
      rw [oauthResult_of_taken (by rwa [hreply]), hreply]
      exact .inl ⟨rfl, fun h ↦ hagree (.inl ⟨cached, hused, hissued, h⟩)⟩
    · have hnot : ∀ cached, usedToken s.clock s.readings (s.tokens environment.id) = some cached →
          ¬ issued cached.access.value := fun cached hused h ↦ hissued ⟨cached, hused, h⟩
      obtain ⟨memo, hmemo, hdiffers⟩ : ∃ memo, s.credentialBlobs environment.id = some memo ∧
          verdict codec environment secret memo.value ≠
            verdict codec environment secret given := by
        by_contra h
        push Not at h
        exact hagree (.inr ⟨hnot, h⟩)
      simp only [hmemo, Option.map_some, Option.getD_some]
      rw [oauthResult_of_refused fun cached hused ↦ hrefuses _ (hnot cached hused), hanswer,
        hanswer]
      cases hv : verdict codec environment secret memo.value with
      | accepted => exact .inl ⟨rfl, fun h ↦ hdiffers (hv.trans h.symm)⟩
      | unparsed =>
        refine .inr ⟨_, rfl, ?_⟩
        cases hg : verdict codec environment secret given with
        | unparsed => exact absurd (hv.trans hg.symm) hdiffers
        | refused => exact fun h ↦ credentialJson_ne_tokenStatus _ _ (Except.error.inj h).symm
        | accepted => exact fun h ↦ by cases h
      | refused =>
        refine .inr ⟨_, rfl, ?_⟩
        cases hg : verdict codec environment secret given with
        | unparsed => exact fun h ↦ credentialJson_ne_tokenStatus _ _ (Except.error.inj h)
        | refused => exact absurd (hv.trans hg.symm) hdiffers
        | accepted => exact fun h ↦ by cases h

/-- The end on a new client shows the page exactly to the accepted blob. -/
theorem freshEnd_cases (hserver : OneSecret codec environment server secret issued page)
    (given : String) :
    (verdict codec environment secret given = .accepted ∧
        freshEnd codec environment server given = .ok page) ∨
      (∃ r, freshEnd codec environment server given = .ok r ∧ r.status = 401) ∨
        ∃ e, freshEnd codec environment server given = .error e := by
  unfold freshEnd
  cases hauth : environment.authMethod with
  | basic =>
    have hgiven := basicAnswer_of_verdict hauth hserver given
    cases hv : verdict codec environment secret given with
    | unparsed =>
      rw [hv] at hgiven
      exact .inr (.inr ⟨_, hgiven⟩)
    | refused =>
      rw [hv] at hgiven
      exact .inr (.inl hgiven)
    | accepted =>
      rw [hv] at hgiven
      exact .inl ⟨rfl, hgiven⟩
  | oauthClientCredentials =>
    have hgiven := oauthGrant_of_verdict hauth hserver given
    cases hv : verdict codec environment secret given with
    | accepted =>
      rw [hv] at hgiven
      exact .inl ⟨rfl, hgiven⟩
    | unparsed | refused =>
      rw [hv] at hgiven
      exact .inr (.inr ⟨_, hgiven⟩)

end Answers

section Observations

variable {codec : Codec} {thresholds : Thresholds} {rttMs : Nat}

@[simp] theorem applyRttThreshold_reachability (o : AvailabilityObservation) :
    (applyRttThreshold o thresholds).reachability = o.reachability := by
  simp only [applyRttThreshold]
  split <;> rfl

/-- The ceiling concerns reachable Environments only. -/
theorem applyRttThreshold_of_not_reachable {o : AvailabilityObservation}
    (h : o.reachability ≠ .reachable) : applyRttThreshold o thresholds = o := by
  rw [applyRttThreshold]
  exact if_pos (.inl h)

theorem observed_error (e : String) :
    observed codec thresholds rttMs (.error e) = ⟨.unreachable, .down, none, rttMs, some e⟩ := by
  show applyRttThreshold ⟨.unreachable, .down, none, rttMs, some e⟩ thresholds = _
  exact applyRttThreshold_of_not_reachable fun h ↦ by cases h

theorem observed_ok (thresholds : Thresholds) (rttMs : Nat) (r : HttpResponse) :
    observed codec thresholds rttMs (.ok r) = applyRttThreshold (classifyAvailabilityResponse codec
      r.status ((r.header "content-type").getD "") r.body rttMs) thresholds := rfl

/-- A 401 never reads as reachable, and reports no error. -/
theorem observed_401 (thresholds : Thresholds) (rttMs : Nat) {r : HttpResponse}
    (hstatus : r.status = 401) :
    (observed codec thresholds rttMs (.ok r)).reachability ≠ .reachable ∧
      (observed codec thresholds rttMs (.ok r)).error = none := by
  have hclassified : ∀ contentType body,
      (classifyAvailabilityResponse codec r.status contentType body rttMs).reachability ≠
          .reachable ∧
        (classifyAvailabilityResponse codec r.status contentType body rttMs).error = none := by
    intro contentType body
    rw [hstatus]
    unfold classifyAvailabilityResponse
    split
    · exact ⟨fun h ↦ (by cases h), rfl⟩
    · rw [if_neg fun h ↦ absurd h.1 (by decide)]
      exact ⟨fun h ↦ (by cases h), rfl⟩
  have hclassified := hclassified ((r.header "content-type").getD "") r.body
  rw [observed_ok, applyRttThreshold_of_not_reachable hclassified.1]
  exact hclassified

/-- Reachability depends neither on the thresholds nor on the time. -/
theorem observed_page (thresholds : Thresholds) (rttMs : Nat) {page : HttpResponse}
    (hpage : ReadsReachable codec page) :
    (observed codec thresholds rttMs (.ok page)).reachability = .reachable := by
  unfold ReadsReachable at hpage
  unfold Signals.observed at hpage ⊢
  simp only [applyRttThreshold_reachability, classifyAvailabilityResponse] at hpage ⊢
  split at hpage
  · cases hpage
  · next hawake =>
    rw [if_neg hawake]
    split at hpage
    · next htable => rw [if_pos htable]
    · cases hpage

end Observations

section Verdicts

variable {codec : Codec} {environment : EnvironmentConfig} {server : HttpRequest → HttpResponse}
variable {secret given : String} {issued : String → Prop} {page : HttpResponse}
variable {thresholds : Thresholds} {rttMs : Nat} {s : Session}

/-- A new client reads as reachable on an accepted blob only. -/
theorem accepted_of_freshEnd (hserver : OneSecret codec environment server secret issued page)
    (h : (observed codec thresholds rttMs (freshEnd codec environment server given)).reachability =
      .reachable) : verdict codec environment secret given = .accepted := by
  rcases freshEnd_cases hserver given with ⟨haccepted, -⟩ | ⟨r, hr, hstatus⟩ | ⟨e, he⟩
  · exact haccepted
  · rw [hr] at h
    exact absurd h (observed_401 thresholds rttMs hstatus).1
  · rw [he, observed_error] at h
    cases h

/-- Memos that disagree show: the probe reads as reachable on a blob that is not accepted, or
differs from one on a new client. -/
theorem agree_of_observed (hserver : OneSecret codec environment server secret issued page)
    (hpage : ReadsReachable codec page)
    (hreachable : (observed codec thresholds rttMs
      (probeEnd codec server environment given s)).reachability = .reachable →
        verdict codec environment secret given = .accepted)
    (hsame : observed codec thresholds rttMs (probeEnd codec server environment given s) =
      observed codec thresholds rttMs (freshEnd codec environment server given)) :
    MemosAgree codec environment secret given issued s := by
  by_contra hagree
  rcases probeEnd_of_not_agree hserver hagree with ⟨hend, hnot⟩ | ⟨e, hend, hne⟩
  · rw [hend] at hreachable
    exact hnot (hreachable (observed_page thresholds rttMs hpage))
  · rw [hend, observed_error] at hsame
    rcases freshEnd_cases hserver given with ⟨-, hfresh⟩ | ⟨r, hr, hstatus⟩ | ⟨e', he'⟩
    · have h := observed_page thresholds rttMs hpage
      rw [← hfresh, ← hsame] at h
      cases h
    · have h : (observed codec thresholds rttMs (.ok r)).error = none :=
        (observed_401 thresholds rttMs hstatus).2
      rw [← hr, ← hsame] at h
      cases h
    · rw [he', observed_error] at hsame
      injection hsame with _ _ _ _ herror
      exact hne (by rw [he', Option.some.inj herror])

end Verdicts

section Blind

variable {α β : Type} {server : HttpRequest → HttpResponse}

/-- The program ends in the same way on every client of the server. -/
def Blind (server : HttpRequest → HttpResponse) (x : ClientM α) : Prop :=
  ∃ r : Except String α, Triple (Serves server) x (fun a s ↦ r = .ok a ∧ Serves server s)
    (fun e s ↦ r = .error e ∧ Serves server s)

theorem Blind.outcome_eq {x : ClientM α} (h : Blind server x) {s t : Session}
    (hs : Serves server s) (ht : Serves server t) : outcome x s = outcome x t := by
  obtain ⟨r, hr⟩ := h
  have hr := hr.weaken (fun _ h ↦ h) (fun _ _ h ↦ h.1) fun _ _ h ↦ h.1
  rw [Http.outcome_eq hr hs, Http.outcome_eq hr ht]

theorem Blind.pure (a : α) : Blind server (pure a) := ⟨.ok a, Triple.pure fun _ h ↦ ⟨rfl, h⟩⟩

theorem Blind.throw (e : String) : Blind server (throw e : ClientM α) :=
  ⟨.error e, Triple.throw fun _ h ↦ ⟨rfl, h⟩⟩

theorem Blind.bind {x : ClientM α} {f : α → ClientM β} (hx : Blind server x)
    (hf : ∀ a, Blind server (f a)) : Blind server (x >>= f) := by
  obtain ⟨r, hr⟩ := hx
  cases r with
  | error e =>
    refine ⟨.error e, Triple.bind (fun _ _ ↦ False) (hr.weaken (fun _ h ↦ h) ?_ ?_)
      fun _ _ h ↦ h.elim⟩
    · rintro _ _ ⟨h, -⟩
      cases h
    · rintro _ _ ⟨h, hs⟩
      exact ⟨by rw [Except.error.inj h], hs⟩
  | ok a =>
    obtain ⟨r, hf⟩ := hf a
    refine ⟨r, Triple.bind (fun b s ↦ a = b ∧ Serves server s) (hr.weaken (fun _ h ↦ h) ?_ ?_)
      fun b ↦ Triple.of_forall fun s ⟨hb, hs⟩ ↦ hb ▸ hf.weaken (fun _ ht ↦ ht.symm ▸ hs)
        (fun _ _ h ↦ h) fun _ _ h ↦ h⟩
    · rintro _ _ ⟨h, hs⟩
      exact ⟨Except.ok.inj h, hs⟩
    · rintro _ _ ⟨h, -⟩
      cases h

theorem Blind.execute (request : HttpRequest) (origin : Option Origin) :
    Blind server (execute request origin) := by
  refine ⟨.ok (server request), Triple.of_forall fun s hs ↦ ?_⟩
  exact hs.execute.weaken (fun _ h ↦ h) (fun _ _ h ↦ ⟨by rw [h.1], h.2.1⟩) fun _ _ h ↦ h

theorem Blind.ofExcept (r : Except String α) : Blind server (ofExcept r) := by
  cases r with
  | ok a => exact Blind.pure a
  | error e => exact Blind.throw e

theorem Blind.observeProbeSignal {probe : ClientM Collector.Observation}
    (h : Blind server probe) : Blind server (observeProbeSignal probe) := by
  obtain ⟨r, hr⟩ := h
  refine Blind.bind ⟨.ok r, (attemptResult_spec hr).weaken (fun _ h ↦ h) ?_ fun _ _ h ↦ h⟩
    fun result ↦ ?_
  · rintro result s h
    cases result <;> exact ⟨by rw [h.1], h.2⟩
  · cases result <;> exact Blind.pure _

end Blind

section Platforms

variable {codec : Codec} {environment : EnvironmentConfig} {credentials : CredentialStore}
variable {server : HttpRequest → HttpResponse} {probe : ProbeClock}

/-- The other Platforms have no memos. -/
theorem probeEnvironment_blind (hplatform : environment.platform ≠ .servicenow) :
    Blind server (probeEnvironment codec environment credentials probe) := by
  unfold probeEnvironment
  cases hp : environment.platform with
  | servicenow => exact absurd hp hplatform
  | http =>
    exact Blind.observeProbeSignal (Blind.bind (Blind.execute _ _) fun _ ↦ Blind.pure _)
  | github =>
    refine Blind.observeProbeSignal ?_
    unfold actionsProbe
    cases splitGithubRepo environment.instanceUrl with
    | none => exact Blind.throw _
    | some repo =>
      exact Blind.bind (Blind.ofExcept _) fun _ ↦ Blind.bind (Blind.execute _ _) fun _ ↦
        Blind.bind (Blind.ofExcept _) fun _ ↦ Blind.pure _

theorem outcome_observe {rttMs : Nat} {s : Session} :
    outcome (observe codec environment credentials rttMs) s =
      .ok (observed codec environment.thresholds rttMs (outcome
        (request codec environment credentials "GET" glideWarPath none) s)) := by
  unfold outcome observe
  simp only [bind, EStateM.bind, attemptResult]
  cases request codec environment credentials "GET" glideWarPath none s with
  | ok r t => rfl
  | error e t => rfl

/-- Up to the write, a rotation is a function of its probe. -/
theorem outcome_rotateProbe {given : String} {s t : Session}
    (h : outcome (testEnvironment codec environment (some given) credentials probe) s =
      outcome (testEnvironment codec environment (some given) credentials probe) t) :
    outcome (rotateProbe codec environment given credentials probe) s =
      outcome (rotateProbe codec environment given credentials probe) t := by
  unfold rotateProbe
  cases validateCredential codec.fromStr environment.authMethod given with
  | error e => rfl
  | ok _ =>
    show outcome (do
        let o ← testEnvironment codec environment (some given) credentials probe
        ofExcept (rotateVerdict environment o)) s = outcome (do
        let o ← testEnvironment codec environment (some given) credentials probe
        ofExcept (rotateVerdict environment o)) t
    rw [outcome_bind_ofExcept, outcome_bind_ofExcept, h]

end Platforms

/-- On a client after any commands, a Test probes with the Credential it was given if the memos
agree with it, and only then if the accepted secret is shown a page that reads as reachable. -/
theorem probesGiven_of_admits (codec : Codec) (path : String)
    (transport : Nat → HttpRequest → Except String HttpResponse) (clock freshClock : Nat → Nat)
    (history : List TestCommand) (environment : EnvironmentConfig)
    (server : HttpRequest → HttpResponse) (secret given : String) (issued : String → Prop)
    (page : HttpResponse) (credentials : CredentialStore) (probe : ProbeClock)
    (hserves : Serves server (handleAll codec path (Session.new transport clock) history))
    (hserver : OneSecret codec environment server secret issued page) :
    (TestAdmits codec environment secret given issued
        (handleAll codec path (Session.new transport clock) history) →
      ProbesGiven codec environment secret given credentials probe
        (handleAll codec path (Session.new transport clock) history)
        (Session.new (fun _ request ↦ .ok (server request)) freshClock)) ∧
    (ReadsReachable codec page →
      ProbesGiven codec environment secret given credentials probe
        (handleAll codec path (Session.new transport clock) history)
        (Session.new (fun _ request ↦ .ok (server request)) freshClock) →
      TestAdmits codec environment secret given issued
        (handleAll codec path (Session.new transport clock) history)) := by
  have hfresh : Serves server (Session.new (fun _ request ↦ .ok (server request)) freshClock) :=
    fun _ _ _ ↦ rfl
  revert hserves
  generalize handleAll codec path (Session.new transport clock) history = s
  intro hserves
  cases hvalid : validateTest codec environment (some given) with
  | error e =>
    have hrefused : ∀ u, outcome (testEnvironment codec environment (some given) credentials
        probe) u = .error e := by
      intro u
      rw [testEnvironment, hvalid]
      rfl
    refine ⟨fun _ ↦ ⟨fun _ o ho ↦ ?_, ?_, outcome_rotateProbe ?_⟩, fun _ _ ↦ .inl ⟨e, hvalid⟩⟩
    · cases (hrefused s).symm.trans ho
    · rw [hrefused, hrefused]
    · rw [hrefused, hrefused]
  | ok _ =>
    have htest : ∀ u, outcome (testEnvironment codec environment (some given) credentials
        probe) u = outcome (probeEnvironment codec environment
          (ephemeralStore environment.id given) probe) u := by
      intro u
      rw [testEnvironment, hvalid]
      rfl
    by_cases hplatform : environment.platform = .servicenow
    · have hobserve : ∀ u, Serves server u → outcome (testEnvironment codec environment
          (some given) credentials probe) u = .ok (observed codec environment.thresholds
            probe.rttMs (probeEnd codec server environment given u)) := by
        intro u hu
        rw [htest, probeEnvironment, hplatform]
        dsimp only
        rw [outcome_observe, request_outcome hu]
      have hs := hobserve s hserves
      have hf := hobserve _ hfresh
      rw [probeEnd_fresh] at hf
      refine ⟨fun hadmits ↦ ?_, fun hpage hgiven ↦ .inr (.inr ?_)⟩
      · have hagree : MemosAgree codec environment secret given issued s := by
          rcases hadmits with ⟨e, he⟩ | h | h
          · cases hvalid.symm.trans he
          · exact absurd hplatform h
          · exact h
        rw [probeEnd_of_agree hserver hagree] at hs
        refine ⟨fun _ o ho hreachable ↦ ?_, by rw [hs, hf], outcome_rotateProbe (by rw [hs, hf])⟩
        rw [← Except.ok.inj (hs.symm.trans ho)] at hreachable
        exact accepted_of_freshEnd hserver hreachable
      · refine agree_of_observed hserver hpage (hgiven.reachable hplatform _ hs) ?_
        exact Except.ok.inj (hs.symm.trans (hgiven.same.trans hf))
    · have hsame : outcome (testEnvironment codec environment (some given) credentials probe) s =
          outcome (testEnvironment codec environment (some given) credentials probe)
            (Session.new (fun _ request ↦ .ok (server request)) freshClock) := by
        rw [htest, htest]
        exact (probeEnvironment_blind hplatform).outcome_eq hserves hfresh
      exact ⟨fun _ ↦ ⟨fun h ↦ absurd h hplatform, hsame, outcome_rotateProbe hsame⟩,
        fun _ _ ↦ .inr (.inl hplatform)⟩

/-- A server that shows the page to one header. -/
def headerServer (authorization : String) (request : HttpRequest) : HttpResponse :=
  if request.headers = [("Authorization", authorization)] then plainResponse 200 pageText
  else plainResponse 401 ""

/-- A server that grants one OAuth secret a token of the same name. -/
def tokenServer (secret : String) (request : HttpRequest) : HttpResponse :=
  if request = tokenRequest (sampleEnvironment .oauthClientCredentials)
      (tokenBody ⟨"c", secret⟩) then plainResponse 200 (grantText secret)
  else headerServer ("Bearer " ++ secret) request

/-- The old password up to the first request, the new one afterwards. -/
def rotatedServer (n : Nat) (request : HttpRequest) : Except String HttpResponse :=
  .ok (headerServer (if n < 1 then "Basic dTpvbGQ=" else "Basic dTpuZXc=") request)

theorem headerServer_oneSecret (authorization : String) :
    OneSecret sampleCodec (sampleEnvironment .basic) (headerServer authorization) authorization
      (fun _ ↦ False) (plainResponse 200 pageText) := by
  refine ⟨by decide, ?_, fun value hvalue ↦ ?_⟩
  · rw [headerServer, if_pos (by rfl)]
  · rw [headerServer, if_neg (by simpa [availabilityRequest, dataRequest] using hvalue)]
    rfl

/-- A memo of the password that was rotated away is refused, and the given one is probed. -/
theorem probesGiven_after_rotation :
    ProbesGiven sampleCodec (sampleEnvironment .basic) "Basic dTpuZXc=" (basicText "new")
      (storedCredentials fun _ ↦ .ok none) ⟨20, 1000⟩
      (handleAll sampleCodec "environments.json" (Session.new rotatedServer id)
        [sampleTest "prod" "https://prod.example.com" none sampleFile])
      (Session.new (fun _ request ↦ .ok (headerServer "Basic dTpuZXc=" request)) id) := by
  have hlater := handleAll_later sampleCodec "environments.json" (Session.new rotatedServer id)
    [sampleTest "prod" "https://prod.example.com" none sampleFile]
  have hsent : (handleAll sampleCodec "environments.json" (Session.new rotatedServer id)
      [sampleTest "prod" "https://prod.example.com" none sampleFile]).sent.length = 1 := by
    decide +kernel
  have hmemo : (handleAll sampleCodec "environments.json" (Session.new rotatedServer id)
      [sampleTest "prod" "https://prod.example.com" none sampleFile]).credentialBlobs "prod" =
        some ⟨basicText "old", .stored "prod"⟩ := by decide +kernel
  refine (probesGiven_of_admits sampleCodec "environments.json" rotatedServer id id
    [sampleTest "prod" "https://prod.example.com" none sampleFile] (sampleEnvironment .basic)
    (headerServer "Basic dTpuZXc=") "Basic dTpuZXc=" (basicText "new") (fun _ ↦ False)
    (plainResponse 200 pageText) (storedCredentials fun _ ↦ .ok none) ⟨20, 1000⟩ ?_
    (headerServer_oneSecret _)).1 (.inr (.inr fun memo h ↦ .inl ?_))
  · intro n hn request
    rw [hlater.transport_eq]
    show rotatedServer n request = _
    rw [rotatedServer, if_neg (by omega)]
  · rw [← Option.some.inj (hmemo.symm.trans h)]
    decide +kernel

/-- After a probe with the accepted secret, a Test with another one reports Reachable: the memos
of the blob and of the token answer for it. -/
theorem test_reports_other_secret :
    (OneSecret sampleCodec (sampleEnvironment .basic) (headerServer "Basic dTpvbGQ=")
        "Basic dTpvbGQ=" (fun _ ↦ False) (plainResponse 200 pageText) ∧
      ¬ ProbesGiven sampleCodec (sampleEnvironment .basic) "Basic dTpvbGQ=" (basicText "new")
        (storedCredentials fun _ ↦ .ok none) ⟨20, 1000⟩
        (handleAll sampleCodec "environments.json"
          (Session.new (fun _ request ↦ .ok (headerServer "Basic dTpvbGQ=" request)) id)
          [sampleTest "prod" "https://prod.example.com" none sampleFile])
        (Session.new (fun _ request ↦ .ok (headerServer "Basic dTpvbGQ=" request)) id)) ∧
    (OneSecret sampleCodec (sampleEnvironment .oauthClientCredentials) (tokenServer "old")
        (tokenBody ⟨"c", "old"⟩) (· = "old") (plainResponse 200 pageText) ∧
      ¬ ProbesGiven sampleCodec (sampleEnvironment .oauthClientCredentials)
        (tokenBody ⟨"c", "old"⟩) (oauthText "new")
        (storedCredentials fun _ ↦ .ok none) ⟨20, 1000⟩
        (handleAll sampleCodec "environments.json"
          (Session.new (fun _ request ↦ .ok (tokenServer "old" request)) id)
          [{ sampleTest "prod" "https://prod.example.com" (some (oauthText "old")) sampleFile with
            environment := sampleEnvironment .oauthClientCredentials }])
        (Session.new (fun _ request ↦ .ok (tokenServer "old" request)) id)) := by
  refine ⟨⟨headerServer_oneSecret _, fun h ↦ ?_⟩, ⟨by decide, ⟨?_, ?_⟩, ?_, ?_, ?_⟩, fun h ↦ ?_⟩
  · have haccepted := h.reachable rfl ⟨.reachable, .healthy, some "glide-1", 20, none⟩
      (by decide +kernel) rfl
    revert haccepted
    decide +kernel
  · decide +kernel
  · exact ⟨⟨"old", some 1800⟩, by decide +kernel, rfl⟩
  · intro body hbody
    rw [tokenServer, if_neg (by simpa [tokenRequest] using hbody), headerServer,
      if_neg (by simp [tokenRequest])]
    rfl
  · rintro token rfl
    rw [tokenServer, if_neg (by simp [tokenRequest, availabilityRequest, dataRequest]),
      headerServer, if_pos (by rfl)]
  · intro token htoken
    have hheader : "Bearer " ++ token ≠ "Bearer " ++ "old" := by
      intro h
      exact htoken (by simpa [String.ext_iff] using h)
    rw [tokenServer, if_neg (by simp [tokenRequest, availabilityRequest, dataRequest]),
      headerServer, if_neg (by simpa [availabilityRequest, dataRequest] using hheader)]
    rfl
  · have haccepted := h.reachable rfl ⟨.reachable, .healthy, some "glide-1", 20, none⟩
      (by decide +kernel) rfl
    revert haccepted
    decide +kernel

end Daku.Environments
