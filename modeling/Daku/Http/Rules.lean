import Daku.Http.Client

/-!
# Rules for the calls of one Environment

What holds of the memos, of the blobs and tokens that are used and of the requests that are sent,
across the programs of the client. A `Discipline` states these conditions with what they owe to
each other; each program then has one triple. The answers of the transport stay arbitrary: a
result is one of its answers to the request in question.
-/

namespace Daku.Http

open Daku.Base Daku.Protocol

/-- What a program with these two conditions leaves behind. -/
theorem final_of_triple {α : Type} {P : Session → Prop} {Q : α → Session → Prop}
    {E : String → Session → Prop} {I : Session → Prop} {x : ClientM α} (h : Triple P x Q E)
    (hQ : ∀ a s, Q a s → I s) (hE : ∀ e s, E e s → I s) {s : Session} (hs : P s) :
    I (final (x s)) := by
  have h := h s hs
  cases hx : x s with
  | ok a t => exact hQ a t (by rwa [hx] at h)
  | error e t => exact hE e t (by rwa [hx] at h)

/-- What sending one request does. -/
theorem execute_spec {s : Session} {request : HttpRequest} {origin : Option Origin} :
    Triple (fun t ↦ t = s) (execute request origin)
      (fun r t ↦ s.transport s.sent.length request = .ok r ∧
        t = { s with sent := s.sent ++ [⟨request, origin⟩] })
      (fun e t ↦ s.transport s.sent.length request = .error e ∧
        t = { s with sent := s.sent ++ [⟨request, origin⟩] }) := by
  rw [execute]
  refine Triple.get_bind fun t ht ↦ Triple.set_bind ?_
  obtain rfl : t = s := ht
  split
  · next hresponse => exact Triple.pure fun _ ht ↦ ⟨hresponse, ht⟩
  · next herror => exact Triple.throw fun _ ht ↦ ⟨herror, ht⟩

/-- `answer` is an answer to the request, from the state `s₀` on. -/
def Answered (s₀ : Session) (request : HttpRequest) (answer : Except String HttpResponse) : Prop :=
  ∃ n, s₀.sent.length ≤ n ∧ s₀.transport n request = answer

/-- The token is live at some reading of the clock, from the state `s₀` on. -/
def Live (s₀ : Session) (cached : CachedToken) : Prop :=
  ∃ n, s₀.readings ≤ n ∧ s₀.clock n < cached.validUntil

/-- `s` is a later state of the client than `s₀`, with the same transport and clock. -/
structure Session.Later (s₀ s : Session) : Prop where
  transport_eq : s.transport = s₀.transport
  clock_eq : s.clock = s₀.clock
  sent_le : s₀.sent.length ≤ s.sent.length
  readings_le : s₀.readings ≤ s.readings

theorem Session.Later.refl {s : Session} : s.Later s := ⟨rfl, rfl, Nat.le_refl _, Nat.le_refl _⟩

/-- Only transport, clock and the two counts matter. -/
theorem Session.Later.of_eq {s₀ s t : Session} (h : s₀.Later s)
    (htransport : t.transport = s.transport) (hclock : t.clock = s.clock) (hsent : t.sent = s.sent)
    (hreadings : t.readings = s.readings) : s₀.Later t where
  transport_eq := htransport.trans h.transport_eq
  clock_eq := hclock.trans h.clock_eq
  sent_le := hsent ▸ h.sent_le
  readings_le := hreadings ▸ h.readings_le

/-- The token endpoint grants a token for this blob. -/
def Grants (codec : Codec) (environment : EnvironmentConfig) (s₀ : Session) (blob : String) :
    Prop :=
  ∃ parsed, codec.oauthCred blob = some parsed ∧
    ∀ answer, Answered s₀ (tokenRequest environment (tokenBody parsed)) answer →
      ∃ response grant, answer = .ok response ∧ response.status = 200 ∧
        codec.accessGrant response.body = some grant

/-- Conditions that calls for one Environment keep, from the state `s₀` on. -/
structure Discipline (codec : Codec) (environment : EnvironmentConfig)
    (credentials : CredentialStore) (s₀ : Session) where
  /-- The memos of tokens and blobs. -/
  Memos : (String → Option CachedToken) → (String → Option (Held String)) → Prop
  /-- A blob that is used. -/
  Blob : Held String → Prop
  /-- A token that is used. -/
  Token : Held String → Prop
  /-- A request that is sent. -/
  Request : Sent → Prop
  /-- A path that is called. -/
  Path : String → Prop
  blob_of_memo : ∀ {tokens blobs blob}, Memos tokens blobs →
    blobs environment.id = some blob → Blob blob
  blob_of_store : ∀ {tokens blobs value}, Memos tokens blobs → blobs environment.id = none →
    credentials.get environment.id = .ok (some value) →
      Blob ⟨value, credentials.origin environment.id⟩ ∧
        Memos tokens (Function.update blobs environment.id
          (some ⟨value, credentials.origin environment.id⟩))
  token_of_memo : ∀ {tokens blobs cached}, Memos tokens blobs →
    tokens environment.id = some cached → Live s₀ cached → Token cached.access
  token_of_grant : ∀ {tokens blobs blob parsed response grant}, Memos tokens blobs → Blob blob →
    codec.oauthCred blob.value = some parsed →
    Answered s₀ (tokenRequest environment (tokenBody parsed)) (.ok response) →
    response.status = 200 → codec.accessGrant response.body = some grant →
      Token ⟨grant.accessToken, blob.origin⟩ ∧ ∀ validUntil,
        Memos (Function.update tokens environment.id
          (some ⟨⟨grant.accessToken, blob.origin⟩, validUntil⟩)) blobs
  request_token : ∀ {blob parsed}, environment.authMethod = .oauthClientCredentials →
    Blob blob → codec.oauthCred blob.value = some parsed →
    Request ⟨tokenRequest environment (tokenBody parsed), some blob.origin⟩
  request_basic : ∀ {blob parsed}, environment.authMethod = .basic → Blob blob →
    codec.basicCred blob.value = some parsed → ∀ method path body, Path path →
      Request ⟨dataRequest environment method path body
        [("Authorization", basicAuthorization codec parsed.username parsed.password)],
        some blob.origin⟩
  request_bearer : ∀ {access}, environment.authMethod = .oauthClientCredentials →
    Token access → ∀ method path body, Path path →
      Request ⟨dataRequest environment method path body (bearer access).value,
        some access.origin⟩

namespace Discipline

variable {codec : Codec} {environment : EnvironmentConfig} {credentials : CredentialStore}
variable {s₀ : Session} (d : Discipline codec environment credentials s₀)

/-- The state of the client under the discipline. -/
structure Keeps (s : Session) : Prop where
  later : s₀.Later s
  memos : d.Memos s.tokens s.credentialBlobs
  sent : ∀ sent ∈ s.sent.drop s₀.sent.length, d.Request sent

/-- Headers that authorize a request. -/
def Auth (headers : Held (List Header)) : Prop :=
  match environment.authMethod with
  | .basic => ∃ blob parsed, d.Blob blob ∧ codec.basicCred blob.value = some parsed ∧
      headers = ⟨[("Authorization",
        basicAuthorization codec parsed.username parsed.password)], blob.origin⟩
  | .oauthClientCredentials => ∃ access, d.Token access ∧ headers = bearer access

/-- There is a Credential, and each blob that is used leads to headers. -/
def Usable : Prop :=
  (∃ value, credentials.get environment.id = .ok (some value)) ∧
    ∀ blob, d.Blob blob → match environment.authMethod with
      | .basic => (codec.basicCred blob.value).isSome
      | .oauthClientCredentials => Grants codec environment s₀ blob.value

/-- How an attempt can end. -/
def Outcome (method path : String) (body : Option String) :
    Except String HttpResponse → Prop
  | .ok response => ∃ headers, d.Auth headers ∧
      Answered s₀ (dataRequest environment method path body headers.value)
        (.ok response)
  | .error e => ¬ d.Usable ∨ ∃ headers, d.Auth headers ∧
      Answered s₀ (dataRequest environment method path body headers.value)
        (.error e)

variable {d} {ε : String → Session → Prop}

theorem keeps_refl (hmemos : d.Memos s₀.tokens s₀.credentialBlobs) : d.Keeps s₀ where
  later := .refl
  memos := hmemos
  sent _ h := by rw [List.drop_length] at h; cases h

/-- A reading of the clock is one from `s₀` on. -/
theorem now_keeps : Triple d.Keeps now
    (fun r s ↦ d.Keeps s ∧ ∃ n, s₀.readings ≤ n ∧ r = s₀.clock n) ε := by
  intro s hs
  refine ⟨⟨⟨hs.later.transport_eq, hs.later.clock_eq, hs.later.sent_le, ?_⟩, hs.memos, hs.sent⟩,
    s.readings, hs.later.readings_le, by rw [← hs.later.clock_eq]⟩
  exact Nat.le_succ_of_le hs.later.readings_le

theorem sleep_keeps {duration : Nat} : Triple d.Keeps (sleep duration) (fun _ s ↦ d.Keeps s) ε :=
  fun _ hs ↦ ⟨⟨hs.later.transport_eq, hs.later.clock_eq, hs.later.sent_le, hs.later.readings_le⟩,
    hs.memos, hs.sent⟩

theorem execute_keeps {request : HttpRequest} {origin : Option Origin}
    (hrequest : d.Request ⟨request, origin⟩) :
    Triple d.Keeps (execute request origin)
      (fun r s ↦ d.Keeps s ∧ Answered s₀ request (.ok r))
      (fun e s ↦ d.Keeps s ∧ Answered s₀ request (.error e)) := by
  refine Triple.of_forall fun s hs ↦ ?_
  have hkeeps : d.Keeps { s with sent := s.sent ++ [⟨request, origin⟩] } := by
    refine ⟨⟨hs.later.transport_eq, hs.later.clock_eq, ?_, hs.later.readings_le⟩, hs.memos,
      fun sent hsent ↦ ?_⟩
    · rw [List.length_append]
      exact Nat.le_add_right_of_le hs.later.sent_le
    · rw [List.drop_append_of_le_length hs.later.sent_le] at hsent
      rcases List.mem_append.mp hsent with h | h
      · exact hs.sent sent h
      · rw [List.mem_singleton.mp h]
        exact hrequest
  have hanswer : Answered s₀ request (s.transport s.sent.length request) :=
    ⟨s.sent.length, hs.later.sent_le, by rw [hs.later.transport_eq]⟩
  refine execute_spec.weaken (fun _ h ↦ h) ?_ ?_
  · rintro r _ ⟨hr, rfl⟩
    exact ⟨hkeeps, hr ▸ hanswer⟩
  · rintro e _ ⟨he, rfl⟩
    exact ⟨hkeeps, he ▸ hanswer⟩

theorem sendRetrying_keeps {request : HttpRequest} {origin : Option Origin}
    (hrequest : d.Request ⟨request, origin⟩) (retries : Nat) :
    Triple d.Keeps (sendRetrying codec request origin retries)
      (fun r s ↦ d.Keeps s ∧ Answered s₀ request (.ok r))
      (fun e s ↦ d.Keeps s ∧ Answered s₀ request (.error e)) := by
  induction retries with
  | zero => exact execute_keeps hrequest
  | succ retries ih =>
    refine Triple.bind _ (execute_keeps hrequest) fun response ↦ ?_
    split
    · refine Triple.bind (fun _ s ↦ d.Keeps s) (now_keeps.weaken (fun _ h ↦ h.1) (fun _ _ h ↦ h.1)
        fun _ _ h ↦ h) fun now ↦ ?_
      exact Triple.bind (fun _ s ↦ d.Keeps s) sleep_keeps fun _ ↦ ih
    · exact Triple.pure fun _ h ↦ h

theorem send_keeps {request : HttpRequest} {origin : Option Origin}
    (hrequest : d.Request ⟨request, origin⟩) :
    Triple d.Keeps (send codec request origin)
      (fun r s ↦ d.Keeps s ∧ Answered s₀ request (.ok r))
      (fun e s ↦ d.Keeps s ∧ Answered s₀ request (.error e)) :=
  sendRetrying_keeps hrequest max429Retries

theorem cachedAccessToken_keeps :
    Triple d.Keeps (cachedAccessToken environment.id)
      (fun r s ↦ d.Keeps s ∧ ∀ access, r = some access → d.Token access) ε := by
  refine Triple.get_bind fun s hs ↦ ?_
  cases h : s.tokens environment.id with
  | none => exact Triple.pure fun _ ht ↦ ⟨ht ▸ hs, fun _ h ↦ by cases h⟩
  | some cached =>
    have htoken := d.token_of_memo hs.memos h
    refine Triple.bind _ (now_keeps.weaken (fun _ ht ↦ ht ▸ hs) (fun _ _ h ↦ h) fun _ _ h ↦ h)
      fun now ↦ Triple.pure fun t ⟨ht, n, hn, hnow⟩ ↦ ⟨ht, fun access hr ↦ ?_⟩
    split at hr
    · next hlive => exact Option.some.inj hr ▸ htoken ⟨n, hn, hnow ▸ hlive⟩
    · cases hr

theorem credentialBlob_keeps :
    Triple d.Keeps (credentialBlob environment credentials)
      (fun blob s ↦ d.Keeps s ∧ d.Blob blob) (fun _ s ↦ d.Keeps s ∧ ¬ d.Usable) := by
  refine Triple.get_bind fun s hs ↦ ?_
  cases h : s.credentialBlobs environment.id with
  | some blob => exact Triple.pure fun _ ht ↦ ⟨ht ▸ hs, d.blob_of_memo hs.memos h⟩
  | none =>
    cases hget : credentials.get environment.id with
    | error e =>
      exact Triple.throw fun _ ht ↦ ⟨ht ▸ hs, fun ⟨⟨_, h⟩, _⟩ ↦ by cases hget.symm.trans h⟩
    | ok value =>
      cases value with
      | none =>
        exact Triple.throw fun _ ht ↦ ⟨ht ▸ hs, fun ⟨⟨_, h⟩, _⟩ ↦ by cases hget.symm.trans h⟩
      | some value =>
        obtain ⟨hblob, hmemos⟩ := d.blob_of_store hs.memos h hget
        refine Triple.modify_bind (Triple.pure ?_)
        rintro _ ⟨_, rfl, rfl⟩
        exact ⟨⟨hs.later.of_eq rfl rfl rfl rfl, hmemos, hs.sent⟩, hblob⟩

/-- A token request fails only where the endpoint grants nothing for the blob. -/
theorem requestToken_keeps (hauth : environment.authMethod = .oauthClientCredentials)
    {blob : Held String} (hblob : d.Blob blob) :
    Triple d.Keeps (requestToken codec environment blob)
      (fun access s ↦ d.Keeps s ∧ d.Token access)
      (fun _ s ↦ d.Keeps s ∧ ¬ Grants codec environment s₀ blob.value) := by
  unfold requestToken
  cases hparsed : codec.oauthCred blob.value with
  | none =>
    exact Triple.throw fun _ hs ↦ ⟨hs, fun ⟨_, h, _⟩ ↦ by cases hparsed.symm.trans h⟩
  | some parsed =>
    have hno : ∀ {answer}, Answered s₀
        (tokenRequest environment (tokenBody parsed)) answer →
        (∀ response grant, answer = .ok response → response.status = 200 →
          codec.accessGrant response.body ≠ some grant) →
        ¬ Grants codec environment s₀ blob.value := by
      rintro answer hanswer hrefused ⟨parsed', h, hgrants⟩
      obtain rfl : parsed = parsed' := Option.some.inj (hparsed.symm.trans h)
      obtain ⟨response, grant, hok, hstatus, hgrant⟩ := hgrants answer hanswer
      exact hrefused response grant hok hstatus hgrant
    refine Triple.bind _ ((send_keeps (d.request_token hauth hblob hparsed)).weaken (fun _ h ↦ h)
      (fun _ _ h ↦ h) fun _ _ h ↦ ⟨h.1, hno h.2 fun _ _ h ↦ by cases h⟩) fun response ↦ ?_
    split
    · next hstatus =>
      refine Triple.throw fun s hs ↦ ⟨hs.1, hno hs.2 fun r grant hr h200 ↦ ?_⟩
      exact absurd (Except.ok.inj hr ▸ h200) hstatus
    · next hstatus =>
      cases hgrant : codec.accessGrant response.body with
      | none =>
        refine Triple.throw fun s hs ↦ ⟨hs.1, hno hs.2 fun r grant hr _ h ↦ ?_⟩
        cases hgrant.symm.trans (Except.ok.inj hr ▸ h)
      | some grant =>
        refine Triple.of_forall fun s hs ↦ ?_
        refine Triple.bind (fun _ s ↦ d.Keeps s) (now_keeps.weaken (fun _ ht ↦ ht ▸ hs.1)
          (fun _ _ h ↦ h.1) fun _ _ h ↦ h) fun now ↦ ?_
        refine Triple.modify_bind (Triple.pure ?_)
        rintro _ ⟨t, ht, rfl⟩
        obtain ⟨htoken, hmemos⟩ := d.token_of_grant ht.memos hblob hparsed hs.2
          (not_not.mp hstatus) hgrant
        exact ⟨⟨ht.later.of_eq rfl rfl rfl rfl, hmemos _, ht.sent⟩, htoken⟩

theorem oauthAccess_keeps (hauth : environment.authMethod = .oauthClientCredentials)
    {blob : Held String} (hblob : d.Blob blob) :
    Triple d.Keeps (oauthAccess codec environment blob)
      (fun access s ↦ d.Keeps s ∧ d.Token access)
      (fun _ s ↦ d.Keeps s ∧ ¬ Grants codec environment s₀ blob.value) := by
  refine Triple.bind _ cachedAccessToken_keeps fun cached ↦ ?_
  cases cached with
  | some access => exact Triple.pure fun _ hs ↦ ⟨hs.1, hs.2 access rfl⟩
  | none =>
    exact (requestToken_keeps hauth hblob).weaken (fun _ h ↦ h.1) (fun _ _ h ↦ h) fun _ _ h ↦ h

theorem authorize_keeps :
    Triple d.Keeps (authorize codec environment credentials)
      (fun headers s ↦ d.Keeps s ∧ d.Auth headers) (fun _ s ↦ d.Keeps s ∧ ¬ d.Usable) := by
  unfold authorize
  cases hauth : environment.authMethod with
  | basic =>
    refine Triple.bind _ credentialBlob_keeps fun blob ↦ ?_
    cases hparsed : codec.basicCred blob.value with
    | none =>
      refine Triple.throw fun _ hs ↦ ⟨hs.1, fun hu ↦ ?_⟩
      simpa [hauth, hparsed] using hu.2 blob hs.2
    | some parsed =>
      refine Triple.pure fun _ hs ↦ ⟨hs.1, ?_⟩
      simp only [Auth, hauth]
      exact ⟨blob, parsed, hs.2, hparsed, rfl⟩
  | oauthClientCredentials =>
    have hbearer : ∀ {access}, d.Token access → d.Auth (bearer access) := by
      intro access h
      simp only [Auth, hauth]
      exact ⟨access, h, rfl⟩
    refine Triple.bind _ cachedAccessToken_keeps fun cached ↦ ?_
    cases cached with
    | some access => exact Triple.pure fun _ hs ↦ ⟨hs.1, hbearer (hs.2 access rfl)⟩
    | none =>
      refine Triple.bind _ (credentialBlob_keeps.weaken (fun _ h ↦ h.1) (fun _ _ h ↦ h)
        fun _ _ h ↦ h) fun blob ↦ Triple.of_forall fun s hs ↦ ?_
      refine Triple.bind _ ((oauthAccess_keeps hauth hs.2).weaken (fun _ ht ↦ ht ▸ hs.1)
        (fun _ _ h ↦ h) fun _ _ h ↦ ⟨h.1, fun hu ↦ h.2 ?_⟩) fun access ↦
          Triple.pure fun _ ht ↦ ⟨ht.1, hbearer ht.2⟩
      simpa [hauth] using hu.2 blob hs.2

/-- The data request of authorized headers is one that may be sent. -/
theorem request_of_auth {headers : Held (List Header)} (h : d.Auth headers)
    (method : String) {path : String} (hpath : d.Path path) (body : Option String) :
    d.Request ⟨dataRequest environment method path body headers.value, some headers.origin⟩ := by
  unfold Auth at h
  split at h
  · next hauth =>
    obtain ⟨blob, parsed, hblob, hparsed, rfl⟩ := h
    exact d.request_basic hauth hblob hparsed method path body hpath
  · next hauth =>
    obtain ⟨access, haccess, rfl⟩ := h
    exact d.request_bearer hauth haccess method path body hpath

theorem attempt_keeps {method path : String} (hpath : d.Path path) {body : Option String} :
    Triple d.Keeps (attempt codec environment credentials method path body)
      (fun r s ↦ d.Keeps s ∧ d.Outcome method path body (.ok r))
      (fun e s ↦ d.Keeps s ∧ d.Outcome method path body (.error e)) := by
  refine Triple.bind _ (authorize_keeps.weaken (fun _ h ↦ h) (fun _ _ h ↦ h)
    fun _ _ h ↦ ⟨h.1, .inl h.2⟩) fun headers ↦ Triple.of_forall fun s hs ↦ ?_
  exact (send_keeps (request_of_auth hs.2 method hpath body)).weaken (fun _ ht ↦ ht ▸ hs.1)
    (fun _ _ h ↦ ⟨h.1, headers, hs.2, h.2⟩) fun _ _ h ↦ ⟨h.1, .inr ⟨headers, hs.2, h.2⟩⟩

omit d in
theorem forget_basic {P : Session → Prop} (hauth : environment.authMethod = .basic) :
    Triple P (forget environment) (fun _ t ↦ ∃ s, P s ∧ t = { s with
      credentialBlobs := Function.update s.credentialBlobs environment.id none }) ε := by
  rw [forget, hauth]
  exact fun s hs ↦ ⟨s, hs, rfl⟩

omit d in
theorem forget_oauth {P : Session → Prop}
    (hauth : environment.authMethod = .oauthClientCredentials) :
    Triple P (forget environment) (fun _ t ↦ ∃ s, P s ∧ t = { s with
      tokens := Function.update s.tokens environment.id none }) ε := by
  rw [forget, hauth]
  exact fun s hs ↦ ⟨s, hs, rfl⟩

/-- A call, with the discipline after a 401. Both attempts can give the outcome. -/
theorem request_keeps (d' : Discipline codec environment credentials s₀)
    (hforget : Triple d.Keeps (forget environment) (fun _ s ↦ d'.Keeps s) fun _ _ ↦ False)
    {method path : String} (hpath : d.Path path) (hpath' : d'.Path path) {body : Option String} :
    Triple d.Keeps (request codec environment credentials method path body)
      (fun r s ↦ (d.Keeps s ∧ r.status ≠ 401 ∧ d.Outcome method path body (.ok r)) ∨
        (d'.Keeps s ∧ d'.Outcome method path body (.ok r)))
      (fun e s ↦ (d.Keeps s ∧ d.Outcome method path body (.error e)) ∨
        (d'.Keeps s ∧ d'.Outcome method path body (.error e))) := by
  refine Triple.bind _ ((attempt_keeps hpath).weaken (fun _ h ↦ h) (fun _ _ h ↦ h)
    fun _ _ h ↦ .inl h) fun response ↦ ?_
  split
  · refine Triple.bind _ (hforget.weaken (fun _ h ↦ h.1) (fun _ _ h ↦ h) fun _ _ h ↦ h.elim)
      fun _ ↦ ?_
    exact (attempt_keeps hpath').weaken (fun _ h ↦ h) (fun _ _ h ↦ .inr h) fun _ _ h ↦ .inr h
  · next hstatus => exact Triple.pure fun _ hs ↦ .inl ⟨hs.1, hstatus, hs.2⟩

end Discipline

variable {codec : Codec} {environment : EnvironmentConfig} {credentials : CredentialStore}
variable {s₀ : Session} {ε : String → Session → Prop}

/-- No condition at all. -/
def freeDiscipline : Discipline codec environment credentials s₀ where
  Memos _ _ := True
  Blob _ := True
  Token _ := True
  Request _ := True
  Path _ := True
  blob_of_memo _ _ := trivial
  blob_of_store _ _ _ := ⟨trivial, trivial⟩
  token_of_memo _ _ _ := trivial
  token_of_grant _ _ _ _ _ _ := ⟨trivial, fun _ ↦ trivial⟩
  request_token _ _ _ := trivial
  request_basic _ _ _ _ _ _ _ := trivial
  request_bearer _ _ _ _ _ _ := trivial

theorem forget_later {P : Session → Prop} (hP : ∀ s, P s → s₀.Later s) :
    Triple P (forget environment) (fun _ s ↦ s₀.Later s) ε := by
  cases hauth : environment.authMethod with
  | basic =>
    refine (Discipline.forget_basic hauth).weaken (fun _ h ↦ h) ?_ fun _ _ h ↦ h
    rintro _ _ ⟨s, hs, rfl⟩
    exact (hP s hs).of_eq rfl rfl rfl rfl
  | oauthClientCredentials =>
    refine (Discipline.forget_oauth hauth).weaken (fun _ h ↦ h) ?_ fun _ _ h ↦ h
    rintro _ _ ⟨s, hs, rfl⟩
    exact (hP s hs).of_eq rfl rfl rfl rfl

theorem execute_later {request : HttpRequest} {origin : Option Origin} :
    Triple s₀.Later (execute request origin) (fun _ s ↦ s₀.Later s) (fun _ s ↦ s₀.Later s) := by
  refine Triple.of_forall fun s hs ↦ ?_
  have hlater : s₀.Later { s with sent := s.sent ++ [⟨request, origin⟩] } := by
    refine ⟨hs.transport_eq, hs.clock_eq, ?_, hs.readings_le⟩
    rw [List.length_append]
    exact Nat.le_add_right_of_le hs.sent_le
  exact execute_spec.weaken (fun _ h ↦ h) (fun _ _ h ↦ h.2 ▸ hlater) fun _ _ h ↦ h.2 ▸ hlater

/-- A call keeps transport and clock and only adds requests and readings. -/
theorem request_later {method path : String} {body : Option String} :
    Triple s₀.Later (request codec environment credentials method path body)
      (fun _ s ↦ s₀.Later s) (fun _ s ↦ s₀.Later s) := by
  let d : Discipline codec environment credentials s₀ := freeDiscipline
  have hkeeps : ∀ s, s₀.Later s → d.Keeps s := fun _ h ↦ ⟨h, trivial, fun _ _ ↦ trivial⟩
  refine (Discipline.request_keeps d ((forget_later fun _ h ↦ h.later).weaken (fun _ h ↦ h)
    (fun _ _ h ↦ hkeeps _ h) fun _ _ h ↦ h) trivial trivial).weaken hkeeps ?_ ?_
  · rintro _ s (⟨h, -⟩ | ⟨h, -⟩) <;> exact h.later
  · rintro _ s (⟨h, -⟩ | ⟨h, -⟩) <;> exact h.later

end Daku.Http
