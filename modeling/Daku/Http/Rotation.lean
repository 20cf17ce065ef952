import Daku.Http.Rules

/-!
# Rotating a Credential under a running client

The blob in the Credential store is replaced, and from then on the server takes the new secret
only. The memos of the client decide whether later calls notice: for basic authorization a 401
drops the memoized blob, for OAuth it drops the token but not the blob the next token is asked
with (`crates/daku-core/src/servicenow.rs:233–290`).
-/

namespace Daku.Http

open Daku.Base Daku.Protocol

/-- A call of `request` with its arguments. -/
structure Call where
  environment : EnvironmentConfig
  credentials : CredentialStore
  method : String
  path : String
  body : Option String

/-- The program of a call. -/
def Call.run (codec : Codec) (call : Call) : ClientM HttpResponse :=
  request codec call.environment call.credentials call.method call.path call.body

/-- A call ends in an error or a 401. -/
def Call.fails (codec : Codec) (s : Session) (call : Call) : Bool :=
  match call.run codec s with
  | .ok response _ => response.status == 401
  | .error _ _ => true

/-- Calls on one client, one after the other. -/
def serve (codec : Codec) (s : Session) (calls : List Call) : Session :=
  calls.foldl (fun s call ↦ final (call.run codec s)) s

/-- How many of the calls for an Environment fail. -/
def failures (codec : Codec) (environmentId : String) : Session → List Call → Nat
  | _, [] => 0
  | s, call :: calls =>
    (if call.environment.id = environmentId ∧ call.fails codec s then 1 else 0) +
      failures codec environmentId (final (call.run codec s)) calls

/-- From the state `s₀` on each answer takes the request. -/
def Accepts (s₀ : Session) (request : HttpRequest) : Prop :=
  ∀ answer, Answered s₀ request answer →
    ∃ response, answer = .ok response ∧ response.status ≠ 401

/-- From the state `s₀` on each answer is a 401. -/
def Refuses (s₀ : Session) (request : HttpRequest) : Prop :=
  ∀ answer, Answered s₀ request answer →
    ∃ response, answer = .ok response ∧ response.status = 401

/-- From the moment `s` on the data endpoint takes this Credential and no other. -/
structure BasicServer (codec : Codec) (environment : EnvironmentConfig) (cred : BasicCred)
    (s : Session) : Prop where
  accepts : ∀ method path body, Accepts s (dataRequest environment method path body
    [("Authorization", basicAuthorization codec cred.username cred.password)])
  refuses : ∀ method path body value,
    value ≠ basicAuthorization codec cred.username cred.password →
      Refuses s (dataRequest environment method path body [("Authorization", value)])

/-- From the moment `s` on the token endpoint grants `issued` tokens for this Credential and no
other, and the data endpoint takes these tokens and no other. -/
structure OauthServer (codec : Codec) (environment : EnvironmentConfig) (cred : OauthCred)
    (issued : String → Prop) (s : Session) : Prop where
  grants : ∀ answer, Answered s (tokenRequest environment (tokenBody cred)) answer →
      ∃ response grant, answer = .ok response ∧ response.status = 200 ∧
        codec.accessGrant response.body = some grant ∧ issued grant.accessToken
  refuses_secret : ∀ body, body ≠ tokenBody cred →
    Refuses s (tokenRequest environment body)
  accepts : ∀ method path body token, issued token → Accepts s
    (dataRequest environment method path body [("Authorization", "Bearer " ++ token)])
  refuses : ∀ method path body token, ¬ issued token → Refuses s
    (dataRequest environment method path body [("Authorization", "Bearer " ++ token)])

/-- The moment `s` of a rotation to the blob `new`: it is the one secret the server takes, and a
token the client still holds was issued for another. -/
def Rotated (codec : Codec) (environment : EnvironmentConfig) (new : String) (s : Session) :
    Prop :=
  match environment.authMethod with
  | .basic => ∃ cred, codec.basicCred new = some cred ∧ BasicServer codec environment cred s
  | .oauthClientCredentials => ∃ cred issued, codec.oauthCred new = some cred ∧
      OauthServer codec environment cred issued s ∧
      ∀ cached, s.tokens environment.id = some cached → ¬ issued cached.access.value

/-- A later call: if it is for the Environment, the store has the new blob. -/
def Call.Later (environment : EnvironmentConfig) (new : String) (call : Call) : Prop :=
  call.environment.id = environment.id → call.environment = environment ∧
    call.credentials.get environment.id = .ok (some new)

/-- Of any later calls at most one for the Environment fails. One that does not fail was taken by
the server, hence authorized with the new secret. -/
def PickedUp (codec : Codec) (environment : EnvironmentConfig) (new : String) (s : Session) :
    Prop :=
  ∀ calls : List Call, (∀ call ∈ calls, call.Later environment new) →
    failures codec environment.id s calls ≤ 1

/-- With this blob in its memo the client comes to use the new one: basic authorization drops it
after a 401 if it has headers to be refused; a token request has to be the new one already. -/
def Fits (codec : Codec) (environment : EnvironmentConfig) (new blob : String) : Prop :=
  match environment.authMethod with
  | .basic => (codec.basicCred blob).isSome
  | .oauthClientCredentials =>
    (codec.oauthCred blob).map tokenBody = (codec.oauthCred new).map tokenBody

/-- There is no memoized blob, or one that fits. -/
def Renews (codec : Codec) (environment : EnvironmentConfig) (new : String) (s : Session) :
    Prop :=
  ∀ blob, s.credentialBlobs environment.id = some blob → Fits codec environment new blob.value

/-- Conditions on the two memos of one Environment: on the blob, on there being none, and on the
token. -/
structure MemoCond (B : String → Prop) (R : Prop) (T : String → Prop)
    (token : Option CachedToken) (blob : Option (Held String)) : Prop where
  of_blob : ∀ held, blob = some held → B held.value
  of_none : blob = none → R
  of_token : ∀ cached, token = some cached → T cached.access.value

/-- A later state of the client, with a condition on the memos of one Environment. -/
structure MemoState (s₀ : Session) (environmentId : String)
    (J : Option CachedToken → Option (Held String) → Prop) (s : Session) : Prop where
  later : s₀.Later s
  memos : J (s.tokens environmentId) (s.credentialBlobs environmentId)

section Disciplines

variable {codec : Codec} {environment : EnvironmentConfig} {credentials : CredentialStore}
variable {s₀ : Session}

/-- Calls for another Environment leave both memos alone. -/
def otherDiscipline {environmentId : String}
    (J : Option CachedToken → Option (Held String) → Prop) (hne : environment.id ≠ environmentId) :
    Discipline codec environment credentials s₀ where
  Memos tokens blobs := J (tokens environmentId) (blobs environmentId)
  Blob _ := True
  Token _ := True
  Request _ := True
  Path _ := True
  blob_of_memo _ _ := trivial
  blob_of_store h _ _ := ⟨trivial, by rwa [Function.update_of_ne hne.symm]⟩
  token_of_memo _ _ _ := trivial
  token_of_grant h _ _ _ _ _ := ⟨trivial, fun _ ↦ by rwa [Function.update_of_ne hne.symm]⟩
  request_token _ _ _ := trivial
  request_basic _ _ _ _ _ _ _ := trivial
  request_bearer _ _ _ _ _ _ := trivial

/-- Calls for the Environment itself, if the store and the token endpoint keep the conditions. -/
def memoDiscipline (B : String → Prop) (R : Prop) (T : String → Prop)
    (hstore : R → ∀ value, credentials.get environment.id = .ok (some value) → B value)
    (hgrant : ∀ blob parsed response grant, B blob → codec.oauthCred blob = some parsed →
      Answered s₀ (tokenRequest environment (tokenBody parsed)) (.ok response) →
      response.status = 200 → codec.accessGrant response.body = some grant →
        T grant.accessToken) :
    Discipline codec environment credentials s₀ where
  Memos tokens blobs := MemoCond B R T (tokens environment.id) (blobs environment.id)
  Blob blob := B blob.value
  Token access := T access.value
  Request _ := True
  Path _ := True
  blob_of_memo h hmemo := h.of_blob _ hmemo
  blob_of_store h hnone hget := by
    have hvalue := hstore (h.of_none hnone) _ hget
    refine ⟨hvalue, ?_⟩
    rw [Function.update_self]
    exact ⟨fun held hheld ↦ Option.some.inj hheld ▸ hvalue, fun h ↦ (by cases h), h.of_token⟩
  token_of_memo h hmemo _ := h.of_token _ hmemo
  token_of_grant h hblob hparsed hanswer hstatus hgranted := by
    have htoken := hgrant _ _ _ _ hblob hparsed hanswer hstatus hgranted
    refine ⟨htoken, fun _ ↦ ?_⟩
    rw [Function.update_self]
    exact ⟨h.of_blob, h.of_none, fun cached hcached ↦ Option.some.inj hcached ▸ htoken⟩
  request_token _ _ _ := trivial
  request_basic _ _ _ _ _ _ _ := trivial
  request_bearer _ _ _ _ _ _ := trivial

/-- A call for another Environment leaves the memos of this one alone. -/
theorem request_other {J : Option CachedToken → Option (Held String) → Prop}
    {environmentId : String} (hne : environment.id ≠ environmentId) {method path : String}
    {body : Option String} :
    Triple (MemoState s₀ environmentId J)
      (request codec environment credentials method path body)
      (fun _ s ↦ MemoState s₀ environmentId J s)
      (fun _ s ↦ MemoState s₀ environmentId J s) := by
  let d : Discipline codec environment credentials s₀ := otherDiscipline J hne
  have hforget : Triple d.Keeps (forget environment) (fun _ s ↦ d.Keeps s) fun _ _ ↦ False := by
    cases hauth : environment.authMethod with
    | basic =>
      refine (Discipline.forget_basic hauth).weaken (fun _ h ↦ h) ?_ fun _ _ h ↦ h
      rintro _ _ ⟨s, hs, rfl⟩
      refine ⟨hs.later.of_eq rfl rfl rfl rfl, ?_, hs.sent⟩
      show J _ (Function.update s.credentialBlobs environment.id none environmentId)
      rw [Function.update_of_ne hne.symm]
      exact hs.memos
    | oauthClientCredentials =>
      refine (Discipline.forget_oauth hauth).weaken (fun _ h ↦ h) ?_ fun _ _ h ↦ h
      rintro _ _ ⟨s, hs, rfl⟩
      refine ⟨hs.later.of_eq rfl rfl rfl rfl, ?_, hs.sent⟩
      show J (Function.update s.tokens environment.id none environmentId) _
      rw [Function.update_of_ne hne.symm]
      exact hs.memos
  refine (Discipline.request_keeps d hforget trivial trivial).weaken
    (fun s h ↦ ⟨h.later, h.memos, fun _ _ ↦ trivial⟩) ?_ ?_
  · rintro _ s (⟨h, -, -⟩ | ⟨h, -⟩) <;> exact ⟨h.later, h.memos⟩
  · rintro _ s (⟨h, -⟩ | ⟨h, -⟩) <;> exact ⟨h.later, h.memos⟩

section Basic

variable {cred : BasicCred} {new : String} {method path : String} {body : Option String}

/-- With basic authorization a memo that parses is replaced within the call that is refused. -/
theorem request_basic_renews (hauth : environment.authMethod = .basic)
    (hcred : codec.basicCred new = some cred)
    (hget : credentials.get environment.id = .ok (some new))
    (hserver : BasicServer codec environment cred s₀) :
    Triple (MemoState s₀ environment.id
        (MemoCond (fun v ↦ (codec.basicCred v).isSome) True fun _ ↦ True))
      (request codec environment credentials method path body)
      (fun r s ↦ r.status ≠ 401 ∧ MemoState s₀ environment.id
        (MemoCond (fun v ↦ (codec.basicCred v).isSome) True fun _ ↦ True) s)
      (fun _ _ ↦ False) := by
  have hnew : ∀ value, credentials.get environment.id = .ok (some value) → value = new := by
    intro value h
    exact Option.some.inj (Except.ok.inj (h.symm.trans hget))
  -- Before the 401 any blob that parses is used, after it only the new one.
  let before : Discipline codec environment credentials s₀ :=
    memoDiscipline (fun v ↦ (codec.basicCred v).isSome) True (fun _ ↦ True)
      (fun _ value h ↦ by rw [hnew value h, hcred]; rfl) fun _ _ _ _ _ _ _ _ _ ↦ trivial
  let renewed : Discipline codec environment credentials s₀ :=
    memoDiscipline (· = new) True (fun _ ↦ True) (fun _ ↦ hnew) fun _ _ _ _ _ _ _ _ _ ↦ trivial
  have hforget : Triple before.Keeps (forget environment) (fun _ s ↦ renewed.Keeps s)
      fun _ _ ↦ False := by
    refine (Discipline.forget_basic hauth).weaken (fun _ h ↦ h) ?_ fun _ _ h ↦ h
    rintro _ _ ⟨s, hs, rfl⟩
    refine ⟨hs.later.of_eq rfl rfl rfl rfl, ?_, fun _ _ ↦ trivial⟩
    show MemoCond _ _ _ _ (Function.update s.credentialBlobs environment.id none environment.id)
    rw [Function.update_self]
    exact ⟨fun _ h ↦ (by cases h), fun _ ↦ trivial, fun _ _ ↦ trivial⟩
  have husable : ∀ (d : Discipline codec environment credentials s₀),
      (∀ blob, d.Blob blob → (codec.basicCred blob.value).isSome) → d.Usable := by
    intro d h
    refine ⟨⟨new, hget⟩, fun blob hblob ↦ ?_⟩
    rw [hauth]
    exact h blob hblob
  have herror : ∀ (d : Discipline codec environment credentials s₀),
      (∀ blob, d.Blob blob → (codec.basicCred blob.value).isSome) →
      ∀ e, ¬ d.Outcome method path body (.error e) := by
    rintro d hd e (h | ⟨headers, hheaders, hanswer⟩)
    · exact h (husable d hd)
    · simp only [Discipline.Auth, hauth] at hheaders
      obtain ⟨blob, parsed, -, -, rfl⟩ := hheaders
      by_cases hv : basicAuthorization codec parsed.username parsed.password =
          basicAuthorization codec cred.username cred.password
      · obtain ⟨_, h, -⟩ := hserver.accepts method path body _ (hv ▸ hanswer)
        cases h
      · obtain ⟨_, h, -⟩ := hserver.refuses method path body _ hv _ hanswer
        cases h
  have hrenewed : ∀ blob, renewed.Blob blob → (codec.basicCred blob.value).isSome := by
    intro blob h
    rw [show blob.value = new from h, hcred]
    rfl
  refine (Discipline.request_keeps renewed hforget trivial trivial).weaken
    (fun s h ↦ ⟨h.later, h.memos, fun _ _ ↦ trivial⟩) ?_ ?_
  · rintro r s (⟨h, hstatus, -⟩ | ⟨h, headers, hheaders, hanswer⟩)
    · exact ⟨hstatus, h.later, h.memos⟩
    · simp only [Discipline.Auth, hauth] at hheaders
      obtain ⟨blob, parsed, hblob, hparsed, rfl⟩ := hheaders
      rw [show blob.value = new from hblob, hcred] at hparsed
      obtain rfl := Option.some.inj hparsed
      obtain ⟨response, hr, hstatus⟩ := hserver.accepts method path body _ hanswer
      refine ⟨Except.ok.inj hr ▸ hstatus, h.later, ?_, h.memos.of_none,
        h.memos.of_token⟩
      intro held hheld
      exact hrenewed held (h.memos.of_blob held hheld)
  · rintro e s (⟨-, h⟩ | ⟨-, h⟩)
    · exact herror before (fun _ h ↦ h) e h
    · exact herror renewed hrenewed e h

/-- With basic authorization a memo that does not parse fails each call and stays. -/
theorem request_basic_stuck (hauth : environment.authMethod = .basic) :
    Triple (MemoState s₀ environment.id
        (MemoCond (fun v ↦ ¬ (codec.basicCred v).isSome) False fun _ ↦ True))
      (request codec environment credentials method path body)
      (fun r s ↦ r.status = 401 ∧ MemoState s₀ environment.id
        (MemoCond (fun v ↦ ¬ (codec.basicCred v).isSome) False fun _ ↦ True) s)
      (fun _ s ↦ MemoState s₀ environment.id
        (MemoCond (fun v ↦ ¬ (codec.basicCred v).isSome) False fun _ ↦ True) s) := by
  let d : Discipline codec environment credentials s₀ :=
    memoDiscipline (fun v ↦ ¬ (codec.basicCred v).isSome) False (fun _ ↦ True)
      (fun h ↦ h.elim) fun _ _ _ _ _ _ _ _ _ ↦ trivial
  have hnone : ∀ r, ¬ d.Outcome method path body (.ok r) := by
    rintro r ⟨headers, hheaders, -⟩
    simp only [Discipline.Auth, hauth] at hheaders
    obtain ⟨blob, parsed, hblob, hparsed, -⟩ := hheaders
    exact hblob (by rw [hparsed]; rfl)
  refine Triple.bind (fun _ _ ↦ False) ((Discipline.attempt_keeps (d := d) trivial).weaken
    (fun s h ↦ ⟨h.later, h.memos, fun _ _ ↦ trivial⟩)
    (fun r _ h ↦ hnone r h.2) fun _ _ h ↦ ⟨h.1.later, h.1.memos⟩)
    fun _ _ h ↦ h.elim

end Basic

section Oauth

variable {cred : OauthCred} {new : String} {issued : String → Prop}
variable {method path : String} {body : Option String}

/-- A blob whose token request is the one of `cred`. -/
def Asks (codec : Codec) (cred : OauthCred) (blob : String) : Prop :=
  (codec.oauthCred blob).map tokenBody = some (tokenBody cred)

theorem tokenBody_of_asks {parsed : OauthCred} {blob : String} (h : Asks codec cred blob)
    (hparsed : codec.oauthCred blob = some parsed) : tokenBody parsed = tokenBody cred := by
  rw [Asks, hparsed] at h
  exact Option.some.inj h

/-- Forgetting the token leaves a memo that asks as before, under any condition on tokens. -/
theorem forget_oauth_memoDiscipline (hauth : environment.authMethod = .oauthClientCredentials)
    {B : String → Prop} {R : Prop} {T T' : String → Prop}
    (hstore : R → ∀ value, credentials.get environment.id = .ok (some value) → B value)
    (hgrant : ∀ blob parsed response grant, B blob → codec.oauthCred blob = some parsed →
      Answered s₀ (tokenRequest environment (tokenBody parsed)) (.ok response) →
      response.status = 200 → codec.accessGrant response.body = some grant →
        T grant.accessToken)
    (hgrant' : ∀ blob parsed response grant, B blob → codec.oauthCred blob = some parsed →
      Answered s₀ (tokenRequest environment (tokenBody parsed)) (.ok response) →
      response.status = 200 → codec.accessGrant response.body = some grant →
        T' grant.accessToken) :
    Triple (memoDiscipline B R T hstore hgrant).Keeps (forget environment)
      (fun _ s ↦ (memoDiscipline B R T' hstore hgrant').Keeps s) fun _ _ ↦ False := by
  refine (Discipline.forget_oauth hauth).weaken (fun _ h ↦ h) ?_ fun _ _ h ↦ h
  rintro _ _ ⟨s, hs, rfl⟩
  refine ⟨hs.later.of_eq rfl rfl rfl rfl, ?_, fun _ _ ↦ trivial⟩
  show MemoCond _ _ _ (Function.update s.tokens environment.id none environment.id) _
  rw [Function.update_self]
  exact ⟨hs.memos.of_blob, hs.memos.of_none, fun _ h ↦ by cases h⟩

/-- With OAuth a memo that asks with the new secret gets a new token within the call that is
refused. -/
theorem request_oauth_renews (hauth : environment.authMethod = .oauthClientCredentials)
    (hcred : codec.oauthCred new = some cred)
    (hget : credentials.get environment.id = .ok (some new))
    (hserver : OauthServer codec environment cred issued s₀) :
    Triple (MemoState s₀ environment.id
        (MemoCond (Asks codec cred) True fun _ ↦ True))
      (request codec environment credentials method path body)
      (fun r s ↦ r.status ≠ 401 ∧ MemoState s₀ environment.id
        (MemoCond (Asks codec cred) True fun _ ↦ True) s)
      (fun _ _ ↦ False) := by
  have hstore : ∀ value, credentials.get environment.id = .ok (some value) →
      Asks codec cred value := by
    intro value h
    rw [Asks, Option.some.inj (Except.ok.inj (h.symm.trans hget)), hcred]
    rfl
  -- Before the 401 any token is used, after it only one that was granted since.
  let before : Discipline codec environment credentials s₀ :=
    memoDiscipline (Asks codec cred) True (fun _ ↦ True) (fun _ ↦ hstore)
      fun _ _ _ _ _ _ _ _ _ ↦ trivial
  let renewed : Discipline codec environment credentials s₀ :=
    memoDiscipline (Asks codec cred) True issued (fun _ ↦ hstore) (by
      intro blob parsed response grant hasks hparsed hanswer _ hgranted
      rw [tokenBody_of_asks hasks hparsed] at hanswer
      obtain ⟨r, g, hr, -, hg, hissued⟩ := hserver.grants _ hanswer
      obtain rfl := Except.ok.inj hr
      obtain rfl := Option.some.inj (hgranted.symm.trans hg)
      exact hissued)
  have hforget : Triple before.Keeps (forget environment) (fun _ s ↦ renewed.Keeps s)
      fun _ _ ↦ False := forget_oauth_memoDiscipline hauth _ _ _
  have herror : ∀ (d : Discipline codec environment credentials s₀),
      (∀ blob, d.Blob blob → Asks codec cred blob.value) →
      ∀ e, ¬ d.Outcome method path body (.error e) := by
    rintro d hd e (h | ⟨headers, hheaders, hanswer⟩)
    · refine h ⟨⟨new, hget⟩, fun blob hblob ↦ ?_⟩
      rw [hauth]
      obtain ⟨parsed, hparsed, hbody⟩ := Option.map_eq_some_iff.mp (hd blob hblob)
      refine ⟨parsed, hparsed, fun answer hanswer ↦ ?_⟩
      obtain ⟨r, grant, hr, h200, hgrant, -⟩ := hserver.grants answer (hbody ▸ hanswer)
      exact ⟨r, grant, hr, h200, hgrant⟩
    · simp only [Discipline.Auth, hauth] at hheaders
      obtain ⟨access, -, rfl⟩ := hheaders
      by_cases hissued : issued access.value
      · obtain ⟨_, h, -⟩ := hserver.accepts method path body _ hissued _ hanswer
        cases h
      · obtain ⟨_, h, -⟩ := hserver.refuses method path body _ hissued _ hanswer
        cases h
  refine (Discipline.request_keeps renewed hforget trivial trivial).weaken
    (fun s h ↦ ⟨h.later, h.memos, fun _ _ ↦ trivial⟩) ?_ ?_
  · rintro r s (⟨h, hstatus, -⟩ | ⟨h, headers, hheaders, hanswer⟩)
    · exact ⟨hstatus, h.later, h.memos⟩
    · simp only [Discipline.Auth, hauth] at hheaders
      obtain ⟨access, haccess, rfl⟩ := hheaders
      obtain ⟨response, hr, hstatus⟩ := hserver.accepts method path body _ haccess _ hanswer
      exact ⟨Except.ok.inj hr ▸ hstatus, h.later, h.memos.of_blob,
        h.memos.of_none, fun _ _ ↦ trivial⟩
  · rintro e s (⟨-, h⟩ | ⟨-, h⟩)
    · exact herror before (fun _ h ↦ h) e h
    · exact herror renewed (fun _ h ↦ h) e h

/-- With OAuth a memo that asks with another secret fails each call and stays. -/
theorem request_oauth_stuck (hauth : environment.authMethod = .oauthClientCredentials)
    (hserver : OauthServer codec environment cred issued s₀) :
    Triple (MemoState s₀ environment.id
        (MemoCond (fun v ↦ ¬ Asks codec cred v) False fun t ↦ ¬ issued t))
      (request codec environment credentials method path body)
      (fun r s ↦ r.status = 401 ∧ MemoState s₀ environment.id
        (MemoCond (fun v ↦ ¬ Asks codec cred v) False fun t ↦ ¬ issued t) s)
      (fun _ s ↦ MemoState s₀ environment.id
        (MemoCond (fun v ↦ ¬ Asks codec cred v) False fun t ↦ ¬ issued t) s) := by
  let d : Discipline codec environment credentials s₀ :=
    memoDiscipline (fun v ↦ ¬ Asks codec cred v) False (fun t ↦ ¬ issued t) (fun h ↦ h.elim) (by
      intro blob parsed response grant hasks hparsed hanswer h200 _
      have hbody : tokenBody parsed ≠ tokenBody cred := by
        intro h
        exact hasks (by rw [Asks, hparsed, Option.map_some, h])
      obtain ⟨r, hr, h401⟩ := hserver.refuses_secret _ hbody _ hanswer
      rw [← Except.ok.inj hr, h200] at h401
      cases h401)
  have hforget : Triple d.Keeps (forget environment) (fun _ s ↦ d.Keeps s) fun _ _ ↦ False :=
    forget_oauth_memoDiscipline hauth _ _ _
  have h401 : ∀ r, d.Outcome method path body (.ok r) → r.status = 401 := by
    rintro r ⟨headers, hheaders, hanswer⟩
    simp only [Discipline.Auth, hauth] at hheaders
    obtain ⟨access, haccess, rfl⟩ := hheaders
    obtain ⟨response, hr, hstatus⟩ := hserver.refuses method path body _ haccess _ hanswer
    exact Except.ok.inj hr ▸ hstatus
  refine (Discipline.request_keeps d hforget trivial trivial).weaken
    (fun s h ↦ ⟨h.later, h.memos, fun _ _ ↦ trivial⟩) ?_ ?_
  · rintro r s (⟨-, hstatus, h⟩ | ⟨h, hr⟩)
    · exact absurd (h401 r h) hstatus
    · exact ⟨h401 r hr, h.later, h.memos⟩
  · rintro e s (⟨h, -⟩ | ⟨h, -⟩) <;> exact ⟨h.later, h.memos⟩

end Oauth

end Disciplines

/-! ## Runs of later calls -/

variable {codec : Codec} {environment : EnvironmentConfig} {new : String}

/-- Every call leaves a later state of the same client. -/
theorem serve_later (codec : Codec) (s : Session) (calls : List Call) :
    s.Later (serve codec s calls) := by
  have hgo : ∀ t, s.Later t → s.Later (serve codec t calls) := by
    induction calls with
    | nil => exact fun _ h ↦ h
    | cons call calls ih =>
      intro t ht
      exact ih _ (final_of_triple request_later (fun _ _ h ↦ h) (fun _ _ h ↦ h) ht)
  exact hgo s .refl

/-- Under an invariant by which no call for the Environment fails, none of a run does. -/
theorem failures_eq_zero {s₀ : Session}
    {J : Option CachedToken → Option (Held String) → Prop}
    (hstep : ∀ credentials method path body,
      credentials.get environment.id = .ok (some new) →
      Triple (MemoState s₀ environment.id J)
        (request codec environment credentials method path body)
        (fun r s ↦ r.status ≠ 401 ∧ MemoState s₀ environment.id J s)
        (fun _ _ ↦ False))
    (calls : List Call) (hlater : ∀ call ∈ calls, call.Later environment new) (s : Session)
    (hs : MemoState s₀ environment.id J s) :
    failures codec environment.id s calls = 0 := by
  induction calls generalizing s with
  | nil => rfl
  | cons call calls ih =>
    have ih := ih fun c hc ↦ hlater c (List.mem_cons_of_mem _ hc)
    by_cases hid : call.environment.id = environment.id
    · obtain ⟨henv, hget⟩ := hlater call List.mem_cons_self hid
      have hstep := hstep call.credentials call.method call.path call.body hget
      have hrun := hstep s hs
      rw [failures, ih _ (by
        rw [Call.run, henv]
        exact final_of_triple hstep (fun _ _ h ↦ h.2) (fun _ _ h ↦ h.elim) hs)]
      simp only [Call.fails, Call.run, henv]
      cases hx : request codec environment call.credentials call.method call.path call.body s with
      | ok r t =>
        rw [hx] at hrun
        simpa using hrun.1
      | error e t =>
        rw [hx] at hrun
        exact hrun.elim
    · rw [failures, if_neg fun h ↦ hid h.1, Nat.zero_add]
      exact ih _ (final_of_triple (request_other hid) (fun _ _ h ↦ h) (fun _ _ h ↦ h) hs)

/-- Under an invariant by which each call for the Environment fails, two calls are two failures. -/
theorem not_pickedUp {s₀ : Session}
    {J : Option CachedToken → Option (Held String) → Prop}
    (hstep : ∀ credentials method path body,
      Triple (MemoState s₀ environment.id J)
        (request codec environment credentials method path body)
        (fun r s ↦ r.status = 401 ∧ MemoState s₀ environment.id J s)
        (fun _ s ↦ MemoState s₀ environment.id J s))
    {s : Session} (hs : MemoState s₀ environment.id J s) :
    ¬ PickedUp codec environment new s := by
  intro h
  let store : CredentialStore := { get := fun _ ↦ .ok (some new), origin := .stored }
  let call : Call := ⟨environment, store, "GET", "/", none⟩
  have hfails : ∀ t, MemoState s₀ environment.id J t → call.fails codec t = true ∧
      MemoState s₀ environment.id J (final (call.run codec t)) := by
    intro t ht
    have hrun := hstep store "GET" "/" none t ht
    refine ⟨?_, final_of_triple (hstep store "GET" "/" none) (fun _ _ h ↦ h.2) (fun _ _ h ↦ h) ht⟩
    rw [Call.fails]
    cases hx : call.run codec t with
    | ok r t' =>
      rw [show request codec environment store "GET" "/" none t = .ok r t' from hx] at hrun
      simpa using hrun.1
    | error e t' => rfl
  have hlater : ∀ c ∈ [call, call], c.Later environment new := by
    intro c hc _
    rw [show c = call by simpa using hc]
    exact ⟨rfl, rfl⟩
  have htwo := h [call, call] hlater
  obtain ⟨hfirst, hnext⟩ := hfails s hs
  obtain ⟨hsecond, -⟩ := hfails _ hnext
  rw [failures, failures, failures, if_pos ⟨rfl, hfirst⟩, if_pos ⟨rfl, hsecond⟩] at htwo
  omega

/-- In any state of the client a rotation is picked up exactly if the memo allows it. -/
theorem pickedUp_iff_renews {s : Session} (hrotated : Rotated codec environment new s) :
    PickedUp codec environment new s ↔ Renews codec environment new s := by
  unfold Rotated at hrotated
  cases hauth : environment.authMethod with
  | basic =>
    simp only [hauth] at hrotated
    obtain ⟨cred, hcred, hserver⟩ := hrotated
    by_cases hfits : Renews codec environment new s
    · refine iff_of_true (fun calls hlater ↦ ?_) hfits
      rw [failures_eq_zero (fun _ _ _ _ hget ↦ request_basic_renews hauth hcred hget hserver)
        calls hlater s ⟨.refl, ?_⟩]
      · exact Nat.zero_le 1
      · refine ⟨fun held h ↦ ?_, fun _ ↦ trivial, fun _ _ ↦ trivial⟩
        simpa [Fits, hauth] using hfits held h
    · refine iff_of_false (not_pickedUp (fun _ _ _ _ ↦ request_basic_stuck hauth)
        ⟨.refl, ?_⟩) hfits
      simp only [Renews, not_forall, exists_prop, Fits, hauth] at hfits
      obtain ⟨blob, hblob, hfits⟩ := hfits
      refine ⟨fun held h ↦ ?_, fun h ↦ ?_, fun _ _ ↦ trivial⟩
      · rw [← Option.some.inj (hblob.symm.trans h)]
        exact hfits
      · cases hblob.symm.trans h
  | oauthClientCredentials =>
    simp only [hauth] at hrotated
    obtain ⟨cred, issued, hcred, hserver, hcached⟩ := hrotated
    have hasks : ∀ blob, Fits codec environment new blob ↔ Asks codec cred blob := by
      intro blob
      simp only [Fits, hauth, hcred, Asks, Option.map_some]
    by_cases hfits : Renews codec environment new s
    · refine iff_of_true (fun calls hlater ↦ ?_) hfits
      rw [failures_eq_zero (fun _ _ _ _ hget ↦ request_oauth_renews hauth hcred hget hserver)
        calls hlater s ⟨.refl, ?_⟩]
      · exact Nat.zero_le 1
      · exact ⟨fun held h ↦ (hasks _).mp (hfits held h), fun _ ↦ trivial, fun _ _ ↦ trivial⟩
    · refine iff_of_false (not_pickedUp (fun _ _ _ _ ↦ request_oauth_stuck hauth hserver)
        ⟨.refl, ?_⟩) hfits
      simp only [Renews, not_forall, exists_prop, hasks] at hfits
      obtain ⟨blob, hblob, hfits⟩ := hfits
      refine ⟨fun held h ↦ ?_, fun h ↦ ?_, hcached⟩
      · rw [← Option.some.inj (hblob.symm.trans h)]
        exact hfits
      · cases hblob.symm.trans h

/-- After any calls on a new client, a rotation is picked up exactly if the memo allows it. -/
theorem rotation_pickedUp_iff (codec : Codec) (environment : EnvironmentConfig) (new : String)
    (transport : Nat → HttpRequest → Except String HttpResponse) (clock : Nat → Nat)
    (history : List Call)
    (hrotated : Rotated codec environment new
      (serve codec (Session.new transport clock) history)) :
    PickedUp codec environment new (serve codec (Session.new transport clock) history) ↔
      Renews codec environment new (serve codec (Session.new transport clock) history) :=
  pickedUp_iff_renews hrotated

/-- A store that has this blob for each Environment. -/
def storeOf (value : String) : CredentialStore where
  get _ := .ok (some value)
  origin := .stored

/-- A call with this blob in the store. -/
def callWith (authMethod : AuthMethod) (value : String) : Call :=
  ⟨sampleEnvironment authMethod, storeOf value, "GET", "/", none⟩

/-- The old password up to the first request, the new one afterwards. -/
def basicRotation (n : Nat) (request : HttpRequest) : Except String HttpResponse :=
  let secret := if n < 1 then "dTpvbGQ=" else "dTpuZXc="
  if request.headers = [("Authorization", "Basic " ++ secret)] then .ok (plainResponse 200 "")
  else .ok (plainResponse 401 "")

/-- A memoized password is replaced after its first 401. -/
theorem rotation_pickedUp_basic : PickedUp sampleCodec (sampleEnvironment .basic) (basicText "new")
    (serve sampleCodec (Session.new basicRotation id) [callWith .basic (basicText "old")]) := by
  have hlater := serve_later sampleCodec (Session.new basicRotation id)
    [callWith .basic (basicText "old")]
  have hsent : (serve sampleCodec (Session.new basicRotation id)
      [callWith .basic (basicText "old")]).sent.length = 1 := by decide +kernel
  have hmemo : (serve sampleCodec (Session.new basicRotation id)
      [callWith .basic (basicText "old")]).credentialBlobs "prod" =
        some ⟨basicText "old", .stored "prod"⟩ := by decide +kernel
  have hnew : basicAuthorization sampleCodec "u" "new" = "Basic dTpuZXc=" := by decide +kernel
  have hanswer : ∀ {n request}, 1 ≤ n → (serve sampleCodec (Session.new basicRotation id)
      [callWith .basic (basicText "old")]).transport n request =
        if request.headers = [("Authorization", "Basic dTpuZXc=")] then .ok (plainResponse 200 "")
        else .ok (plainResponse 401 "") := by
    intro n request hn
    rw [hlater.transport_eq]
    simp [Session.new, basicRotation, Nat.not_lt.mpr hn]
  refine (rotation_pickedUp_iff sampleCodec (sampleEnvironment .basic) (basicText "new")
    basicRotation id [callWith .basic (basicText "old")]
    ⟨⟨"u", "new"⟩, by decide +kernel, ?_, ?_⟩).mpr fun blob hblob ↦ ?_
  · rintro method path body _ ⟨n, hn, rfl⟩
    rw [hanswer (hsent ▸ hn), hnew, if_pos (by rfl)]
    exact ⟨_, rfl, by decide⟩
  · rintro method path body value hvalue _ ⟨n, hn, rfl⟩
    rw [hanswer (hsent ▸ hn), if_neg (by simpa [dataRequest, hnew] using hvalue)]
    exact ⟨_, rfl, rfl⟩
  · rw [show (sampleEnvironment .basic).id = "prod" from rfl, hmemo] at hblob
    rw [← Option.some.inj hblob]
    show (sampleCodec.basicCred (basicText "old")).isSome
    decide +kernel

/-- Grants and takes the token of the old secret up to the second request, of the new one
afterwards. -/
def oauthRotation (n : Nat) (request : HttpRequest) : Except String HttpResponse :=
  let secret := if n < 2 then "old" else "new"
  if request.headers = [("Authorization", "Bearer " ++ secret)] then .ok (plainResponse 200 "")
  else if request = tokenRequest (sampleEnvironment .oauthClientCredentials)
      (tokenBody ⟨"c", secret⟩) then .ok (plainResponse 200 (grantText secret))
  else .ok (plainResponse 401 "")

/-- After a rotation the client goes on to ask for tokens with the secret it memoized: the first
call loses its token and fails, and so does the second. -/
theorem rotation_ignored_for_oauth :
    Rotated sampleCodec (sampleEnvironment .oauthClientCredentials) (oauthText "new")
        (serve sampleCodec (Session.new oauthRotation id)
          [callWith .oauthClientCredentials (oauthText "old")]) ∧
      ¬ PickedUp sampleCodec (sampleEnvironment .oauthClientCredentials) (oauthText "new")
        (serve sampleCodec (Session.new oauthRotation id)
          [callWith .oauthClientCredentials (oauthText "old")]) := by
  refine ⟨?_, fun h ↦ ?_⟩
  · have hlater := serve_later sampleCodec (Session.new oauthRotation id)
      [callWith .oauthClientCredentials (oauthText "old")]
    have hsent : (serve sampleCodec (Session.new oauthRotation id)
        [callWith .oauthClientCredentials (oauthText "old")]).sent.length = 2 := by decide +kernel
    have htoken : (serve sampleCodec (Session.new oauthRotation id)
        [callWith .oauthClientCredentials (oauthText "old")]).tokens "prod" =
          some ⟨⟨"old", .stored "prod"⟩, 1770 * second⟩ := by decide +kernel
    have hanswer : ∀ {n request}, 2 ≤ n →
        (serve sampleCodec (Session.new oauthRotation id)
          [callWith .oauthClientCredentials (oauthText "old")]).transport n request =
        if request.headers = [("Authorization", "Bearer " ++ "new")] then
          .ok (plainResponse 200 "")
        else if request = tokenRequest (sampleEnvironment .oauthClientCredentials)
            (tokenBody ⟨"c", "new"⟩) then .ok (plainResponse 200 (grantText "new"))
        else .ok (plainResponse 401 "") := by
      intro n request hn
      rw [hlater.transport_eq]
      simp [Session.new, oauthRotation, Nat.not_lt.mpr hn]
    refine ⟨⟨"c", "new"⟩, (· = "new"), by decide +kernel, ⟨?_, ?_, ?_, ?_⟩, ?_⟩
    · rintro _ ⟨n, hn, rfl⟩
      rw [hanswer (hsent ▸ hn), if_neg (by simp [tokenRequest]), if_pos rfl]
      exact ⟨_, ⟨"new", some 1800⟩, rfl, rfl, by decide +kernel, rfl⟩
    · rintro body hbody _ ⟨n, hn, rfl⟩
      rw [hanswer (hsent ▸ hn), if_neg (by simp [tokenRequest]),
        if_neg (by simpa [tokenRequest] using hbody)]
      exact ⟨_, rfl, rfl⟩
    · rintro method path body token rfl _ ⟨n, hn, rfl⟩
      rw [hanswer (hsent ▸ hn), if_pos (by rfl)]
      exact ⟨_, rfl, by decide⟩
    · rintro method path body token htoken _ ⟨n, hn, rfl⟩
      have hheader : "Bearer " ++ token ≠ "Bearer " ++ "new" := by
        intro h
        exact htoken (by simpa [String.ext_iff] using h)
      rw [hanswer (hsent ▸ hn), if_neg (by simpa [dataRequest] using hheader),
        if_neg (by simp [tokenRequest, dataRequest])]
      exact ⟨_, rfl, rfl⟩
    · intro cached hcached
      rw [show (sampleEnvironment .oauthClientCredentials).id = "prod" from rfl, htoken] at hcached
      rw [← Option.some.inj hcached]
      decide
  · have h := h [callWith .oauthClientCredentials (oauthText "new"),
      callWith .oauthClientCredentials (oauthText "new")] (by
        intro call hcall _
        rw [show call = callWith .oauthClientCredentials (oauthText "new") by simpa using hcall]
        exact ⟨rfl, rfl⟩)
    revert h
    decide +kernel

end Daku.Http
