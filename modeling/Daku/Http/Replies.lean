import Daku.Http.Rules

/-!
# Calls on a server with fixed replies

If every request has one reply, the end of a call is a function of the memos and of the blob in
the store: the header of a basic Credential decides it, and for OAuth the token in use, else the
token request of the blob.
-/

namespace Daku.Http

open Daku.Base Daku.Protocol

/-- From this state on the server gives each request its reply. -/
def Serves (server : HttpRequest → HttpResponse) (s : Session) : Prop :=
  ∀ n, s.sent.length ≤ n → ∀ request, s.transport n request = .ok (server request)

/-- How a program ends from a state. -/
def outcome {α : Type} (x : ClientM α) (s : Session) : Except String α :=
  match x s with
  | .ok a _ => .ok a
  | .error e _ => .error e

/-- An end that a triple determines. -/
theorem outcome_eq {α : Type} {x : ClientM α} {P : Session → Prop} {r : Except String α}
    (h : Triple P x (fun a _ ↦ r = .ok a) (fun e _ ↦ r = .error e)) {s : Session} (hs : P s) :
    outcome x s = r := by
  have h := h s hs
  unfold outcome
  cases hx : x s with
  | ok a t => rw [hx] at h; exact h.symm
  | error e t => rw [hx] at h; exact h.symm

theorem outcome_bind_ofExcept {α β : Type} {x : ClientM α} {f : α → Except String β}
    {s : Session} :
    outcome (do let a ← x; ofExcept (f a)) s = (outcome x s).bind f := by
  unfold outcome
  simp only [bind, EStateM.bind]
  cases x s with
  | error e t => rfl
  | ok a t =>
    simp only [Except.bind]
    cases f a <;> rfl

/-- A client of the server with these two memos of an Environment. -/
structure With (server : HttpRequest → HttpResponse) (environmentId : String)
    (token : Option CachedToken) (blob : Option (Held String)) (s : Session) : Prop where
  serves : Serves server s
  token_eq : s.tokens environmentId = token
  blob_eq : s.credentialBlobs environmentId = blob

/-- A call's end on a basic Credential. -/
def basicAnswer (codec : Codec) (server : HttpRequest → HttpResponse)
    (environment : EnvironmentConfig) (method path : String) (body : Option String)
    (blob : String) : Except String HttpResponse :=
  match codec.basicCred blob with
  | none => .error "basic credential JSON"
  | some parsed => .ok (server (dataRequest environment method path body
      [("Authorization", basicAuthorization codec parsed.username parsed.password)]))

/-- The token that an OAuth Credential is granted. -/
def oauthGrant (codec : Codec) (server : HttpRequest → HttpResponse)
    (environment : EnvironmentConfig) (blob : String) : Except String String :=
  match codec.oauthCred blob with
  | none => .error "oauth credential JSON"
  | some parsed =>
    let response := server (tokenRequest environment (tokenBody parsed))
    if response.status ≠ 200 then
      .error s!"oauth_token.do returned HTTP {response.status} for {environment.id}"
    else
      match codec.accessGrant response.body with
      | none => .error "oauth token JSON"
      | some grant => .ok grant.accessToken

/-- The reply to a data request with this token. -/
def bearerReply (server : HttpRequest → HttpResponse) (environment : EnvironmentConfig)
    (method path : String) (body : Option String) (token : String) : HttpResponse :=
  server (dataRequest environment method path body [("Authorization", "Bearer " ++ token)])

variable {codec : Codec} {environment : EnvironmentConfig} {credentials : CredentialStore}
variable {server : HttpRequest → HttpResponse} {token : Option CachedToken}
variable {memo : Option (Held String)} {given : String}
variable {method path : String} {body : Option String} {ε : String → Session → Prop}

theorem With.now : Triple (With server environment.id token memo) now
    (fun _ s ↦ With server environment.id token memo s) ε :=
  fun _ h ↦ ⟨h.serves, h.token_eq, h.blob_eq⟩

/-- One request gets its reply and leaves the memos alone. -/
theorem Serves.execute {request : HttpRequest} {origin : Option Origin} {s : Session}
    (hs : Serves server s) :
    Triple (fun t ↦ t = s) (execute request origin)
      (fun r t ↦ r = server request ∧ Serves server t ∧ t.tokens = s.tokens ∧
        t.credentialBlobs = s.credentialBlobs) ε := by
  refine execute_spec.weaken (fun _ h ↦ h) ?_ ?_
  · rintro r _ ⟨hr, rfl⟩
    rw [hs _ (Nat.le_refl _)] at hr
    refine ⟨(Except.ok.inj hr).symm, fun n hn ↦ hs n ?_, rfl, rfl⟩
    rw [List.length_append] at hn
    exact Nat.le_of_add_right_le hn
  · rintro e _ ⟨he, -⟩
    rw [hs _ (Nat.le_refl _)] at he
    cases he

theorem With.execute {request : HttpRequest} {origin : Option Origin} :
    Triple (With server environment.id token memo) (execute request origin)
      (fun r s ↦ r = server request ∧ With server environment.id token memo s) ε := by
  refine Triple.of_forall fun s hs ↦ hs.serves.execute.weaken (fun _ h ↦ h) ?_ fun _ _ h ↦ h
  rintro r t ⟨hr, ht, htokens, hblobs⟩
  exact ⟨hr, ht, by rw [htokens, hs.token_eq], by rw [hblobs, hs.blob_eq]⟩

theorem With.send {request : HttpRequest} {origin : Option Origin} :
    Triple (With server environment.id token memo) (send codec request origin)
      (fun r s ↦ r = server request ∧ With server environment.id token memo s) ε := by
  have hgo : ∀ retries, Triple (With server environment.id token memo)
      (sendRetrying codec request origin retries)
      (fun r s ↦ r = server request ∧ With server environment.id token memo s) ε := by
    intro retries
    induction retries with
    | zero => exact With.execute
    | succ retries ih =>
      refine Triple.bind _ With.execute fun response ↦ ?_
      split
      · refine Triple.bind _ (With.now.weaken (fun _ h ↦ h.2) (fun _ _ h ↦ h) fun _ _ h ↦ h)
          fun now ↦ ?_
        exact Triple.modify_bind (ih.weaken
          (fun _ ⟨_, h, ht⟩ ↦ ht ▸ ⟨h.serves, h.token_eq, h.blob_eq⟩) (fun _ _ h ↦ h)
          fun _ _ h ↦ h)
      · exact Triple.pure fun _ h ↦ h
  exact hgo _

/-- The blob of a call is the memoized one, else the stored one, and is memoized then. The clock
is not read. -/
theorem With.credentialBlob {K : (Nat → Nat) → Nat → Prop}
    (hget : credentials.get environment.id = .ok (some given)) :
    Triple (fun s ↦ With server environment.id token memo s ∧ K s.clock s.readings)
      (credentialBlob environment credentials)
      (fun blob s ↦ blob.value = (memo.map Held.value).getD given ∧
        With server environment.id token (some blob) s ∧ K s.clock s.readings) ε := by
  refine Triple.get_bind fun s ⟨hs, hK⟩ ↦ ?_
  rw [hs.blob_eq]
  cases memo with
  | some blob => exact Triple.pure fun _ ht ↦ ht ▸ ⟨rfl, hs, hK⟩
  | none =>
    rw [hget]
    refine Triple.modify_bind (Triple.pure ?_)
    rintro _ ⟨_, rfl, rfl⟩
    exact ⟨rfl, ⟨hs.serves, hs.token_eq, Function.update_self _ _ _⟩, hK⟩

theorem With.forget_basic (hauth : environment.authMethod = .basic) :
    Triple (With server environment.id token memo) (forget environment)
      (fun _ s ↦ With server environment.id token none s) ε := by
  refine (Discipline.forget_basic hauth).weaken (fun _ h ↦ h) ?_ fun _ _ h ↦ h
  rintro _ _ ⟨s, hs, rfl⟩
  exact ⟨hs.serves, hs.token_eq, Function.update_self _ _ _⟩

theorem With.forget_oauth (hauth : environment.authMethod = .oauthClientCredentials) :
    Triple (With server environment.id token memo) (forget environment)
      (fun _ s ↦ With server environment.id none memo s) ε := by
  refine (Discipline.forget_oauth hauth).weaken (fun _ h ↦ h) ?_ fun _ _ h ↦ h
  rintro _ _ ⟨s, hs, rfl⟩
  exact ⟨hs.serves, Function.update_self _ _ _, hs.blob_eq⟩

/-! ## Basic authorization -/

theorem With.attempt_basic (hauth : environment.authMethod = .basic)
    (hget : credentials.get environment.id = .ok (some given)) :
    Triple (With server environment.id token memo)
      (attempt codec environment credentials method path body)
      (fun r s ↦ basicAnswer codec server environment method path body
          ((memo.map Held.value).getD given) = .ok r ∧
        ∃ blob, With server environment.id token blob s)
      (fun e _ ↦ basicAnswer codec server environment method path body
        ((memo.map Held.value).getD given) = .error e) := by
  unfold attempt authorize
  rw [hauth]
  refine Triple.bind (fun headers s ↦ (∃ blob, With server environment.id token blob s) ∧
      ∃ parsed, codec.basicCred ((memo.map Held.value).getD given) = some parsed ∧
        headers.value = [("Authorization",
          basicAuthorization codec parsed.username parsed.password)]) ?_ fun headers ↦ ?_
  · refine Triple.bind _ ((With.credentialBlob (K := fun _ _ ↦ True) hget).weaken
      (fun _ h ↦ ⟨h, trivial⟩) (fun _ _ h ↦ h) fun _ _ h ↦ h) fun blob ↦ ?_
    cases hparsed : codec.basicCred blob.value with
    | none =>
      refine Triple.throw fun _ h ↦ ?_
      rw [← h.1, basicAnswer, hparsed]
    | some parsed =>
      refine Triple.pure fun _ h ↦ ⟨⟨_, h.2.1⟩, parsed, ?_, rfl⟩
      rw [← h.1, hparsed]
  · refine Triple.of_forall fun s ⟨⟨blob, hs⟩, parsed, hparsed, hvalue⟩ ↦ ?_
    refine With.send.weaken (fun _ ht ↦ ht ▸ hs) (fun r t ht ↦ ⟨?_, blob, ht.2⟩) fun _ _ h ↦ h
    rw [ht.1, basicAnswer, hparsed, hvalue]

/-- With basic authorization a call ends as the memo has it, and after a 401 as the store has. -/
def basicResult (codec : Codec) (server : HttpRequest → HttpResponse)
    (environment : EnvironmentConfig) (method path : String) (body : Option String)
    (memo : Option String) (given : String) : Except String HttpResponse :=
  match basicAnswer codec server environment method path body (memo.getD given) with
  | .ok r => if r.status = 401 then basicAnswer codec server environment method path body given
    else .ok r
  | .error e => .error e

theorem With.request_basic (hauth : environment.authMethod = .basic)
    (hget : credentials.get environment.id = .ok (some given)) :
    Triple (With server environment.id token memo)
      (request codec environment credentials method path body)
      (fun r _ ↦ basicResult codec server environment method path body (memo.map Held.value)
        given = .ok r)
      (fun e _ ↦ basicResult codec server environment method path body (memo.map Held.value)
        given = .error e) := by
  refine Triple.bind _ ((With.attempt_basic hauth hget).weaken (fun _ h ↦ h) (fun _ _ h ↦ h)
    fun _ _ h ↦ ?_) fun r ↦ Triple.of_forall fun s ⟨hr, blob, hs⟩ ↦ ?_
  · rw [basicResult, h]
  · rw [basicResult, hr]
    dsimp only
    split
    · refine Triple.bind _ ((With.forget_basic hauth).weaken (fun _ ht ↦ ht ▸ hs) (fun _ _ h ↦ h)
        fun _ _ h ↦ h) fun _ ↦ ?_
      exact (With.attempt_basic hauth hget).weaken (fun _ h ↦ h) (fun _ _ h ↦ h.1) fun _ _ h ↦ h
    · exact Triple.pure fun _ _ ↦ rfl

/-! ## OAuth -/

theorem With.requestToken {blob : Held String} :
    Triple (With server environment.id token (some blob))
      (requestToken codec environment blob)
      (fun access s ↦ (∃ token, With server environment.id token (some blob) s) ∧
        oauthGrant codec server environment blob.value = .ok access.value)
      (fun e _ ↦ oauthGrant codec server environment blob.value = .error e) := by
  unfold Http.requestToken oauthGrant
  cases hparsed : codec.oauthCred blob.value with
  | none => exact Triple.throw fun _ _ ↦ rfl
  | some parsed =>
    refine Triple.bind _ With.send fun response ↦ Triple.of_forall fun s ⟨hr, hs⟩ ↦ ?_
    dsimp only
    rw [← hr]
    by_cases hstatus : response.status ≠ 200
    · rw [if_pos hstatus, if_pos hstatus]
      exact Triple.throw fun _ _ ↦ rfl
    · rw [if_neg hstatus, if_neg hstatus]
      cases hgrant : codec.accessGrant response.body with
      | none => exact Triple.throw fun _ _ ↦ rfl
      | some grant =>
        refine Triple.bind _ (With.now.weaken (fun _ ht ↦ ht ▸ hs) (fun _ _ h ↦ h)
          fun _ _ h ↦ h) fun now ↦ ?_
        refine Triple.modify_bind (Triple.pure ?_)
        rintro _ ⟨t, ht, rfl⟩
        exact ⟨⟨_, ht.serves, Function.update_self _ _ _, ht.blob_eq⟩, rfl⟩

/-- The token that a call uses at these readings of the clock: it looks twice. -/
def usedToken (clock : Nat → Nat) (readings : Nat) (token : Option CachedToken) :
    Option CachedToken :=
  token.filter fun cached ↦
    clock readings < cached.validUntil || clock (readings + 1) < cached.validUntil

/-- A client with these memos whose clock stands at a reading. -/
structure At (server : HttpRequest → HttpResponse) (environmentId : String)
    (token : Option CachedToken) (blob : Option (Held String)) (clock : Nat → Nat)
    (readings : Nat) (s : Session) : Prop where
  memos : With server environmentId token blob s
  clock_eq : s.clock = clock
  readings_eq : s.readings = readings

variable {clock : Nat → Nat} {k : Nat} {cached : CachedToken}

theorem At.cachedAccessToken_none :
    Triple (At server environment.id none memo clock k)
      (cachedAccessToken environment.id)
      (fun r s ↦ r = none ∧ At server environment.id none memo clock k s) ε := by
  refine Triple.get_bind fun s hs ↦ ?_
  rw [hs.memos.token_eq]
  exact Triple.pure fun _ ht ↦ ht ▸ ⟨rfl, hs⟩

theorem At.cachedAccessToken :
    Triple (At server environment.id (some cached) memo clock k)
      (cachedAccessToken environment.id)
      (fun r s ↦ r = (if clock k < cached.validUntil then some cached.access else none) ∧
        At server environment.id (some cached) memo clock (k + 1) s) ε := by
  refine Triple.get_bind fun s hs ↦ ?_
  rw [hs.memos.token_eq]
  refine Triple.bind (fun r t ↦ r = clock k ∧
    At server environment.id (some cached) memo clock (k + 1) t) ?_ fun now ↦
      Triple.pure fun t ⟨hr, ht⟩ ↦ ⟨by rw [hr], ht⟩
  rintro t rfl
  refine ⟨?_, ⟨hs.memos.serves, hs.memos.token_eq, hs.memos.blob_eq⟩, hs.clock_eq, ?_⟩
  · rw [← hs.clock_eq, ← hs.readings_eq]
  · rw [← hs.readings_eq]

theorem At.credentialBlob (hget : credentials.get environment.id = .ok (some given)) :
    Triple (At server environment.id token memo clock k)
      (credentialBlob environment credentials)
      (fun blob s ↦ blob.value = (memo.map Held.value).getD given ∧
        At server environment.id token (some blob) clock k s) ε :=
  (With.credentialBlob (K := fun c n ↦ c = clock ∧ n = k) hget).weaken
    (fun _ h ↦ ⟨h.memos, h.clock_eq, h.readings_eq⟩)
    (fun _ _ h ↦ ⟨h.1, h.2.1, h.2.2.1, h.2.2.2⟩) fun _ _ h ↦ h

/-- A client of the server for which the blob of the next call has this value. -/
def Ready (server : HttpRequest → HttpResponse) (environmentId given value : String)
    (s : Session) : Prop :=
  ∃ token blob, With server environmentId token blob s ∧
    (blob.map Held.value).getD given = value

variable {value : String}

/-- The headers of a call: those of the token in use, else of one its blob is granted. -/
theorem At.authorize_oauth (hauth : environment.authMethod = .oauthClientCredentials)
    (hget : credentials.get environment.id = .ok (some given))
    (hvalue : (memo.map Held.value).getD given = value) :
    Triple (At server environment.id token memo clock k)
      (authorize codec environment credentials)
      (fun headers s ↦ Ready server environment.id given value s ∧ ∃ access,
        headers.value = [("Authorization", "Bearer " ++ access)] ∧
        match usedToken clock k token with
        | some cached => access = cached.access.value
        | none => oauthGrant codec server environment value = .ok access)
      (fun e _ ↦ usedToken clock k token = none ∧
        oauthGrant codec server environment value = .error e) := by
  -- Without a token in use the blob has to be granted one.
  have hrequest : ∀ {token : Option CachedToken} {blob : Held String}, blob.value = value →
      usedToken clock k token = none →
      Triple (With server environment.id token (some blob)) (requestToken codec environment blob)
        (fun access s ↦ Ready server environment.id given value s ∧
          ∃ access', (bearer access).value = [("Authorization", "Bearer " ++ access')] ∧
            match usedToken clock k token with
            | some cached => access' = cached.access.value
            | none => oauthGrant codec server environment value = .ok access')
        (fun e _ ↦ usedToken clock k token = none ∧
          oauthGrant codec server environment value = .error e) := by
    intro token blob hblob hnone
    refine With.requestToken.weaken (fun _ h ↦ h) ?_ ?_
    · rintro access s ⟨⟨token, hs⟩, hgrant⟩
      refine ⟨⟨token, some blob, hs, hblob⟩, access.value, rfl, ?_⟩
      rw [hnone]
      exact hblob ▸ hgrant
    · rintro e _ h
      exact ⟨hnone, hblob ▸ h⟩
  unfold authorize
  rw [hauth]
  cases token with
  | none =>
    refine Triple.bind _ At.cachedAccessToken_none fun r ↦ Triple.of_forall fun s ⟨hr, hs⟩ ↦ ?_
    rw [hr]
    refine Triple.bind _ ((At.credentialBlob hget).weaken (fun _ ht ↦ ht ▸ hs) (fun _ _ h ↦ h)
      fun _ _ h ↦ h) fun blob ↦ Triple.of_forall fun t ⟨hblob, ht⟩ ↦ ?_
    refine Triple.bind _ (Triple.bind _ (At.cachedAccessToken_none.weaken (fun _ hu ↦ hu ▸ ht)
      (fun _ _ h ↦ h) fun _ _ h ↦ h) fun r ↦ Triple.of_forall fun u ⟨hr, hu⟩ ↦ ?_) fun access ↦
        Triple.pure fun _ h ↦ h
    rw [hr]
    exact (hrequest (hblob.trans hvalue) rfl).weaken (fun _ hv ↦ hv ▸ hu.memos) (fun _ _ h ↦ h)
      fun _ _ h ↦ h
  | some cached =>
    refine Triple.bind _ At.cachedAccessToken fun r ↦ Triple.of_forall fun s ⟨hr, hs⟩ ↦ ?_
    by_cases hfirst : clock k < cached.validUntil
    · rw [hr, if_pos hfirst]
      refine Triple.pure fun t ht ↦ ⟨ht ▸ ⟨_, memo, hs.memos, hvalue⟩, cached.access.value, rfl, ?_⟩
      simp only [usedToken, Option.filter_some, hfirst, decide_true, Bool.true_or, if_true]
    · rw [hr, if_neg hfirst]
      refine Triple.bind _ ((At.credentialBlob hget).weaken (fun _ ht ↦ ht ▸ hs) (fun _ _ h ↦ h)
        fun _ _ h ↦ h) fun blob ↦ Triple.of_forall fun t ⟨hblob, ht⟩ ↦ ?_
      refine Triple.bind _ (Triple.bind _ (At.cachedAccessToken.weaken (fun _ hu ↦ hu ▸ ht)
        (fun _ _ h ↦ h) fun _ _ h ↦ h) fun r ↦ Triple.of_forall fun u ⟨hr, hu⟩ ↦ ?_) fun access ↦
          Triple.pure fun _ h ↦ h
      by_cases hsecond : clock (k + 1) < cached.validUntil
      · rw [hr, if_pos hsecond]
        refine Triple.pure fun v hv ↦ ⟨hv ▸ ⟨_, _, hu.memos, hblob.trans hvalue⟩,
          cached.access.value, rfl, ?_⟩
        simp only [usedToken, Option.filter_some, hsecond, decide_true, Bool.or_true, if_true]
      · rw [hr, if_neg hsecond]
        refine (hrequest (hblob.trans hvalue) ?_).weaken (fun _ hv ↦ hv ▸ hu.memos) (fun _ _ h ↦ h)
          fun _ _ h ↦ h
        simp only [usedToken, Option.filter_some, hfirst, hsecond, decide_false, Bool.or_self]
        rfl

theorem At.attempt_oauth (hauth : environment.authMethod = .oauthClientCredentials)
    (hget : credentials.get environment.id = .ok (some given))
    (hvalue : (memo.map Held.value).getD given = value) :
    Triple (At server environment.id token memo clock k)
      (attempt codec environment credentials method path body)
      (fun r s ↦ Ready server environment.id given value s ∧ ∃ access,
        r = bearerReply server environment method path body access ∧
        match usedToken clock k token with
        | some cached => access = cached.access.value
        | none => oauthGrant codec server environment value = .ok access)
      (fun e _ ↦ usedToken clock k token = none ∧
        oauthGrant codec server environment value = .error e) := by
  refine Triple.bind _ (At.authorize_oauth hauth hget hvalue) fun headers ↦
    Triple.of_forall fun s ⟨⟨token, blob, hs, hready⟩, access, hheaders, haccess⟩ ↦ ?_
  refine With.send.weaken (fun _ ht ↦ ht ▸ hs) (fun r t ⟨hr, ht⟩ ↦ ?_) fun _ _ h ↦ h
  exact ⟨⟨token, blob, ht, hready⟩, access, by rw [hr, hheaders, bearerReply], haccess⟩

/-- With OAuth a call ends as the token in use has it; after a 401 and without one, as its blob
has. -/
def oauthResult (codec : Codec) (server : HttpRequest → HttpResponse)
    (environment : EnvironmentConfig) (method path : String) (body : Option String)
    (token : Option CachedToken) (value : String) : Except String HttpResponse :=
  let granted := (oauthGrant codec server environment value).map
    (bearerReply server environment method path body)
  match token with
  | some cached =>
    let r := bearerReply server environment method path body cached.access.value
    if r.status = 401 then granted else .ok r
  | none => granted

/-- Where no token is in use or it is refused, the blob decides. -/
theorem oauthResult_of_refused
    (h : ∀ cached, token = some cached →
      (bearerReply server environment method path body cached.access.value).status = 401) :
    oauthResult codec server environment method path body token value =
      (oauthGrant codec server environment value).map
        (bearerReply server environment method path body) := by
  cases token with
  | none => rfl
  | some cached => simp only [oauthResult, h cached rfl, if_true]

/-- A token in use that is taken decides. -/
theorem oauthResult_of_taken
    (h : (bearerReply server environment method path body cached.access.value).status ≠ 401) :
    oauthResult codec server environment method path body (some cached) value =
      .ok (bearerReply server environment method path body cached.access.value) := by
  simp only [oauthResult, h, if_false]

theorem At.request_oauth (hauth : environment.authMethod = .oauthClientCredentials)
    (hget : credentials.get environment.id = .ok (some given))
    (hvalue : (memo.map Held.value).getD given = value) :
    Triple (At server environment.id token memo clock k)
      (request codec environment credentials method path body)
      (fun r _ ↦ oauthResult codec server environment method path body (usedToken clock k token)
        value = .ok r)
      (fun e _ ↦ oauthResult codec server environment method path body (usedToken clock k token)
        value = .error e) := by
  refine Triple.bind _ ((At.attempt_oauth hauth hget hvalue).weaken (fun _ h ↦ h) (fun _ _ h ↦ h)
    fun e _ h ↦ ?_) fun r ↦ Triple.of_forall fun s ⟨⟨token', blob, hs, hready⟩, access, hr, ha⟩ ↦ ?_
  · unfold oauthResult
    rw [h.1, h.2]
    rfl
  split
  · next hstatus =>
    -- The second attempt has no token; without one in use before, it repeats the first.
    refine Triple.bind _ ((With.forget_oauth hauth).weaken (fun _ ht ↦ ht ▸ hs) (fun _ _ h ↦ h)
      fun _ _ h ↦ h) fun _ ↦ Triple.of_forall fun t ht ↦ ?_
    have hresult : oauthResult codec server environment method path body
        (usedToken clock k token) value = (oauthGrant codec server environment value).map
          (bearerReply server environment method path body) := by
      refine oauthResult_of_refused fun cached hused ↦ ?_
      rw [hused] at ha
      rw [← ha, ← hr, hstatus]
    rw [hresult]
    have hsecond : Triple (At server environment.id none blob t.clock t.readings)
        (attempt codec environment credentials method path body) _ _ :=
      At.attempt_oauth hauth hget hready
    refine hsecond.weaken (fun u (hu : u = t) ↦ hu.symm ▸ ⟨ht, rfl, rfl⟩) ?_
      fun _ _ h ↦ by rw [h.2]; rfl
    rintro r _ ⟨-, access, hr, hgrant⟩
    rw [show oauthGrant codec server environment value = .ok access from hgrant, hr]
    rfl
  · next hstatus =>
    refine Triple.pure fun _ _ ↦ ?_
    cases hused : usedToken clock k token with
    | none =>
      rw [hused] at ha
      rw [oauthResult, show oauthGrant codec server environment value = .ok access from ha, hr]
      rfl
    | some cached =>
      rw [hused] at ha
      rw [oauthResult_of_taken (by rwa [← ha, ← hr]), ← ha, ← hr]

end Daku.Http
