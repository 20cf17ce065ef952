import Daku.Http.Replies
import Mathlib.Algebra.GroupWithZero.Nat
import Mathlib.Algebra.Order.BigOperators.Group.List
import Mathlib.Algebra.Order.Group.Nat

/-!
# Calls and their retries

A request of `crates/daku-core/src/servicenow.rs:210–242` is made of calls, each with the retries
of `send` (`servicenow.rs:349–362`). The calls are read off what the transport was sent and
answered, and off the times slept, from any state of the client on.
-/

namespace Daku.Http

open Daku.Base Daku.Protocol

/-- One execution by the transport, with its answer. -/
structure Executed (sent : Sent) (answer : Except String HttpResponse) (s t : Session) :
    Prop where
  transport : t.transport = s.transport
  sent_eq : t.sent = s.sent ++ [sent]
  slept : t.slept = s.slept
  answered : s.transport s.sent.length sent.request = answer

/-- Nothing is sent and nobody sleeps; memos and readings of the clock may change. -/
structure Idle (s t : Session) : Prop where
  transport : t.transport = s.transport
  sent_eq : t.sent = s.sent
  slept : t.slept = s.slept

/-- One sleep. -/
structure Napped (nap : Nat) (s t : Session) : Prop where
  transport : t.transport = s.transport
  sent_eq : t.sent = s.sent
  slept : t.slept = s.slept ++ [nap]

/-- One call of `send`: what it sends, the responses after which it did so again, and the last
answer. -/
structure RetriedCall where
  sent : Sent
  repeated : List HttpResponse
  answer : Except String HttpResponse

/-- How often a call was executed. -/
def RetriedCall.executions (c : RetriedCall) : Nat := c.repeated.length + 1

/-- Executions of one call: each but the last was answered with 429, and followed by a sleep. -/
inductive Made (sent : Sent) (answer : Except String HttpResponse) :
    List HttpResponse → Session → Session → Prop where
  | last {s t : Session} (hexecuted : Executed sent answer s t) : Made sent answer [] s t
  | again {s t u v : Session} {response : HttpResponse} {repeated : List HttpResponse} {nap : Nat}
      (hexecuted : Executed sent (.ok response) s t) (hstatus : response.status = 429)
      (hnap : nap ≤ maxTick429Sleep) (hnapped : Napped nap t u)
      (hmade : Made sent answer repeated u v) : Made sent answer (response :: repeated) s v

/-- The calls between two states, in order. -/
inductive Calls : List RetriedCall → Session → Session → Prop where
  | idle {s t : Session} (hidle : Idle s t) : Calls [] s t
  | call {c : RetriedCall} {calls : List RetriedCall} {s t u v : Session} (hidle : Idle s t)
      (hbound : c.repeated.length ≤ max429Retries) (hmade : Made c.sent c.answer c.repeated t u)
      (hcalls : Calls calls u v) : Calls (c :: calls) s v

theorem Idle.refl (s : Session) : Idle s s := ⟨rfl, rfl, rfl⟩

theorem Idle.trans {s t u : Session} (h : Idle s t) (h' : Idle t u) : Idle s u where
  transport := h'.transport.trans h.transport
  sent_eq := h'.sent_eq.trans h.sent_eq
  slept := h'.slept.trans h.slept

section Counts

variable {sent : Sent} {answer : Except String HttpResponse} {repeated : List HttpResponse}
  {calls calls' : List RetriedCall} {s t u : Session}

theorem Made.sent_eq (h : Made sent answer repeated s t) :
    t.sent = s.sent ++ List.replicate (repeated.length + 1) sent := by
  induction h with
  | last hexecuted => exact hexecuted.sent_eq
  | again hexecuted _ _ hnapped _ ih =>
    rw [ih, hnapped.sent_eq, hexecuted.sent_eq, List.append_assoc]
    rfl

/-- There is one sleep for each repetition. -/
theorem Made.slept (h : Made sent answer repeated s t) :
    ∃ naps, t.slept = s.slept ++ naps ∧ naps.length = repeated.length ∧
      ∀ nap ∈ naps, nap ≤ maxTick429Sleep := by
  induction h with
  | last hexecuted =>
    exact ⟨[], by rw [hexecuted.slept, List.append_nil], rfl, fun _ h ↦ absurd h List.not_mem_nil⟩
  | @again _ _ _ _ _ _ nap hexecuted _ hnap hnapped _ ih =>
    obtain ⟨naps, hslept, hlength, hall⟩ := ih
    refine ⟨nap :: naps, ?_, congrArg (· + 1) hlength, List.forall_mem_cons.mpr ⟨hnap, hall⟩⟩
    rw [hslept, hnapped.slept, hexecuted.slept, List.append_assoc]
    rfl

theorem Made.transport (h : Made sent answer repeated s t) : t.transport = s.transport := by
  induction h with
  | last hexecuted => exact hexecuted.transport
  | again hexecuted _ _ hnapped _ ih =>
    rw [ih, hnapped.transport, hexecuted.transport]

/-- The last execution is the one that was answered so. -/
theorem Made.answered (h : Made sent answer repeated s t) :
    ∃ n, s.sent.length ≤ n ∧ t.sent[n]? = some sent ∧
      s.transport n sent.request = answer := by
  induction h with
  | @last s t hexecuted =>
    refine ⟨s.sent.length, Nat.le_refl _, ?_, hexecuted.answered⟩
    rw [hexecuted.sent_eq]
    simp
  | again hexecuted _ _ hnapped _ ih =>
    obtain ⟨n, hn, hsent, hanswer⟩ := ih
    rw [hnapped.sent_eq, hexecuted.sent_eq, List.length_append] at hn
    rw [hnapped.transport, hexecuted.transport] at hanswer
    exact ⟨n, by omega, hsent, hanswer⟩

/-- What was sent is each call as often as it was executed. -/
theorem Calls.sent_eq (h : Calls calls s t) :
    t.sent = s.sent ++ calls.flatMap fun c ↦ List.replicate c.executions c.sent := by
  induction h with
  | idle hidle => rw [hidle.sent_eq, List.flatMap_nil, List.append_nil]
  | call hidle _ hmade _ ih =>
    rw [ih, hmade.sent_eq, hidle.sent_eq, List.append_assoc]
    rfl

theorem Calls.transport (h : Calls calls s t) : t.transport = s.transport := by
  induction h with
  | idle hidle => exact hidle.transport
  | call hidle _ hmade _ ih => rw [ih, hmade.transport, hidle.transport]

/-- The transport gave every call its answer. -/
theorem Calls.answered {c : RetriedCall} (h : Calls calls s t) (hc : c ∈ calls) :
    ∃ n, s.sent.length ≤ n ∧ t.sent[n]? = some c.sent ∧
      s.transport n c.sent.request = c.answer := by
  induction h with
  | idle => cases hc
  | call hidle _ hmade hcalls ih =>
    cases List.mem_cons.mp hc with
    | inl heq =>
      subst heq
      obtain ⟨n, hn, hsent, hanswer⟩ := hmade.answered
      rw [hidle.sent_eq] at hn
      rw [hidle.transport] at hanswer
      refine ⟨n, hn, ?_, hanswer⟩
      -- Later calls only append.
      rw [hcalls.sent_eq, List.getElem?_append_left (List.getElem?_eq_some_iff.mp hsent).1]
      exact hsent
    | inr hmem =>
      obtain ⟨n, hn, hsent, hanswer⟩ := ih hmem
      rw [hmade.sent_eq, hidle.sent_eq, List.length_append] at hn
      rw [hmade.transport, hidle.transport] at hanswer
      exact ⟨n, by omega, hsent, hanswer⟩

theorem Calls.slept (h : Calls calls s t) :
    ∃ naps, t.slept = s.slept ++ naps ∧ naps.length ≤ calls.length * max429Retries ∧
      ∀ nap ∈ naps, nap ≤ maxTick429Sleep := by
  induction h with
  | idle hidle =>
    exact ⟨[], by rw [hidle.slept, List.append_nil], Nat.zero_le _,
      fun _ h ↦ absurd h List.not_mem_nil⟩
  | call hidle hbound hmade _ ih =>
    obtain ⟨naps, hfirst, hlength, hall⟩ := hmade.slept
    obtain ⟨naps', hrest, hlength', hall'⟩ := ih
    refine ⟨naps ++ naps', ?_, ?_, List.forall_mem_append.mpr ⟨hall, hall'⟩⟩
    · rw [hrest, hfirst, hidle.slept, List.append_assoc]
    · rw [List.length_append, List.length_cons, Nat.succ_mul]
      omega

/-- Each call is executed three times at most. -/
theorem Calls.executions_le (h : Calls calls s t) :
    t.sent.length ≤ s.sent.length + calls.length * (max429Retries + 1) := by
  induction h with
  | idle hidle =>
    rw [hidle.sent_eq]
    exact Nat.le_add_right _ _
  | call hidle hbound hmade _ ih =>
    rw [hmade.sent_eq, hidle.sent_eq, List.length_append, List.length_replicate] at ih
    rw [List.length_cons, Nat.succ_mul]
    omega

theorem Calls.of_idle (hidle : Idle s t) (h : Calls calls t u) : Calls calls s u := by
  cases h with
  | idle hidle' => exact .idle (hidle.trans hidle')
  | call hidle' hbound hmade hcalls => exact .call (hidle.trans hidle') hbound hmade hcalls

theorem Calls.append (h : Calls calls s t) (h' : Calls calls' t u) :
    Calls (calls ++ calls') s u := by
  induction h with
  | idle hidle => exact h'.of_idle hidle
  | call hidle hbound hmade _ ih => exact .call hidle hbound hmade (ih h')

end Counts

/-- A call for a token of the Environment, which only OAuth makes. -/
def IsTokenCall (environment : EnvironmentConfig) (c : RetriedCall) : Prop :=
  environment.authMethod = .oauthClientCredentials ∧
    ∃ cred origin, c.sent = ⟨tokenRequest environment (tokenBody cred), origin⟩

/-- A call for the data that was requested. -/
def IsDataCall (environment : EnvironmentConfig) (method path : String) (body : Option String)
    (c : RetriedCall) : Prop :=
  ∃ headers origin, c.sent = ⟨dataRequest environment method path body headers, origin⟩

/-- The error of a token call: that of the transport, or what is wrong with the response. -/
def GrantError (codec : Codec) (environment : EnvironmentConfig) (e : String) :
    Except String HttpResponse → Prop
  | .error e' => e = e'
  | .ok response =>
    (response.status ≠ 200 ∧
      e = s!"oauth_token.do returned HTTP {response.status} for {environment.id}") ∨
    (response.status = 200 ∧ codec.accessGrant response.body = none ∧ e = "oauth token JSON")

/-- The error of a Credential that cannot be read. -/
def CredentialError (codec : Codec) (environment : EnvironmentConfig)
    (credentials : CredentialStore) (e : String) : Prop :=
  credentials.get environment.id = .error e ∨
    (credentials.get environment.id = .ok none ∧
      e = s!"no credential for environment {environment.id}") ∨
    (environment.authMethod = .basic ∧ e = "basic credential JSON" ∧
      ∃ blob, codec.basicCred blob = none) ∨
    (environment.authMethod = .oauthClientCredentials ∧ e = "oauth credential JSON" ∧
      ∃ blob, codec.oauthCred blob = none)

/-- The calls of an authorized attempt, and its result: one for a token at most, and then one for
the data, or an error that came before it. -/
inductive Attempted (codec : Codec) (environment : EnvironmentConfig)
    (credentials : CredentialStore) (method path : String) (body : Option String) :
    List RetriedCall → Except String HttpResponse → Prop where
  | refused {e : String} (he : CredentialError codec environment credentials e) :
      Attempted codec environment credentials method path body [] (.error e)
  | ungranted {c : RetriedCall} {e : String} (hc : IsTokenCall environment c)
      (he : GrantError codec environment e c.answer) :
      Attempted codec environment credentials method path body [c] (.error e)
  | direct {d : RetriedCall} (hd : IsDataCall environment method path body d) :
      Attempted codec environment credentials method path body [d] d.answer
  | granted {c d : RetriedCall} (hc : IsTokenCall environment c)
      (hd : IsDataCall environment method path body d) :
      Attempted codec environment credentials method path body [c, d] d.answer

/-- The calls of a request: those of one attempt, and of a second one only after a 401. -/
inductive Requested (codec : Codec) (environment : EnvironmentConfig)
    (credentials : CredentialStore) (method path : String) (body : Option String) :
    List RetriedCall → Except String HttpResponse → Prop where
  | once {calls : List RetriedCall} {result : Except String HttpResponse}
      (h : Attempted codec environment credentials method path body calls result)
      (hstatus : ∀ response, result = .ok response → response.status ≠ 401) :
      Requested codec environment credentials method path body calls result
  | again {calls calls' : List RetriedCall} {response : HttpResponse}
      {result : Except String HttpResponse}
      (h : Attempted codec environment credentials method path body calls (.ok response))
      (hstatus : response.status = 401)
      (h' : Attempted codec environment credentials method path body calls' result) :
      Requested codec environment credentials method path body (calls ++ calls') result

section Programs

variable {codec : Codec} {environment : EnvironmentConfig} {credentials : CredentialStore}
  {method path : String} {body : Option String} {request : HttpRequest}
  {origin : Option Origin} {s : Session} {ε : String → Session → Prop}

theorem execute_executed :
    Triple (fun t ↦ t = s) (execute request origin)
      (fun r t ↦ Executed ⟨request, origin⟩ (.ok r) s t)
      (fun e t ↦ Executed ⟨request, origin⟩ (.error e) s t) := by
  refine execute_spec.weaken (fun _ h ↦ h) ?_ ?_
  · rintro r _ ⟨hanswer, rfl⟩
    exact ⟨rfl, rfl, rfl, hanswer⟩
  · rintro e _ ⟨hanswer, rfl⟩
    exact ⟨rfl, rfl, rfl, hanswer⟩

theorem now_idle : Triple (fun t ↦ t = s) now (fun _ t ↦ Idle s t) ε := by
  rintro _ rfl
  exact ⟨rfl, rfl, rfl⟩

theorem sleep_napped {nap : Nat} :
    Triple (fun t ↦ t = s) (sleep nap) (fun _ t ↦ Napped nap s t) ε := by
  rintro _ rfl
  exact ⟨rfl, rfl, rfl⟩

/-- A call of `send`, by induction on the retries that are left. -/
theorem sendRetrying_made (retries : Nat) :
    Triple (fun t ↦ t = s) (sendRetrying codec request origin retries)
      (fun r t ↦ ∃ repeated, repeated.length ≤ retries ∧
        Made ⟨request, origin⟩ (.ok r) repeated s t)
      (fun e t ↦ ∃ repeated, repeated.length ≤ retries ∧
        Made ⟨request, origin⟩ (.error e) repeated s t) := by
  induction retries generalizing s with
  | zero =>
    exact execute_executed.weaken (fun _ h ↦ h) (fun _ _ h ↦ ⟨[], Nat.le_refl _, .last h⟩)
      fun _ _ h ↦ ⟨[], Nat.le_refl _, .last h⟩
  | succ retries ih =>
    refine Triple.bind _ (execute_executed.weaken (fun _ h ↦ h) (fun _ _ h ↦ h)
      fun _ _ h ↦ ⟨[], Nat.zero_le _, .last h⟩) fun response ↦ Triple.of_forall fun t ht ↦ ?_
    split
    · next hstatus =>
      refine Triple.bind (fun _ u ↦ Idle t u) now_idle fun reading ↦ Triple.of_forall fun u hu ↦ ?_
      refine Triple.bind _ sleep_napped fun _ ↦ Triple.of_forall fun v hv ↦ ?_
      -- The reading of the clock does not show.
      have hnapped : Napped (min maxTick429Sleep (retryAfterDelay codec response reading)) t v :=
        ⟨hv.transport.trans hu.transport, hv.sent_eq.trans hu.sent_eq,
          hv.slept.trans (congrArg (· ++ _) hu.slept)⟩
      have hagain : ∀ {answer : Except String HttpResponse} {w : Session},
          (∃ repeated, repeated.length ≤ retries ∧ Made ⟨request, origin⟩ answer repeated v w) →
          ∃ repeated, repeated.length ≤ retries + 1 ∧
            Made ⟨request, origin⟩ answer repeated s w := by
        rintro answer w ⟨repeated, hlength, hmade⟩
        exact ⟨response :: repeated, Nat.succ_le_succ hlength,
          .again ht hstatus (min_le_left _ _) hnapped hmade⟩
      exact ih.weaken (fun _ h ↦ h) (fun _ _ h ↦ hagain h) fun _ _ h ↦ hagain h
    · apply Triple.pure
      rintro _ rfl
      exact ⟨[], Nat.zero_le _, .last ht⟩

theorem send_calls :
    Triple (fun t ↦ t = s) (send codec request origin)
      (fun r t ↦ ∃ c : RetriedCall, c.sent = ⟨request, origin⟩ ∧ c.answer = .ok r ∧ Calls [c] s t)
      (fun e t ↦ ∃ c : RetriedCall, c.sent = ⟨request, origin⟩ ∧ c.answer = .error e ∧
        Calls [c] s t) := by
  have hcall : ∀ {answer : Except String HttpResponse} {t : Session},
      (∃ repeated, repeated.length ≤ max429Retries ∧
        Made ⟨request, origin⟩ answer repeated s t) →
      ∃ c : RetriedCall, c.sent = ⟨request, origin⟩ ∧ c.answer = answer ∧ Calls [c] s t := by
    rintro answer t ⟨repeated, hlength, hmade⟩
    exact ⟨⟨_, repeated, answer⟩, rfl, rfl,
      .call (.refl s) hlength hmade (.idle (.refl t))⟩
  exact (sendRetrying_made max429Retries).weaken (fun _ h ↦ h) (fun _ _ h ↦ hcall h)
    fun _ _ h ↦ hcall h

theorem cachedAccessToken_idle :
    Triple (fun t ↦ t = s) (cachedAccessToken environment.id) (fun _ t ↦ Idle s t) ε := by
  refine Triple.get_bind fun t ht ↦ ?_
  obtain rfl : t = s := ht
  cases t.tokens environment.id with
  | none =>
    apply Triple.pure
    rintro _ rfl
    exact Idle.refl _
  | some cached => exact Triple.bind _ now_idle fun _ ↦ Triple.pure fun _ h ↦ h

theorem credentialBlob_idle :
    Triple (fun t ↦ t = s) (credentialBlob environment credentials) (fun _ t ↦ Idle s t)
      (fun e t ↦ Idle s t ∧ CredentialError codec environment credentials e) := by
  refine Triple.get_bind fun t ht ↦ ?_
  obtain rfl : t = s := ht
  cases t.credentialBlobs environment.id with
  | some blob =>
    apply Triple.pure
    rintro _ rfl
    exact Idle.refl _
  | none =>
    cases hget : credentials.get environment.id with
    | error e =>
      apply Triple.throw
      rintro _ rfl
      exact ⟨Idle.refl _, Or.inl hget⟩
    | ok value =>
      cases value with
      | none =>
        apply Triple.throw
        rintro _ rfl
        exact ⟨Idle.refl _, Or.inr (Or.inl ⟨hget, rfl⟩)⟩
      | some value =>
        refine Triple.modify_bind (Triple.pure ?_)
        rintro _ ⟨_, rfl, rfl⟩
        exact ⟨rfl, rfl, rfl⟩

/-- What an authorization called when it failed. -/
def Unauthorized (codec : Codec) (environment : EnvironmentConfig) (credentials : CredentialStore)
    (s : Session) (e : String) (t : Session) : Prop :=
  (Idle s t ∧ CredentialError codec environment credentials e) ∨
    ∃ c, IsTokenCall environment c ∧ GrantError codec environment e c.answer ∧ Calls [c] s t

/-- What it called when it succeeded. -/
def Authorized (environment : EnvironmentConfig) (s t : Session) : Prop :=
  Idle s t ∨ ∃ c, IsTokenCall environment c ∧ Calls [c] s t

theorem requestToken_calls (hauth : environment.authMethod = .oauthClientCredentials)
    (blob : Held String) :
    Triple (fun t ↦ t = s) (requestToken codec environment blob)
      (fun _ t ↦ Authorized environment s t)
      (fun e t ↦ Unauthorized codec environment credentials s e t) := by
  unfold requestToken
  cases hparsed : codec.oauthCred blob.value with
  | none =>
    apply Triple.throw
    rintro _ rfl
    exact Or.inl ⟨Idle.refl _, Or.inr (Or.inr (Or.inr ⟨hauth, rfl, blob.value, hparsed⟩))⟩
  | some parsed =>
    have htoken : ∀ {c : RetriedCall},
        c.sent = ⟨tokenRequest environment (tokenBody parsed), some blob.origin⟩ →
        IsTokenCall environment c := fun hc ↦ ⟨hauth, parsed, _, hc⟩
    refine Triple.bind _ (send_calls.weaken (fun _ h ↦ h) (fun _ _ h ↦ h) ?_) fun response ↦
      Triple.of_forall fun t ht ↦ ?_
    · rintro e t ⟨c, hc, hanswer, hcalls⟩
      exact Or.inr ⟨c, htoken hc, by rw [hanswer]; rfl, hcalls⟩
    obtain ⟨c, hc, hanswer, hcalls⟩ := ht
    split
    · next hstatus =>
      apply Triple.throw
      rintro _ rfl
      exact Or.inr ⟨c, htoken hc, by rw [hanswer]; exact Or.inl ⟨hstatus, rfl⟩, hcalls⟩
    · next hstatus =>
      cases hgrant : codec.accessGrant response.body with
      | none =>
        apply Triple.throw
        rintro _ rfl
        refine Or.inr ⟨c, htoken hc, ?_, hcalls⟩
        rw [hanswer]
        exact Or.inr ⟨not_not.mp hstatus, hgrant, rfl⟩
      | some grant =>
        refine Triple.bind (fun _ u ↦ Idle t u) now_idle fun now ↦ ?_
        refine Triple.modify_bind (Triple.pure ?_)
        rintro _ ⟨u, hu, rfl⟩
        have hidle : Idle t u := hu
        exact Or.inr ⟨c, htoken hc, hcalls.append (.idle ⟨hidle.transport, hidle.sent_eq,
          hidle.slept⟩)⟩

theorem Authorized.of_idle {s t u : Session} (hidle : Idle s t)
    (h : Authorized environment t u) : Authorized environment s u := by
  obtain h | ⟨c, hc, hcalls⟩ := h
  · exact Or.inl (hidle.trans h)
  · exact Or.inr ⟨c, hc, hcalls.of_idle hidle⟩

theorem Unauthorized.of_idle {s t u : Session} {e : String} (hidle : Idle s t)
    (h : Unauthorized codec environment credentials t e u) :
    Unauthorized codec environment credentials s e u := by
  obtain ⟨h, herror⟩ | ⟨c, hc, herror, hcalls⟩ := h
  · exact Or.inl ⟨hidle.trans h, herror⟩
  · exact Or.inr ⟨c, hc, herror, hcalls.of_idle hidle⟩

theorem oauthAccess_calls (hauth : environment.authMethod = .oauthClientCredentials)
    (blob : Held String) :
    Triple (fun t ↦ t = s) (oauthAccess codec environment blob)
      (fun _ t ↦ Authorized environment s t)
      (fun e t ↦ Unauthorized codec environment credentials s e t) := by
  refine Triple.bind _ cachedAccessToken_idle fun cached ↦ Triple.of_forall fun t ht ↦ ?_
  cases cached with
  | some access =>
    apply Triple.pure
    rintro _ rfl
    exact Or.inl ht
  | none =>
    exact (requestToken_calls hauth blob).weaken (fun _ h ↦ h) (fun _ _ h ↦ h.of_idle ht)
      fun _ _ h ↦ h.of_idle ht

theorem authorize_calls :
    Triple (fun t ↦ t = s) (authorize codec environment credentials)
      (fun _ t ↦ Authorized environment s t)
      (fun e t ↦ Unauthorized codec environment credentials s e t) := by
  have hblob : ∀ {t : Session}, Triple (fun u ↦ u = t) (credentialBlob environment credentials)
      (fun _ u ↦ Idle t u) (fun e u ↦ Unauthorized codec environment credentials t e u) :=
    credentialBlob_idle.weaken (fun _ h ↦ h) (fun _ _ h ↦ h) fun _ _ h ↦ Or.inl h
  unfold authorize
  cases hauth : environment.authMethod with
  | basic =>
    refine Triple.bind _ hblob fun blob ↦ ?_
    cases hparsed : codec.basicCred blob.value with
    | none =>
      exact Triple.throw fun _ h ↦
        Or.inl ⟨h, Or.inr (Or.inr (Or.inl ⟨hauth, rfl, blob.value, hparsed⟩))⟩
    | some parsed => exact Triple.pure fun _ h ↦ Or.inl h
  | oauthClientCredentials =>
    refine Triple.bind _ cachedAccessToken_idle fun cached ↦ Triple.of_forall fun t ht ↦ ?_
    cases cached with
    | some access =>
      apply Triple.pure
      rintro _ rfl
      exact Or.inl ht
    | none =>
      refine Triple.bind (fun _ u ↦ Idle s u) (hblob.weaken (fun _ h ↦ h)
        (fun _ _ h ↦ ht.trans h) fun _ _ h ↦ h.of_idle ht) fun blob ↦
          Triple.of_forall fun u hu ↦ ?_
      refine Triple.bind (fun _ v ↦ Authorized environment s v)
        ((oauthAccess_calls hauth blob).weaken (fun _ h ↦ h) (fun _ _ h ↦ h.of_idle hu)
          fun _ _ h ↦ h.of_idle hu) fun access ↦ Triple.pure fun _ h ↦ h

/-- The calls that an attempt makes, with its result. -/
theorem attempt_calls :
    Triple (fun t ↦ t = s) (attempt codec environment credentials method path body)
      (fun r t ↦ ∃ calls, Calls calls s t ∧
        Attempted codec environment credentials method path body calls (.ok r))
      (fun e t ↦ ∃ calls, Calls calls s t ∧
        Attempted codec environment credentials method path body calls (.error e)) := by
  refine Triple.bind _ (authorize_calls.weaken (fun _ h ↦ h) (fun _ _ h ↦ h) ?_) fun headers ↦
    Triple.of_forall fun t ht ↦ ?_
  · rintro e t (⟨hidle, he⟩ | ⟨c, hc, he, hcalls⟩)
    · exact ⟨[], .idle hidle, .refused he⟩
    · exact ⟨[c], hcalls, .ungranted hc he⟩
  have hend : ∀ {answer : Except String HttpResponse} {u : Session},
      (∃ d : RetriedCall, d.sent = ⟨dataRequest environment method path body headers.value,
        some headers.origin⟩ ∧ d.answer = answer ∧ Calls [d] t u) →
      ∃ calls, Calls calls s u ∧
        Attempted codec environment credentials method path body calls answer := by
    rintro answer u ⟨d, hd, rfl, hcalls⟩
    obtain hidle | ⟨c, hc, htoken⟩ := ht
    · exact ⟨[d], hcalls.of_idle hidle, .direct ⟨_, _, hd⟩⟩
    · exact ⟨[c, d], htoken.append hcalls, .granted hc ⟨_, _, hd⟩⟩
  exact send_calls.weaken (fun _ h ↦ h) (fun _ _ h ↦ hend h) fun _ _ h ↦ hend h

theorem forget_idle {P : Session → Prop} (hP : ∀ t, P t → Idle s t) :
    Triple P (forget environment) (fun _ t ↦ Idle s t) ε := by
  rw [forget]
  split
  · intro t ht
    exact ⟨(hP t ht).transport, (hP t ht).sent_eq, (hP t ht).slept⟩
  · intro t ht
    exact ⟨(hP t ht).transport, (hP t ht).sent_eq, (hP t ht).slept⟩

/-- The calls that a request makes, with its result. -/
theorem request_calls :
    Triple (fun t ↦ t = s) (Http.request codec environment credentials method path body)
      (fun r t ↦ ∃ calls, Calls calls s t ∧
        Requested codec environment credentials method path body calls (.ok r))
      (fun e t ↦ ∃ calls, Calls calls s t ∧
        Requested codec environment credentials method path body calls (.error e)) := by
  refine Triple.bind _ (attempt_calls.weaken (fun _ h ↦ h) (fun _ _ h ↦ h) ?_) fun response ↦
    Triple.of_forall fun t ht ↦ ?_
  · rintro e t ⟨calls, hcalls, h⟩
    exact ⟨calls, hcalls, .once h fun _ heq ↦ by cases heq⟩
  obtain ⟨calls, hcalls, h⟩ := ht
  split
  · next hstatus =>
    refine Triple.bind (fun _ u ↦ Idle t u) (forget_idle fun _ hu ↦ hu ▸ Idle.refl t) fun _ ↦
      Triple.of_forall fun u hu ↦ ?_
    have hend : ∀ {answer : Except String HttpResponse} {v : Session},
        (∃ calls', Calls calls' u v ∧
          Attempted codec environment credentials method path body calls' answer) →
        ∃ calls', Calls calls' s v ∧
          Requested codec environment credentials method path body calls' answer := by
      rintro answer v ⟨calls', hcalls', h'⟩
      exact ⟨calls ++ calls', hcalls.append (hcalls'.of_idle hu), .again h hstatus h'⟩
    exact attempt_calls.weaken (fun _ h ↦ h) (fun _ _ h ↦ hend h) fun _ _ h ↦ hend h
  · next hstatus =>
    apply Triple.pure
    rintro _ rfl
    refine ⟨calls, hcalls, .once h fun r hr ↦ ?_⟩
    rwa [← Except.ok.inj hr]

/-- The calls between a state and the end of a request. -/
theorem exists_calls (codec : Codec) (environment : EnvironmentConfig)
    (credentials : CredentialStore) (method path : String) (body : Option String) (s : Session) :
    ∃ calls,
      Calls calls s (final (Http.request codec environment credentials method path body s)) ∧
      Requested codec environment credentials method path body calls
        (outcome (Http.request codec environment credentials method path body) s) := by
  have h := @request_calls codec environment credentials method path body s s rfl
  unfold outcome
  cases hended : Http.request codec environment credentials method path body s with
  | ok response t =>
    rw [hended] at h
    exact h
  | error e t =>
    rw [hended] at h
    exact h

/-- A request calls for nothing but a token and its data. -/
theorem Requested.forall_calls {calls : List RetriedCall} {result : Except String HttpResponse}
    (h : Requested codec environment credentials method path body calls result) :
    ∀ c ∈ calls, IsTokenCall environment c ∨ IsDataCall environment method path body c := by
  have hattempt : ∀ {calls : List RetriedCall} {result : Except String HttpResponse},
      Attempted codec environment credentials method path body calls result →
      ∀ c ∈ calls, IsTokenCall environment c ∨ IsDataCall environment method path body c := by
    intro calls result h c hc
    cases h with
    | refused => cases hc
    | ungranted htoken =>
      rw [List.mem_singleton.mp hc]
      exact Or.inl htoken
    | direct hdata =>
      rw [List.mem_singleton.mp hc]
      exact Or.inr hdata
    | granted htoken hdata =>
      obtain rfl | hc := List.mem_cons.mp hc
      · exact Or.inl htoken
      · rw [List.mem_singleton.mp hc]
        exact Or.inr hdata
  cases h with
  | once h => exact hattempt h
  | again h _ h' => exact List.forall_mem_append.mpr ⟨hattempt h, hattempt h'⟩

/-- Attempts with basic authorization make one call, with OAuth two. -/
def callsOfAttempt : AuthMethod → Nat
  | .basic => 1
  | .oauthClientCredentials => 2

theorem length_attempted {calls : List RetriedCall} {result : Except String HttpResponse}
    (h : Attempted codec environment credentials method path body calls result) :
    calls.length ≤ callsOfAttempt environment.authMethod := by
  cases h with
  | refused => exact Nat.zero_le _
  | ungranted hc | granted hc =>
    rw [hc.1]
    simp only [List.length_cons, List.length_nil, callsOfAttempt]
    omega
  | direct =>
    cases environment.authMethod <;>
      simp only [List.length_cons, List.length_nil, callsOfAttempt] <;> omega

theorem length_requested {calls : List RetriedCall} {result : Except String HttpResponse}
    (h : Requested codec environment credentials method path body calls result) :
    calls.length ≤ 2 * callsOfAttempt environment.authMethod := by
  cases h with
  | once h =>
    have hlength := length_attempted h
    omega
  | again h _ h' =>
    have hlength := length_attempted h
    have hlength' := length_attempted h'
    rw [List.length_append]
    omega

/-- A result is the response of the last call, which is for the data; an error is that of the last
call, or of the Credential. -/
structure EndsWithLast (codec : Codec) (environment : EnvironmentConfig)
    (credentials : CredentialStore) (method path : String) (body : Option String)
    (calls : List RetriedCall) (result : Except String HttpResponse) : Prop where
  response : ∀ response, result = .ok response → ∃ earlier d, calls = earlier ++ [d] ∧
    IsDataCall environment method path body d ∧ d.answer = .ok response
  error : ∀ e, result = .error e → CredentialError codec environment credentials e ∨
    ∃ earlier c, calls = earlier ++ [c] ∧
      (IsDataCall environment method path body c ∧ c.answer = .error e ∨
        IsTokenCall environment c ∧ GrantError codec environment e c.answer)

theorem endsWithLast_attempted {calls : List RetriedCall} {result : Except String HttpResponse}
    (h : Attempted codec environment credentials method path body calls result) :
    EndsWithLast codec environment credentials method path body calls result := by
  cases h with
  | refused he =>
    refine ⟨fun _ h ↦ (by cases h), fun e h ↦ Or.inl ?_⟩
    rwa [← Except.error.inj h]
  | @ungranted c e hc he =>
    refine ⟨fun _ h ↦ (by cases h), fun e' h ↦ Or.inr ⟨[], c, rfl, Or.inr ⟨hc, ?_⟩⟩⟩
    rwa [← Except.error.inj h]
  | @direct d hd =>
    exact ⟨fun _ h ↦ ⟨[], d, rfl, hd, h⟩, fun _ h ↦ Or.inr ⟨[], d, rfl, Or.inl ⟨hd, h⟩⟩⟩
  | @granted c d hc hd =>
    exact ⟨fun _ h ↦ ⟨[c], d, rfl, hd, h⟩, fun _ h ↦ Or.inr ⟨[c], d, rfl, Or.inl ⟨hd, h⟩⟩⟩

theorem EndsWithLast.append {earlier calls : List RetriedCall} {result : Except String HttpResponse}
    (h : EndsWithLast codec environment credentials method path body calls result) :
    EndsWithLast codec environment credentials method path body (earlier ++ calls) result := by
  constructor
  · intro response hresponse
    obtain ⟨before, d, rfl, hd⟩ := h.response response hresponse
    exact ⟨earlier ++ before, d, (List.append_assoc _ _ _).symm, hd⟩
  · intro e he
    obtain hcredential | ⟨before, c, rfl, hc⟩ := h.error e he
    · exact Or.inl hcredential
    · exact Or.inr ⟨earlier ++ before, c, (List.append_assoc _ _ _).symm, hc⟩

theorem endsWithLast_requested {calls : List RetriedCall} {result : Except String HttpResponse}
    (h : Requested codec environment credentials method path body calls result) :
    EndsWithLast codec environment credentials method path body calls result := by
  cases h with
  | once h => exact endsWithLast_attempted h
  | again _ _ h' => exact (endsWithLast_attempted h').append

end Programs

/-- Executions of the transport that a request may take. -/
def maxExecutions : AuthMethod → Nat
  | .basic => 6
  | .oauthClientCredentials => 12

/-- Whatever the transport answers, a request ends after some calls. It repeats a call only after
a 429, authorizes again only after a 401 and once at most, takes a bounded number of executions and
a bounded time of sleep, and ends as its last call did. -/
theorem request_retries_bounded (codec : Codec) (environment : EnvironmentConfig)
    (credentials : CredentialStore) (method path : String) (body : Option String) (s : Session) :
    let ended := request codec environment credentials method path body s
    let result := outcome (request codec environment credentials method path body) s
    ∃ calls, Calls calls s (final ended) ∧
      Requested codec environment credentials method path body calls result ∧
      EndsWithLast codec environment credentials method path body calls result ∧
      (final ended).sent.length ≤ s.sent.length + maxExecutions environment.authMethod ∧
      ∃ naps, (final ended).slept = s.slept ++ naps ∧ naps.sum ≤ 40 * second ∧
        ∀ nap ∈ naps, nap ≤ 5 * second := by
  intro ended result
  obtain ⟨calls, hcalls, hrequested⟩ :
      ∃ calls, Calls calls s (final ended) ∧
        Requested codec environment credentials method path body calls result :=
    exists_calls codec environment credentials method path body s
  have hlength := length_requested hrequested
  obtain ⟨naps, hslept, hnaps, hall⟩ := hcalls.slept
  refine ⟨calls, hcalls, hrequested, endsWithLast_requested hrequested, ?_, naps, hslept, ?_, hall⟩
  · have hle := hcalls.executions_le
    revert hlength
    cases environment.authMethod <;> simp only [callsOfAttempt, maxExecutions, max429Retries] at *
      <;> omega
  · have hsum := List.sum_le_card_nsmul naps maxTick429Sleep hall
    have hmany : naps.length ≤ 8 := by
      revert hlength
      cases environment.authMethod <;> simp only [callsOfAttempt, max429Retries] at * <;> omega
    rw [Nat.nsmul_eq_mul, maxTick429Sleep] at hsum
    calc naps.sum ≤ naps.length * (5 * second) := hsum
      _ ≤ 8 * (5 * second) := Nat.mul_le_mul_right _ hmany
      _ = 40 * second := by rw [← Nat.mul_assoc]

end Daku.Http
