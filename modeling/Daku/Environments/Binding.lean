import Daku.Environments.TestEnvironment
import Daku.Http.Rules

/-!
# Stored Credentials and their saved URL

Which secrets a TestEnvironment command sends where. The handler refuses a changed URL without an
explicit Credential (`crates/daku-core/src/environments.rs:79–93`), but the client answers from
memos keyed by Environment id (`servicenow.rs:244–298`), and the check is skipped when the file
has no entry to compare with.
-/

namespace Daku.Environments

open Daku.Base Daku.Protocol Daku.Http Daku.Signals

/-- Requests that go to an Environment at this URL: its Table API and token endpoint, the URL
itself, and for a repository the GitHub API. -/
def Addresses (instanceUrl : String) (request : HttpRequest) : Prop :=
  request.url = joinUrl instanceUrl glideWarPath ∨
    request.url = joinUrl instanceUrl "/oauth_token.do" ∨ request.url = instanceUrl ∨
      ∃ owner repo token, splitGithubRepo instanceUrl = some (owner, repo) ∧
        request = actionsRequest token owner repo

/-- A stored secret may go out in this request: no explicit Credential was given, and the saved
entry of its id has the URL. -/
def SentBound (path : String) (command : TestCommand) (sent : Sent) : Prop :=
  ∀ id, sent.origin = some (.stored id) → command.credentialJson = none ∧
    ∃ saved, savedEntry path command.file id = some saved ∧
      Addresses saved.instanceUrl sent.request

/-- All requests of a command keep stored secrets to their saved URL. -/
def StepBound (codec : Codec) (path : String) (s : Session) (command : TestCommand) : Prop :=
  ∀ sent ∈ (final (command.handle codec path s)).sent.drop s.sent.length,
    SentBound path command sent

/-- So do all commands of a run. -/
def Bound (codec : Codec) (path : String) : Session → List TestCommand → Prop
  | _, [] => True
  | s, command :: commands => StepBound codec path s command ∧
      Bound codec path (final (command.handle codec path s)) commands

/-- The blob leads to a request of the client. -/
def Parses (codec : Codec) (environment : EnvironmentConfig) (blob : String) : Prop :=
  match environment.authMethod with
  | .basic => (codec.basicCred blob).isSome
  | .oauthClientCredentials => (codec.oauthCred blob).isSome

/-- The client may read the store: it has no memoized blob, or one that a 401 would drop. -/
def ReadsStore (codec : Codec) (environment : EnvironmentConfig) (s : Session) : Prop :=
  ∀ blob, s.credentialBlobs environment.id = some blob →
    environment.authMethod = .basic ∧ Parses codec environment blob.value

/-- No secret that the client can use in this state for the Environment is a stored one. -/
structure ClientWithholds (codec : Codec) (environment : EnvironmentConfig)
    (credentials : CredentialStore) (s : Session) : Prop where
  memo : ∀ blob, s.credentialBlobs environment.id = some blob →
    Parses codec environment blob.value → blob.origin = .given
  token : environment.authMethod = .oauthClientCredentials → ∀ cached,
    s.tokens environment.id = some cached → Live s cached → cached.access.origin = .given
  store : ReadsStore codec environment s → ∀ value,
    credentials.get environment.id = .ok (some value) → Parses codec environment value →
      credentials.origin environment.id = .given

/-- No secret that a probe can use in this state is a stored one. -/
def Withholds (codec : Codec) (environment : EnvironmentConfig) (credentials : CredentialStore)
    (s : Session) : Prop :=
  match environment.platform with
  | .servicenow => ClientWithholds codec environment credentials s
  | .http => (storedBasicHeader codec environment.id credentials).isSome →
      credentials.origin environment.id = .given
  | .github => (bearerToken codec environment.id credentials).isOk →
      credentials.origin environment.id = .given

/-- The condition on a command and the client before it: it is refused by the checks of its
fields, or relies on the store for an id that has a saved entry, or has no stored secret to use. -/
def Admits (codec : Codec) (path : String) (s : Session) (command : TestCommand) : Prop :=
  (∃ e, validateTest codec command.environment command.credentialJson = .error e) ∨
    (command.credentialJson = none ∧
      (savedEntry path command.file command.environment.id).isSome) ∨
    Withholds codec command.environment (testStore command.environment command.credentialJson
      (storedCredentials command.stored)) s

/-- Each command of a run meets the condition when it is handled. -/
def Admitted (codec : Codec) (path : String) : Session → List TestCommand → Prop
  | _, [] => True
  | s, command :: commands => Admits codec path s command ∧
      Admitted codec path (final (command.handle codec path s)) commands

/-- A secret used for an id was given or is the stored one of that id. -/
def Own (id : String) (origin : Origin) : Prop := origin = .given ∨ origin = .stored id

/-- Memos of an id hold secrets of that id. -/
structure OwnOrigins (tokens : String → Option CachedToken)
    (blobs : String → Option (Held String)) : Prop where
  blob : ∀ id held, blobs id = some held → Own id held.origin
  token : ∀ id cached, tokens id = some cached → Own id cached.access.origin

section Step

variable {codec : Codec} {environment : EnvironmentConfig} {credentials : CredentialStore}
variable {s₀ : Session} {path : String} {command : TestCommand} {O : Origin → Prop}

theorem OwnOrigins.update_blob {tokens : String → Option CachedToken}
    {blobs : String → Option (Held String)} (h : OwnOrigins tokens blobs) {id : String}
    {memo : Option (Held String)} (hmemo : ∀ held, memo = some held → Own id held.origin) :
    OwnOrigins tokens (Function.update blobs id memo) where
  blob i held hheld := by
    by_cases hi : i = id
    · rw [hi, Function.update_self] at hheld
      exact hi ▸ hmemo held hheld
    · rw [Function.update_of_ne hi] at hheld
      exact h.blob i held hheld
  token := h.token

theorem OwnOrigins.update_token {tokens : String → Option CachedToken}
    {blobs : String → Option (Held String)} (h : OwnOrigins tokens blobs) {id : String}
    {memo : Option CachedToken}
    (hmemo : ∀ cached, memo = some cached → Own id cached.access.origin) :
    OwnOrigins (Function.update tokens id memo) blobs where
  blob := h.blob
  token i cached hcached := by
    by_cases hi : i = id
    · rw [hi, Function.update_self] at hcached
      exact hi ▸ hmemo cached hcached
    · rw [Function.update_of_ne hi] at hcached
      exact h.token i cached hcached

/-- What the memos satisfy while blobs satisfy `B` and tokens that are used `O`; `R` holds if the
store may be read. -/
structure MemosBound (environment : EnvironmentConfig) (s₀ : Session) (B : Held String → Prop)
    (O : Origin → Prop) (R : Prop) (tokens : String → Option CachedToken)
    (blobs : String → Option (Held String)) : Prop where
  own : OwnOrigins tokens blobs
  memo : ∀ blob, blobs environment.id = some blob → B blob
  token : environment.authMethod = .oauthClientCredentials → ∀ cached,
    tokens environment.id = some cached → Live s₀ cached → O cached.access.origin
  noMemo : blobs environment.id = none → R

variable {B : Held String → Prop} {R : Prop}

/-- Requests with secrets that satisfy `O` are bound. -/
def bindingDiscipline (path : String) (command : TestCommand)
    (hown : Own environment.id (credentials.origin environment.id))
    (hstore : R → ∀ value, credentials.get environment.id = .ok (some value) →
      B ⟨value, credentials.origin environment.id⟩)
    (hblobs : ∀ blob, B blob → Parses codec environment blob.value → O blob.origin)
    (hbound : ∀ origin request, O origin → Own environment.id origin →
      Addresses environment.instanceUrl request → SentBound path command ⟨request, some origin⟩) :
    Discipline codec environment credentials s₀ where
  Memos := MemosBound environment s₀ B O R
  Blob blob := Own environment.id blob.origin ∧ B blob
  Token access := Own environment.id access.origin ∧
    (environment.authMethod = .oauthClientCredentials → O access.origin)
  Request := SentBound path command
  Path path := path = glideWarPath
  blob_of_memo h hmemo := ⟨h.own.blob _ _ hmemo, h.memo _ hmemo⟩
  blob_of_store h hnone hget := by
    have hblob := hstore (h.noMemo hnone) _ hget
    refine ⟨⟨hown, hblob⟩, ?_, fun blob hmemo ↦ ?_, h.token, fun hnone ↦ ?_⟩
    · exact h.own.update_blob fun held hheld ↦ Option.some.inj hheld ▸ hown
    · rw [Function.update_self] at hmemo
      exact Option.some.inj hmemo ▸ hblob
    · rw [Function.update_self] at hnone
      cases hnone
  token_of_memo h hmemo hlive := ⟨h.own.token _ _ hmemo, fun hauth ↦ h.token hauth _ hmemo hlive⟩
  token_of_grant {_ _ blob _ _ _} h hblob hparsed _ _ _ := by
    have horigin : environment.authMethod = .oauthClientCredentials → O blob.origin := by
      intro hauth
      refine hblobs blob hblob.2 ?_
      rw [Parses, hauth]
      simp only [hparsed, Option.isSome_some]
    refine ⟨⟨hblob.1, horigin⟩, fun validUntil ↦ ⟨?_, h.memo, ?_, h.noMemo⟩⟩
    · exact h.own.update_token fun cached hcached ↦ Option.some.inj hcached ▸ hblob.1
    · intro hauth cached hcached _
      rw [Function.update_self] at hcached
      rw [← Option.some.inj hcached]
      exact horigin hauth
  request_token hauth hblob hparsed := by
    refine hbound _ _ (hblobs _ hblob.2 ?_) hblob.1 (.inr (.inl rfl))
    rw [Parses, hauth]
    simp only [hparsed, Option.isSome_some]
  request_basic hauth hblob hparsed method path body hpath := by
    refine hbound _ _ (hblobs _ hblob.2 ?_) hblob.1 (.inl (by rw [hpath]; rfl))
    rw [Parses, hauth]
    simp only [hparsed, Option.isSome_some]
  request_bearer hauth haccess method path body hpath :=
    hbound _ _ (haccess.2 hauth) haccess.1 (.inl (by rw [hpath]; rfl))

/-- A state after a step from `s₀` that kept the origins and sent bound requests only. -/
structure AfterBound (path : String) (command : TestCommand) (s₀ s : Session) : Prop where
  own : OwnOrigins s.tokens s.credentialBlobs
  sent : ∀ sent ∈ s.sent.drop s₀.sent.length, SentBound path command sent

/-- A call is bound if the memos are and, with basic authorization, the store may be read. -/
theorem request_bound (hown : Own environment.id (credentials.origin environment.id))
    (hstore : R → ∀ value, credentials.get environment.id = .ok (some value) →
      B ⟨value, credentials.origin environment.id⟩)
    (hblobs : ∀ blob, B blob → Parses codec environment blob.value → O blob.origin)
    (hbound : ∀ origin request, O origin → Own environment.id origin →
      Addresses environment.instanceUrl request → SentBound path command ⟨request, some origin⟩)
    (hmemos : MemosBound environment s₀ B O R s₀.tokens s₀.credentialBlobs)
    (hR : environment.authMethod = .basic → R) :
    Triple (fun s ↦ s = s₀) (request codec environment credentials "GET" glideWarPath none)
      (fun _ s ↦ AfterBound path command s₀ s) (fun _ s ↦ AfterBound path command s₀ s) := by
  let d : Discipline codec environment credentials s₀ :=
    bindingDiscipline path command hown hstore hblobs hbound
  have hforget : Triple d.Keeps (forget environment) (fun _ s ↦ d.Keeps s) fun _ _ ↦ False := by
    cases hauth : environment.authMethod with
    | basic =>
      refine (Discipline.forget_basic hauth).weaken (fun _ h ↦ h) ?_ fun _ _ h ↦ h
      rintro _ _ ⟨s, hs, rfl⟩
      refine ⟨hs.later.of_eq rfl rfl rfl rfl, ⟨?_, ?_, hs.memos.token, fun _ ↦ hR hauth⟩, hs.sent⟩
      · exact hs.memos.own.update_blob fun held hheld ↦ by cases hheld
      · intro blob (hblob : Function.update s.credentialBlobs _ none environment.id = some blob)
        rw [Function.update_self] at hblob
        cases hblob
    | oauthClientCredentials =>
      refine (Discipline.forget_oauth hauth).weaken (fun _ h ↦ h) ?_ fun _ _ h ↦ h
      rintro _ _ ⟨s, hs, rfl⟩
      refine ⟨hs.later.of_eq rfl rfl rfl rfl, ⟨?_, hs.memos.memo, ?_, hs.memos.noMemo⟩, hs.sent⟩
      · exact hs.memos.own.update_token fun cached hcached ↦ by cases hcached
      · intro _ cached (hcached : Function.update s.tokens _ none environment.id = some cached)
        rw [Function.update_self] at hcached
        cases hcached
  refine (Discipline.request_keeps d hforget rfl rfl).weaken
    (fun _ hs ↦ hs.symm ▸ Discipline.keeps_refl hmemos) ?_ ?_
  · rintro _ s (⟨h, -⟩ | ⟨h, -⟩) <;> exact ⟨h.memos.own, h.sent⟩
  · rintro _ s (⟨h, -⟩ | ⟨h, -⟩) <;> exact ⟨h.memos.own, h.sent⟩

/-- With basic authorization a memo that does not parse ends the call before any request. -/
theorem request_bound_of_unparsed (hauth : environment.authMethod = .basic)
    (hown : Own environment.id (credentials.origin environment.id))
    (horigins : OwnOrigins s₀.tokens s₀.credentialBlobs) {blob : Held String}
    (hblob : s₀.credentialBlobs environment.id = some blob)
    (hparses : ¬ Parses codec environment blob.value) :
    Triple (fun s ↦ s = s₀) (request codec environment credentials "GET" glideWarPath none)
      (fun _ s ↦ AfterBound path command s₀ s) (fun _ s ↦ AfterBound path command s₀ s) := by
  let d : Discipline codec environment credentials s₀ :=
    bindingDiscipline path command (B := fun blob ↦ ¬ Parses codec environment blob.value)
      (O := fun _ ↦ False) (R := False) hown (fun h ↦ h.elim) (fun _ h h' ↦ h h')
      fun _ _ h ↦ h.elim
  have hnone : ∀ r, ¬ d.Outcome "GET" glideWarPath none (.ok r) := by
    rintro r ⟨headers, hheaders, -⟩
    simp only [Discipline.Auth, hauth] at hheaders
    obtain ⟨blob, parsed, ⟨-, hblob⟩, hparsed, -⟩ := hheaders
    refine hblob ?_
    rw [Parses, hauth]
    simp only [hparsed, Option.isSome_some]
  have hmemos : d.Memos s₀.tokens s₀.credentialBlobs := by
    refine ⟨horigins, fun b hb ↦ ?_, fun h ↦ ?_, fun h ↦ ?_⟩
    · rw [← Option.some.inj (hblob.symm.trans hb)]
      exact hparses
    · rw [hauth] at h
      cases h
    · cases hblob.symm.trans h
  refine Triple.bind (fun _ _ ↦ False) ((Discipline.attempt_keeps (d := d) rfl).weaken
    (fun _ hs ↦ hs.symm ▸ Discipline.keeps_refl hmemos) (fun r _ h ↦ hnone r h.2)
    fun _ _ h ↦ ⟨h.1.memos.own, h.1.sent⟩) fun _ _ h ↦ h.elim

theorem AfterBound.refl (h : OwnOrigins s₀.tokens s₀.credentialBlobs) :
    AfterBound path command s₀ s₀ where
  own := h
  sent _ hsent := by rw [List.drop_length] at hsent; cases hsent

/-- One plain request is bound if its secret is. -/
theorem execute_bound {request : HttpRequest} {origin : Option Origin}
    (horigins : OwnOrigins s₀.tokens s₀.credentialBlobs)
    (hsent : SentBound path command ⟨request, origin⟩) :
    Triple (fun s ↦ s = s₀) (execute request origin)
      (fun _ s ↦ AfterBound path command s₀ s) (fun _ s ↦ AfterBound path command s₀ s) := by
  have hafter : AfterBound path command s₀ { s₀ with sent := s₀.sent ++ [⟨request, origin⟩] } := by
    refine ⟨horigins, fun sent h ↦ ?_⟩
    rw [List.drop_left] at h
    rw [List.mem_singleton.mp h]
    exact hsent
  refine execute_spec.weaken (fun _ h ↦ h) ?_ ?_
  · rintro _ _ ⟨-, rfl⟩
    exact hafter
  · rintro _ _ ⟨-, rfl⟩
    exact hafter

/-- A given secret may go anywhere. -/
theorem sentBound_given {request : HttpRequest} :
    SentBound path command ⟨request, some .given⟩ := fun _ h ↦ by cases h

/-- The secrets of a probe may be sent to its URL, or there is no stored one among them. -/
def MaySend (codec : Codec) (path : String) (command : TestCommand)
    (environment : EnvironmentConfig) (credentials : CredentialStore) (s₀ : Session) : Prop :=
  (∀ origin request, Own environment.id origin → Addresses environment.instanceUrl request →
      SentBound path command ⟨request, some origin⟩) ∨
    Withholds codec environment credentials s₀

theorem observe_bound {rttMs : Nat} (hplatform : environment.platform = .servicenow)
    (hown : Own environment.id (credentials.origin environment.id))
    (horigins : OwnOrigins s₀.tokens s₀.credentialBlobs)
    (hsend : MaySend codec path command environment credentials s₀) :
    Triple (fun s ↦ s = s₀) (observe codec environment credentials rttMs)
      (fun _ s ↦ AfterBound path command s₀ s) (fun _ s ↦ AfterBound path command s₀ s) := by
  refine observe_spec ?_
  rcases hsend with hbound | hwithholds
  · exact request_bound (B := fun _ ↦ True) (O := fun _ ↦ True) (R := True) hown
      (fun _ _ _ ↦ trivial) (fun _ _ _ ↦ trivial) (fun _ _ _ ↦ hbound _ _)
      ⟨horigins, fun _ _ ↦ trivial, fun _ _ _ _ ↦ trivial, fun _ ↦ trivial⟩ fun _ ↦ trivial
  · rw [Withholds, hplatform] at hwithholds
    by_cases hreads : environment.authMethod = .basic → ReadsStore codec environment s₀
    · refine request_bound (B := fun blob ↦ Parses codec environment blob.value →
        blob.origin = .given) (O := fun o ↦ o = .given) hown hwithholds.store (fun _ h ↦ h)
        ?_ ⟨horigins, hwithholds.memo, hwithholds.token, ?_⟩ hreads
      · rintro _ request rfl _ _
        exact sentBound_given
      · intro hnone blob hblob
        cases hnone.symm.trans hblob
    · -- The memo that keeps the client from the store does not parse either.
      push Not at hreads
      obtain ⟨hauth, hreads⟩ := hreads
      simp only [ReadsStore, hauth, true_and, not_forall] at hreads
      obtain ⟨blob, hblob, hparses⟩ := hreads
      exact request_bound_of_unparsed hauth hown horigins hblob hparses

theorem httpProbe_bound {rttMs : Nat} (hplatform : environment.platform = .http)
    (hown : Own environment.id (credentials.origin environment.id))
    (horigins : OwnOrigins s₀.tokens s₀.credentialBlobs)
    (hsend : MaySend codec path command environment credentials s₀) :
    Triple (fun s ↦ s = s₀) (httpProbe codec environment credentials rttMs)
      (fun _ s ↦ AfterBound path command s₀ s) (fun _ s ↦ AfterBound path command s₀ s) := by
  refine Triple.bind _ (execute_bound horigins ?_) fun _ ↦ Triple.pure fun _ hs ↦ hs
  cases hheader : storedBasicHeader codec environment.id credentials with
  | none => exact fun _ h ↦ by cases h
  | some header =>
    rcases hsend with hbound | hwithholds
    · exact hbound _ _ hown (.inr (.inr (.inl rfl)))
    · rw [Withholds, hplatform] at hwithholds
      simp only [Option.map_some, hwithholds (by rw [hheader]; rfl)]
      exact sentBound_given

theorem actionsProbe_bound {unixNow : Int} (hplatform : environment.platform = .github)
    (hown : Own environment.id (credentials.origin environment.id))
    (horigins : OwnOrigins s₀.tokens s₀.credentialBlobs)
    (hsend : MaySend codec path command environment credentials s₀) :
    Triple (fun s ↦ s = s₀) (actionsProbe codec environment credentials unixNow)
      (fun _ s ↦ AfterBound path command s₀ s) (fun _ s ↦ AfterBound path command s₀ s) := by
  have hrefl : ∀ s, s = s₀ → AfterBound path command s₀ s := fun _ h ↦ h.symm ▸ .refl horigins
  unfold actionsProbe
  cases hrepo : splitGithubRepo environment.instanceUrl with
  | none => exact Triple.throw hrefl
  | some repo =>
    refine Triple.ofExcept_bind (fun token htoken ↦ ?_) fun _ _ ↦ hrefl
    refine Triple.bind _ (execute_bound horigins ?_) fun response ↦
      Triple.ofExcept_bind (fun _ _ ↦ Triple.pure fun _ h ↦ h) fun _ _ _ h ↦ h
    rcases hsend with hbound | hwithholds
    · exact hbound _ _ hown (.inr (.inr (.inr ⟨_, _, _, hrepo, rfl⟩)))
    · rw [Withholds, hplatform] at hwithholds
      rw [hwithholds (by rw [htoken]; rfl)]
      exact sentBound_given

/-- The probe of each Platform is bound if its secrets may be sent. -/
theorem probeEnvironment_bound {clock : ProbeClock}
    (hown : Own environment.id (credentials.origin environment.id))
    (horigins : OwnOrigins s₀.tokens s₀.credentialBlobs)
    (hsend : MaySend codec path command environment credentials s₀) :
    Triple (fun s ↦ s = s₀) (probeEnvironment codec environment credentials clock)
      (fun _ s ↦ AfterBound path command s₀ s) (fun _ s ↦ AfterBound path command s₀ s) := by
  unfold probeEnvironment
  cases hplatform : environment.platform with
  | servicenow => exact observe_bound hplatform hown horigins hsend
  | http => exact observeProbeSignal_spec (httpProbe_bound hplatform hown horigins hsend)
  | github => exact observeProbeSignal_spec (actionsProbe_bound hplatform hown horigins hsend)

/-- A command that meets the condition is bound and keeps the origins. -/
theorem handle_bound (horigins : OwnOrigins s₀.tokens s₀.credentialBlobs)
    (hadmits : Admits codec path s₀ command) :
    AfterBound path command s₀ (final (command.handle codec path s₀)) := by
  have hrefl : ∀ s, s = s₀ → AfterBound path command s₀ s := fun _ h ↦ h.symm ▸ .refl horigins
  suffices h : Triple (fun s ↦ s = s₀) (command.handle codec path)
      (fun _ s ↦ AfterBound path command s₀ s) (fun _ s ↦ AfterBound path command s₀ s) from
    final_of_triple h (fun _ _ h ↦ h) (fun _ _ h ↦ h) rfl
  unfold TestCommand.handle
  split
  · exact Triple.throw hrefl
  · next hguard =>
    unfold testEnvironment
    cases hvalid : validateTest codec command.environment command.credentialJson with
    | error e => exact Triple.throw hrefl
    | ok _ =>
      refine probeEnvironment_bound ?_ horigins ?_
      · unfold testStore
        split
        · exact .inl rfl
        · exact .inr rfl
      · rcases hadmits with ⟨e, he⟩ | ⟨hnone, hsaved⟩ | hwithholds
        · cases hvalid.symm.trans he
        · obtain ⟨saved, hsaved⟩ := Option.isSome_iff_exists.mp hsaved
          have hurl : saved.instanceUrl = command.environment.instanceUrl := by
            by_contra hne
            exact hguard ⟨hnone, by simp [urlDiffers, hsaved, hne]⟩
          refine .inl fun origin request howner haddress id horigin ↦ ⟨hnone, saved, ?_, ?_⟩
          · rcases howner with rfl | rfl
            · cases horigin
            · cases horigin
              exact hsaved
          · rw [hurl]
            exact haddress
        · exact .inr hwithholds

end Step

/-- In every run of commands that meet the condition stored secrets go to their saved URL only. -/
theorem bound_of_admitted (codec : Codec) (path : String)
    (transport : Nat → HttpRequest → Except String HttpResponse) (clock : Nat → Nat)
    (commands : List TestCommand)
    (hadmitted : Admitted codec path (Session.new transport clock) commands) :
    Bound codec path (Session.new transport clock) commands := by
  have hgo : ∀ (commands : List TestCommand) (s : Session),
      OwnOrigins s.tokens s.credentialBlobs → Admitted codec path s commands →
        Bound codec path s commands := by
    intro commands
    induction commands with
    | nil => exact fun _ _ _ ↦ trivial
    | cons command commands ih =>
      rintro s horigins ⟨hadmits, hrest⟩
      have hafter := handle_bound horigins hadmits
      exact ⟨hafter.sent, ih _ hafter.own hrest⟩
  exact hgo commands _ ⟨fun _ _ h ↦ (by cases h), fun _ _ h ↦ (by cases h)⟩ hadmitted

/-- A server that takes every request. -/
def openServer (_ : Nat) (_ : HttpRequest) : Except String HttpResponse :=
  .ok (plainResponse 200 pageText)

/-- A probe of the saved URL with the stored Credential, then one of a new Environment with its
own. -/
theorem bound_of_saved_and_new : Bound sampleCodec "environments.json"
    (Session.new openServer id)
    [sampleTest "prod" "https://prod.example.com" none sampleFile,
      sampleTest "dev" "https://dev.example.com" (some (basicText "new")) sampleFile] := by
  refine bound_of_admitted sampleCodec "environments.json" openServer id _ ⟨.inr (.inl ⟨rfl, ?_⟩),
    .inr (.inr ⟨?_, ?_, ?_⟩), trivial⟩
  · decide +kernel
  · intro blob hblob
    have hnone : (final ((sampleTest "prod" "https://prod.example.com" none sampleFile).handle
        sampleCodec "environments.json" (Session.new openServer id))).credentialBlobs "dev" =
          none := by decide +kernel
    cases hnone.symm.trans hblob
  · intro hauth
    cases hauth
  · exact fun _ _ _ _ ↦ rfl

/-- The request of a probe with the stored password at another URL. -/
def leakedRequest : Sent where
  request := dataRequest { sampleEnvironment .basic with instanceUrl := "https://typo.example.com" }
    "GET" glideWarPath none [("Authorization", "Basic dTpvbGQ=")]
  origin := some (.stored "prod")

/-- The stored password goes to a new URL: after a probe of the saved one it is taken from the
memo although the command has its own, and with an unreadable file it needs no memo. -/
theorem stored_password_leaks :
    ¬ Bound sampleCodec "environments.json" (Session.new openServer id)
        [sampleTest "prod" "https://prod.example.com" none sampleFile,
          sampleTest "prod" "https://typo.example.com" (some (basicText "new")) sampleFile] ∧
      ¬ Bound sampleCodec "environments.json" (Session.new openServer id)
        [sampleTest "prod" "https://typo.example.com" none .unparsable] := by
  constructor
  · rintro ⟨-, h, -⟩
    cases (h leakedRequest (by decide +kernel) "prod" rfl).1
  · rintro ⟨h, -⟩
    obtain ⟨-, saved, hsaved, -⟩ := h leakedRequest (by decide +kernel) "prod" rfl
    cases hsaved

end Daku.Environments
