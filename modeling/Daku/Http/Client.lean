import Daku.Base.Triple
import Daku.Protocol.Environment
import Mathlib.Logic.Function.Basic

/-!
# The ServiceNow HTTP client

`ServiceNowClient` of `crates/daku-core/src/servicenow.rs:181–421`: requests with OAuth or basic
authorization, the two memos it keeps per Environment, and the retries on 429 and 401. Clock and
transport are streams, the n-th reading and the answer to the n-th request, so that every clock
and every server is one. Decoders of the libraries are given from outside.
-/

namespace Daku.Http

open Daku.Base Daku.Protocol

/-- Name and value of an HTTP header. -/
abbrev Header : Type := String × String

/-- One request (`servicenow.rs:43–49`). -/
structure HttpRequest where
  method : String
  url : String
  headers : List Header
  body : Option String
  deriving DecidableEq, Repr

/-- One response (`servicenow.rs:51–56`). -/
structure HttpResponse where
  status : Nat
  headers : List Header
  body : String
  deriving DecidableEq, Repr

/-- `HttpResponse::header`, with the name in any case (`servicenow.rs:59–63`). -/
def HttpResponse.header (response : HttpResponse) (name : String) : Option String :=
  (response.headers.find? fun h ↦ eqIgnoreAsciiCase h.1 name).map Prod.snd

/-- Basic Credential (`servicenow.rs:365–369`). -/
structure BasicCred where
  username : String
  password : String
  deriving DecidableEq, Repr

/-- OAuth Credential (`servicenow.rs:371–375`). -/
structure OauthCred where
  clientId : String
  clientSecret : String
  deriving DecidableEq, Repr

/-- Answer of the token endpoint (`servicenow.rs:377–382`). -/
structure AccessGrant where
  accessToken : String
  expiresIn : Option Nat
  deriving DecidableEq, Repr

/-- What `serde_json`, `base64` and `httpdate` make of a text. -/
structure Codec where
  /-- `serde_json::from_str::<Value>`. -/
  fromStr : FromStr
  /-- `serde_json::Number::to_string`. -/
  numberText : Number → String
  basicCred : String → Option BasicCred
  oauthCred : String → Option OauthCred
  accessGrant : String → Option AccessGrant
  base64 : String → String
  /-- `httpdate::parse_http_date`, in nanoseconds since the epoch. -/
  httpDate : String → Option Nat

/-- Where a secret comes from: the Credential store or a command. No program reads it. -/
inductive Origin where
  | stored (environmentId : String)
  | given
  deriving DecidableEq, Repr

/-- A value derived from a secret. -/
structure Held (α : Type) where
  value : α
  origin : Origin
  deriving DecidableEq, Repr

/-- `CredentialStore::get` (`config.rs:179–180`) and where its blobs come from. -/
structure CredentialStore where
  get : String → Except String (Option String)
  origin : String → Origin

/-- A memoized OAuth token (`servicenow.rs:176–179`). -/
structure CachedToken where
  access : Held String
  validUntil : Nat
  deriving DecidableEq, Repr

/-- A request that was sent, and the origin of the secret it carries. -/
structure Sent where
  request : HttpRequest
  origin : Option Origin
  deriving DecidableEq, Repr

/-- A client with its memos, its transport and its clock. -/
structure Session where
  /-- Answer to the n-th request. -/
  transport : Nat → HttpRequest → Except String HttpResponse
  /-- The n-th reading of the clock, in nanoseconds since the epoch. -/
  clock : Nat → Nat
  readings : Nat
  /-- Requests so far, in order. -/
  sent : List Sent
  /-- Times slept so far, in nanoseconds. -/
  slept : List Nat
  tokens : String → Option CachedToken
  credentialBlobs : String → Option (Held String)

/-- Programs of the client; errors are their outermost message. -/
abbrev ClientM (α : Type) : Type := EStateM String Session α

/-- The client after a program, also after one that failed. -/
def final {α : Type} : EStateM.Result String Session α → Session
  | .ok _ s => s
  | .error _ s => s

/-- `ServiceNowClient::new` (`servicenow.rs:194–201`). -/
def Session.new (transport : Nat → HttpRequest → Except String HttpResponse)
    (clock : Nat → Nat) : Session where
  transport := transport
  clock := clock
  readings := 0
  sent := []
  slept := []
  tokens := fun _ ↦ none
  credentialBlobs := fun _ ↦ none

/-- Nanoseconds of a second. -/
def second : Nat := 1000000000

/-- Retries after 429 (`servicenow.rs:22`). -/
def max429Retries : Nat := 2

/-- `DEFAULT_RETRY_AFTER` (`servicenow.rs:23`). -/
def defaultRetryAfter : Nat := 1 * second

/-- `MAX_RETRY_AFTER` (`servicenow.rs:27`). -/
def maxRetryAfter : Nat := 30 * second

/-- `MAX_TICK_429_SLEEP` (`servicenow.rs:33`). -/
def maxTick429Sleep : Nat := 5 * second

/-- `MAX_TOKEN_TTL_SECS` (`servicenow.rs:35`). -/
def maxTokenTtlSecs : Nat := 24 * 60 * 60

/-- `MIN_TOKEN_TTL_SECS` (`servicenow.rs:39`). -/
def minTokenTtlSecs : Nat := 60

/-- `TOKEN_TTL_SKEW_SECS` (`servicenow.rs:42`). -/
def tokenTtlSkewSecs : Nat := 30

/-- `Clock::now`. -/
def now : ClientM Nat := do
  let s ← get
  set { s with readings := s.readings + 1 }
  pure (s.clock s.readings)

/-- `Clock::sleep`. -/
def sleep (duration : Nat) : ClientM Unit :=
  modify fun s ↦ { s with slept := s.slept ++ [duration] }

/-- `HttpTransport::execute`, also for requests without authorization (`servicenow.rs:206–208`). -/
def execute (request : HttpRequest) (origin : Option Origin) : ClientM HttpResponse := do
  let s ← get
  let sent : Sent := { request, origin }
  set { s with sent := s.sent ++ [sent] }
  match s.transport s.sent.length request with
  | .ok response => pure response
  | .error e => throw e

/-- `http_date_delay` (`servicenow.rs:485–493`). -/
def httpDateDelay (codec : Codec) (value : String) (now : Nat) : Option Nat :=
  match codec.httpDate value with
  | none => none
  | some parsed => if now < parsed then some (parsed - now) else none

/-- `retry_after_delay` (`servicenow.rs:474–483`). -/
def retryAfterDelay (codec : Codec) (response : HttpResponse) (now : Nat) : Nat :=
  match response.header "Retry-After" with
  | none => defaultRetryAfter
  | some value =>
    min maxRetryAfter <|
      match parseU64 (trim value) with
      | some seconds => seconds * second
      | none => (httpDateDelay codec value now).getD defaultRetryAfter

/-- `send` with the retries that are left (`servicenow.rs:349–362`). -/
def sendRetrying (codec : Codec) (request : HttpRequest) (origin : Option Origin) :
    Nat → ClientM HttpResponse
  | 0 => execute request origin
  | retries + 1 => do
    let response ← execute request origin
    if response.status = 429 then do
      let now ← now
      sleep (min maxTick429Sleep (retryAfterDelay codec response now))
      sendRetrying codec request origin retries
    else pure response

/-- `send` (`servicenow.rs:349–362`). -/
def send (codec : Codec) (request : HttpRequest) (origin : Option Origin) :
    ClientM HttpResponse :=
  sendRetrying codec request origin max429Retries

/-- `join_url` (`servicenow.rs:390–392`). -/
def joinUrl (instanceUrl path : String) : String := trimEndChar '/' instanceUrl ++ path

/-- `basic_authorization` (`servicenow.rs:384–388`). -/
def basicAuthorization (codec : Codec) (username password : String) : String :=
  "Basic " ++ codec.base64 (username ++ ":" ++ password)

/-- Bytes that `urlencode` leaves alone (`servicenow.rs:464–466`). -/
def isUnreserved (b : UInt8) : Bool :=
  let c := Char.ofNat b.toNat
  c.isAlphanum || c == '-' || c == '_' || c == '.' || c == '~'

/-- A hexadecimal digit in upper case. -/
def hexDigit (n : Nat) : Char :=
  if n < 10 then Char.ofNat (48 + n) else Char.ofNat (55 + n)

/-- `urlencode` (`servicenow.rs:461–472`). -/
def urlencode (value : String) : String :=
  String.ofList (value.toUTF8.toList.flatMap fun b ↦
    if isUnreserved b then [Char.ofNat b.toNat]
    else ['%', hexDigit (b.toNat / 16), hexDigit (b.toNat % 16)])

/-- Body of a token request (`servicenow.rs:305–309`). -/
def tokenBody (cred : OauthCred) : String :=
  "grant_type=client_credentials&client_id=" ++ urlencode cred.clientId ++ "&client_secret=" ++
    urlencode cred.clientSecret

/-- The token request of an Environment (`servicenow.rs:310–318`). -/
def tokenRequest (environment : EnvironmentConfig) (body : String) : HttpRequest where
  method := "POST"
  url := joinUrl environment.instanceUrl "/oauth_token.do"
  headers := [("Content-Type", "application/x-www-form-urlencoded")]
  body := some body

/-- Seconds a granted token is trusted (`servicenow.rs:328–333`). -/
def tokenTtl (expiresIn : Option Nat) : Nat :=
  max (min (max (expiresIn.getD 1800) minTokenTtlSecs) maxTokenTtlSecs - tokenTtlSkewSecs)
    (minTokenTtlSecs / 2)

/-- `cached_access_token` (`servicenow.rs:292–298`); the clock is read only if there is one. -/
def cachedAccessToken (environmentId : String) : ClientM (Option (Held String)) := do
  let s ← get
  match s.tokens environmentId with
  | none => pure none
  | some cached =>
    let now ← now
    pure (if now < cached.validUntil then some cached.access else none)

/-- `credential_blob` (`servicenow.rs:273–290`). -/
def credentialBlob (environment : EnvironmentConfig) (credentials : CredentialStore) :
    ClientM (Held String) := do
  let s ← get
  match s.credentialBlobs environment.id with
  | some blob => pure blob
  | none =>
    match credentials.get environment.id with
    | .error e => throw e
    | .ok none => throw s!"no credential for environment {environment.id}"
    | .ok (some value) =>
      let blob : Held String := { value, origin := credentials.origin environment.id }
      modify fun s ↦ { s with
        credentialBlobs := Function.update s.credentialBlobs environment.id (some blob) }
      pure blob

/-- A token request and the memo of what it grants (`servicenow.rs:304–346`). -/
def requestToken (codec : Codec) (environment : EnvironmentConfig) (blob : Held String) :
    ClientM (Held String) :=
  match codec.oauthCred blob.value with
  | none => throw "oauth credential JSON"
  | some parsed => do
    let response ← send codec (tokenRequest environment (tokenBody parsed)) (some blob.origin)
    if response.status ≠ 200 then
      throw s!"oauth_token.do returned HTTP {response.status} for {environment.id}"
    else
      match codec.accessGrant response.body with
      | none => throw "oauth token JSON"
      | some grant => do
        let now ← now
        let access : Held String := { value := grant.accessToken, origin := blob.origin }
        let cached : CachedToken :=
          { access, validUntil := now + tokenTtl grant.expiresIn * second }
        modify fun s ↦ { s with tokens := Function.update s.tokens environment.id (some cached) }
        pure access

/-- `oauth_access` (`servicenow.rs:300–347`). -/
def oauthAccess (codec : Codec) (environment : EnvironmentConfig) (blob : Held String) :
    ClientM (Held String) := do
  match ← cachedAccessToken environment.id with
  | some access => pure access
  | none => requestToken codec environment blob

/-- The header that carries a token. -/
def bearer (access : Held String) : Held (List Header) where
  value := [("Authorization", "Bearer " ++ access.value)]
  origin := access.origin

/-- `authorize` (`servicenow.rs:244–269`). -/
def authorize (codec : Codec) (environment : EnvironmentConfig) (credentials : CredentialStore) :
    ClientM (Held (List Header)) :=
  match environment.authMethod with
  | .basic => do
    let blob ← credentialBlob environment credentials
    match codec.basicCred blob.value with
    | none => throw "basic credential JSON"
    | some parsed =>
      pure {
        value := [("Authorization", basicAuthorization codec parsed.username parsed.password)]
        origin := blob.origin }
  | .oauthClientCredentials => do
    match ← cachedAccessToken environment.id with
    | some access => pure (bearer access)
    | none => do
      let blob ← credentialBlob environment credentials
      let access ← oauthAccess codec environment blob
      pure (bearer access)

/-- The request of one attempt (`servicenow.rs:221–227`). -/
def dataRequest (environment : EnvironmentConfig) (method path : String) (body : Option String)
    (headers : List Header) : HttpRequest where
  method := method
  url := joinUrl environment.instanceUrl path
  headers := headers
  body := body

/-- Authorize and send once (`servicenow.rs:219–228`). -/
def attempt (codec : Codec) (environment : EnvironmentConfig) (credentials : CredentialStore)
    (method path : String) (body : Option String) : ClientM HttpResponse := do
  let headers ← authorize codec environment credentials
  send codec (dataRequest environment method path body headers.value) (some headers.origin)

/-- Drop the memo a 401 condemns (`servicenow.rs:233–237`). -/
def forget (environment : EnvironmentConfig) : ClientM Unit :=
  match environment.authMethod with
  | .oauthClientCredentials =>
    modify fun s ↦ { s with tokens := Function.update s.tokens environment.id none }
  | .basic =>
    modify fun s ↦ { s with
      credentialBlobs := Function.update s.credentialBlobs environment.id none }

/-- `request`: a 401 is answered by one more attempt (`servicenow.rs:210–242`). -/
def request (codec : Codec) (environment : EnvironmentConfig) (credentials : CredentialStore)
    (method path : String) (body : Option String) : ClientM HttpResponse := do
  let response ← attempt codec environment credentials method path body
  if response.status = 401 then do
    forget environment
    attempt codec environment credentials method path body
  else pure response

/-! ## Texts of the runs stated below -/

/-- A Credential for basic authorization. -/
def basicText (password : String) : String :=
  "\x7b\"username\":\"u\",\"password\":\"" ++ password ++ "\"\x7d"

/-- An OAuth Credential. -/
def oauthText (clientSecret : String) : String :=
  "\x7b\"client_id\":\"c\",\"client_secret\":\"" ++ clientSecret ++ "\"\x7d"

/-- The grant of a token for half an hour. -/
def grantText (token : String) : String :=
  "\x7b\"access_token\":\"" ++ token ++ "\",\"expires_in\":1800\x7d"

/-- A page of the Table API. -/
def pageText : String := "\x7b\"result\":[\x7b\"value\":\"glide-1\"\x7d]\x7d"

/-- The decoders on these texts with the secrets `old` and `new`. -/
def sampleCodec : Codec where
  fromStr text :=
    let secrets := ["old", "new"]
    match secrets.find? (basicText · = text), secrets.find? (oauthText · = text) with
    | some s, _ => some (.object [("username", .string "u"), ("password", .string s)])
    | none, some s => some (.object [("client_id", .string "c"), ("client_secret", .string s)])
    | none, none =>
      if text = pageText then
        some (.object [("result", .array [.object [("value", .string "glide-1")]])])
      else none
  numberText
    | .posInt n => toString n
    | .negInt n => toString n
    | .float _ => ""
  basicCred text := (["old", "new"].find? (basicText · = text)).map fun s ↦ ⟨"u", s⟩
  oauthCred text := (["old", "new"].find? (oauthText · = text)).map fun s ↦ ⟨"c", s⟩
  accessGrant text := (["old", "new"].find? (grantText · = text)).map fun s ↦ ⟨s, some 1800⟩
  base64 text := if text = "u:old" then "dTpvbGQ=" else if text = "u:new" then "dTpuZXc=" else ""
  httpDate _ := none

/-- A response without headers. -/
def plainResponse (status : Nat) (body : String) : HttpResponse where
  status := status
  headers := []
  body := body

/-- A ServiceNow Environment. -/
def sampleEnvironment (authMethod : AuthMethod) : EnvironmentConfig where
  id := "prod"
  label := "Prod"
  instanceUrl := "https://prod.example.com"
  authMethod := authMethod
  sortOrder := 0
  cloneSource := false
  platform := .servicenow
  thresholds := .default
  expectedDrift := []

end Daku.Http
