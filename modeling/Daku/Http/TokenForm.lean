import Daku.Base.FormUrlencoded
import Daku.Http.Retries

/-!
# The form of a token request

What `urlencode` writes is read back by any decoder of forms, so the body that `oauth_access` posts
carries the stored pair and nothing else, `crates/daku-core/src/servicenow.rs:304–319` and
`465–476`.
-/

namespace Daku.Http

open Daku.Base Daku.Protocol

/-- What `urlencode` writes for a byte. -/
def encodeByte (b : UInt8) : List Char :=
  if isUnreserved b then [Char.ofNat b.toNat]
  else ['%', hexDigit (b.toNat / 16), hexDigit (b.toNat % 16)]

section Encoding

variable {b : UInt8} {bytes : List UInt8} {cs : List Char}

/-- A fact about bytes may be checked for each of them. -/
private theorem forall_byte {P : UInt8 → Prop} (h : ∀ n < 256, P (UInt8.ofNat n)) (b : UInt8) :
    P b := by
  have hb := h b.toNat b.toNat_lt
  rwa [UInt8.ofNat_toNat] at hb

/-- A byte that is left alone is one character, and no delimiter of a form. -/
theorem isUnreserved_spec : ∀ b : UInt8, isUnreserved b = true →
    String.utf8EncodeChar (Char.ofNat b.toNat) = [b] ∧ Char.ofNat b.toNat ≠ '+' ∧
      Char.ofNat b.toNat ≠ '%' ∧ Char.ofNat b.toNat ≠ '&' ∧ Char.ofNat b.toNat ≠ '=' := by
  apply forall_byte
  decide +kernel

/-- The digits of a byte are read as the byte, and are no delimiters. -/
theorem hexDigit_spec : ∀ b : UInt8,
    hexByte (hexDigit (b.toNat / 16)) (hexDigit (b.toNat % 16)) = some b ∧
      '&' ∉ ['%', hexDigit (b.toNat / 16), hexDigit (b.toNat % 16)] ∧
      '=' ∉ ['%', hexDigit (b.toNat / 16), hexDigit (b.toNat % 16)] := by
  apply forall_byte
  decide +kernel

theorem percentDecode_encodeByte :
    percentDecode (encodeByte b ++ cs) = b :: percentDecode cs := by
  rw [encodeByte]
  split
  · next h =>
    obtain ⟨hbytes, hplus, hpercent, -⟩ := isUnreserved_spec b h
    rw [List.singleton_append, percentDecode_plain hplus hpercent, hbytes]
    rfl
  · exact percentDecode_escape (hexDigit_spec b).1

/-- The bytes are read back in order, by induction. -/
theorem percentDecode_encode : percentDecode (bytes.flatMap encodeByte) = bytes := by
  induction bytes with
  | nil => rfl
  | cons b bytes ih => rw [List.flatMap_cons, percentDecode_encodeByte, ih]

theorem notMem_encodeByte : '&' ∉ encodeByte b ∧ '=' ∉ encodeByte b := by
  rw [encodeByte]
  split
  · next h =>
    obtain ⟨-, -, -, hamp, heq⟩ := isUnreserved_spec b h
    exact ⟨fun hmem ↦ hamp (List.mem_singleton.mp hmem).symm,
      fun hmem ↦ heq (List.mem_singleton.mp hmem).symm⟩
  · exact (hexDigit_spec b).2

end Encoding

section Values

variable (value : String)

/-- The loop over an array of bytes goes through its list. -/
private theorem toList_loop (bytes : ByteArray) (i : ℕ) (r : List UInt8) :
    ByteArray.toList.loop bytes i r = r.reverse ++ bytes.data.toList.drop i := by
  fun_induction ByteArray.toList.loop bytes i r with
  | case1 i r hlt ih =>
    have hlt' : i < bytes.data.toList.length := by
      rw [Array.length_toList]
      exact hlt
    have hget : bytes.get! i = bytes.data.toList[i] := getElem!_pos bytes.data i hlt
    rw [ih, List.drop_eq_getElem_cons hlt', List.reverse_cons, List.append_assoc, hget]
    rfl
  | case2 i r hge =>
    rw [List.drop_of_length_le, List.append_nil]
    rw [Array.length_toList]
    exact Nat.le_of_not_lt hge

theorem toList_urlencode :
    (urlencode value).toList = value.toByteArray.data.toList.flatMap encodeByte := by
  have hbytes : value.toUTF8.toList = value.toByteArray.data.toList := by
    rw [String.toUTF8_eq_toByteArray, ByteArray.toList, toList_loop]
    rfl
  rw [urlencode, String.toList_ofList, hbytes]
  rfl

/-- An encoded text decodes to the text, whatever its characters. -/
theorem decodeText_urlencode : decodeText (urlencode value).toList = some value := by
  apply decodeText_eq
  rw [toList_urlencode, percentDecode_encode]

theorem notMem_urlencode :
    '&' ∉ (urlencode value).toList ∧ '=' ∉ (urlencode value).toList := by
  rw [toList_urlencode]
  constructor
  · intro hmem
    obtain ⟨b, -, hb⟩ := List.mem_flatMap.mp hmem
    exact notMem_encodeByte.1 hb
  · intro hmem
    obtain ⟨b, -, hb⟩ := List.mem_flatMap.mp hmem
    exact notMem_encodeByte.2 hb

end Values

/-- The pairs of a token request for a Credential. -/
def tokenPairs (cred : OauthCred) : List (Option String × Option String) :=
  [(some "grant_type", some "client_credentials"), (some "client_id", some cred.clientId),
    (some "client_secret", some cred.clientSecret)]

/-- The pieces of a body. -/
private theorem toList_tokenBody (cred : OauthCred) : (tokenBody cred).toList =
    "grant_type".toList ++ '=' :: "client_credentials".toList ++ '&' ::
      ("client_id".toList ++ '=' :: (urlencode cred.clientId).toList ++ '&' ::
        ("client_secret".toList ++ '=' :: (urlencode cred.clientSecret).toList)) := by
  have hbody : tokenBody cred = "grant_type=client_credentials&client_id=" ++
      urlencode cred.clientId ++ "&client_secret=" ++ urlencode cred.clientSecret := rfl
  have hfirst : "grant_type=client_credentials&client_id=".toList = _ := String.toList_ofList
  have hthen : "&client_secret=".toList = _ := String.toList_ofList
  have htype : "grant_type".toList = _ := String.toList_ofList
  have hcredentials : "client_credentials".toList = _ := String.toList_ofList
  have hid : "client_id".toList = _ := String.toList_ofList
  have hsecret : "client_secret".toList = _ := String.toList_ofList
  rw [hbody, String.toList_append, String.toList_append, String.toList_append, hfirst, hthen, htype,
    hcredentials, hid, hsecret]
  simp only [List.cons_append, List.nil_append, List.append_assoc]

/-- The body of a token request is a form with these pairs. -/
theorem decodeForm_tokenBody (cred : OauthCred) : decodeForm (tokenBody cred) = tokenPairs cred := by
  have hplain : ∀ s : String, '+' ∉ s.toList → '%' ∉ s.toList → decodeText s.toList = some s :=
    fun _ ↦ decodeText_plain
  have hid := (notMem_urlencode cred.clientId).1
  have hsecret := (notMem_urlencode cred.clientSecret).1
  rw [decodeForm, toList_tokenBody, decodePairs_append (by simp) (by simp),
    decodePairs_append (by simp) (by simp [hid]), decodePairs_single (by simp) (by simp [hsecret]),
    decodeText_urlencode, decodeText_urlencode, hplain "grant_type" (by simp) (by simp),
    hplain "client_credentials" (by simp) (by simp), hplain "client_id" (by simp) (by simp),
    hplain "client_secret" (by simp) (by simp), tokenPairs]

/-- What was sent between two states is token requests for the Credential in the blob. -/
def SendsTokenRequests (codec : Codec) (environment : EnvironmentConfig) (blob : Held String)
    (s t : Session) : Prop :=
  ∀ sent ∈ t.sent.drop s.sent.length, ∃ cred, codec.oauthCred blob.value = some cred ∧
    sent.request = tokenRequest environment (tokenBody cred)

section Programs

variable {codec : Codec} {environment : EnvironmentConfig} {blob : Held String} {s t u : Session}

theorem SendsTokenRequests.of_idle (h : Idle s t) :
    SendsTokenRequests codec environment blob s t := by
  intro sent hsent
  rw [h.sent_eq, List.drop_length] at hsent
  cases hsent

theorem SendsTokenRequests.trans (h : SendsTokenRequests codec environment blob s t)
    (h' : Idle t u) : SendsTokenRequests codec environment blob s u := by
  rw [SendsTokenRequests, h'.sent_eq]
  exact h

theorem requestToken_sends :
    Triple (fun t ↦ t = s) (requestToken codec environment blob)
      (fun _ t ↦ SendsTokenRequests codec environment blob s t)
      (fun _ t ↦ SendsTokenRequests codec environment blob s t) := by
  unfold requestToken
  cases hparsed : codec.oauthCred blob.value with
  | none =>
    apply Triple.throw
    rintro _ rfl
    exact .of_idle (.refl _)
  | some parsed =>
    have hsends : ∀ {answer : Except String HttpResponse} {t : Session},
        (∃ c : RetriedCall, c.sent = ⟨tokenRequest environment (tokenBody parsed), some blob.origin⟩ ∧
          c.answer = answer ∧ Calls [c] s t) →
        SendsTokenRequests codec environment blob s t := by
      rintro answer t ⟨c, hc, -, hcalls⟩ sent hsent
      rw [hcalls.sent_eq, List.drop_left, List.flatMap_singleton] at hsent
      rw [List.eq_of_mem_replicate hsent, hc]
      exact ⟨parsed, hparsed, rfl⟩
    refine Triple.bind (fun _ t ↦ SendsTokenRequests codec environment blob s t)
      (send_calls.weaken (fun _ h ↦ h) (fun _ _ h ↦ hsends h) fun _ _ h ↦ hsends h) fun response ↦ ?_
    split
    · exact Triple.throw fun _ h ↦ h
    · cases codec.accessGrant response.body with
      | none => exact Triple.throw fun _ h ↦ h
      | some grant =>
        refine Triple.of_forall fun t ht ↦ ?_
        refine Triple.bind (fun _ u ↦ Idle t u) now_idle fun now ↦ ?_
        refine Triple.modify_bind (Triple.pure ?_)
        rintro _ ⟨u, hu, rfl⟩
        have hidle : Idle t u := hu
        exact ht.trans ⟨hidle.transport, hidle.sent_eq, hidle.slept⟩

theorem oauthAccess_sends :
    Triple (fun t ↦ t = s) (oauthAccess codec environment blob)
      (fun _ t ↦ SendsTokenRequests codec environment blob s t)
      (fun _ t ↦ SendsTokenRequests codec environment blob s t) := by
  refine Triple.bind _ cachedAccessToken_idle fun cached ↦ Triple.of_forall fun t ht ↦ ?_
  have hafter : ∀ {u : Session}, SendsTokenRequests codec environment blob t u →
      SendsTokenRequests codec environment blob s u := by
    intro u hu
    rwa [SendsTokenRequests, ← ht.sent_eq]
  cases cached with
  | some access =>
    apply Triple.pure
    rintro _ rfl
    exact .of_idle ht
  | none =>
    exact requestToken_sends.weaken (fun _ h ↦ h) (fun _ _ h ↦ hafter h) fun _ _ h ↦ hafter h

end Programs

/-- Whatever client id and secret are, the body for them decodes to the grant type and exactly this
pair; and whenever `oauth_access` posts, it posts the body for the stored pair. -/
theorem token_form_exact (codec : Codec) (environment : EnvironmentConfig) (blob : Held String)
    (s : Session) :
    (∀ cred : OauthCred, decodeForm (tokenBody cred) =
      [(some "grant_type", some "client_credentials"), (some "client_id", some cred.clientId),
        (some "client_secret", some cred.clientSecret)]) ∧
      ∀ sent ∈ (final (oauthAccess codec environment blob s)).sent.drop s.sent.length,
        ∃ cred, codec.oauthCred blob.value = some cred ∧
          sent.request.body = some (tokenBody cred) := by
  refine ⟨decodeForm_tokenBody, fun sent hsent ↦ ?_⟩
  have hsends : SendsTokenRequests codec environment blob s
      (final (oauthAccess codec environment blob s)) :=
    final_of_triple oauthAccess_sends (fun _ _ h ↦ h) (fun _ _ h ↦ h) rfl
  obtain ⟨cred, hcred, hrequest⟩ := hsends sent hsent
  exact ⟨cred, hcred, by rw [hrequest]; rfl⟩

end Daku.Http
