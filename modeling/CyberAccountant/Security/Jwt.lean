import CyberAccountant.Library.Checked
import CyberAccountant.Security.Tokens

/-! HS256 JWTs: a header, the claims and the HMAC of their texts.  The header is read before the signature is
compared, outside the handlers that answer what does not parse. -/

namespace CyberAccountant.Security.Jwt

open CyberAccountant.Library CyberAccountant.Security.Base64 CyberAccountant.Security.Tokens

/-- What `value` of the JSON library throws where the default is a text. -/
inductive TypeError where
  /-- 306: the value is not an object. -/
  | notObject
  /-- 302: the member is not a string. -/
  | notString
  deriving DecidableEq

def value (j : Json) (key default : String) : Except TypeError String :=
  match j with
  | .obj ms =>
    match Json.member ms key with
    | none => .ok default
    | some (.str text) => .ok text
    | some _ => .error .notString
  | _ => .error .notObject

/-- The texts before the first dot, between it and the second, and after that. -/
def splitJwt (token : Bytes) : Option (Bytes × Bytes × Bytes) :=
  (splitToken token).bind fun (headerB64, rest) =>
    (splitToken rest).map fun (payloadB64, sigB64) => (headerB64, payloadB64, sigB64)

/-- Whether the header asks for something else than HS256. -/
def unsupportedAlg (header : Json) : Except TypeError Bool := do
  if (← value header "alg" "") ≠ "HS256" then
    return true
  return (← value header "typ" "JWT") ≠ "JWT"

section

variable (lib : Primitives)

/-- The JSON value in base64url; none where either does not parse. -/
def decodeJson (text : Bytes) : Option Json :=
  match urlDecode text with
  | .error _ => none
  | .ok raw => lib.parse raw

/-- The text that is signed. -/
def signingInput (headerB64 payloadB64 : Bytes) : Bytes := headerB64 ++ dot :: payloadB64

/-- What follows the header. -/
def verifySigned (headerB64 payloadB64 sigB64 secret : Bytes) : Except String Json :=
  if secret = [] then .error "no_secret"
  else
    match urlDecode sigB64 with
    | .error _ => .error "malformed_signature"
    | .ok actualSig =>
      if lib.hmacSha256 secret (signingInput headerB64 payloadB64) ≠ actualSig then .error "bad_signature"
      else
        match decodeJson lib payloadB64 with
        | none => .error "malformed_payload"
        | some claims => .ok claims

/-- The claims of a token or the code of an error; the outer error is an exception. -/
def verifyHs256Jwt (token secret : Bytes) : Except TypeError (Except String Json) :=
  match splitJwt token with
  | none => .ok (.error "malformed_token")
  | some (headerB64, payloadB64, sigB64) =>
    match decodeJson lib headerB64 with
    | none => .ok (.error "malformed_header")
    | some header => do
      if ← unsupportedAlg header then
        return .error "unsupported_alg"
      return verifySigned lib headerB64 payloadB64 sigB64 secret

def jwtHeader : Json := .obj [("alg", .str "HS256"), ("typ", .str "JWT")]

/-- A signed token; without a secret there is none. -/
def issueHs256Jwt (claims : Json) (secret : Bytes) : Option Bytes :=
  if secret = [] then none
  else
    let headerB64 := urlEncode (lib.dump jwtHeader)
    let payloadB64 := urlEncode (lib.dump claims)
    some (headerB64 ++ dot :: (payloadB64 ++ dot :: urlEncode (lib.hmacSha256 secret (signingInput headerB64 payloadB64))))

end

/-! ### The reads of the header -/

/-- A member that `value` returns, or does without. -/
def IsText : Option Json → Prop
  | none => True
  | some (.str _) => True
  | some _ => False

theorem value_returns {j : Json} {key default : String} :
    (∃ text, value j key default = .ok text) ↔ j.isObject ∧ IsText (Json.member j.members key) := by
  cases j with
  | obj ms =>
    simp only [value, Json.isObject, Json.members, true_and]
    cases Json.member ms key with
    | none => simp [IsText]
    | some v => cases v <;> simp [IsText]
  | _ => simp [value, Json.isObject]

theorem value_eq_ok {j : Json} {key default text : String} (hNe : text ≠ default) :
    value j key default = .ok text ↔ Json.member j.members key = some (.str text) := by
  cases j with
  | obj ms =>
    simp only [value, Json.members]
    cases Json.member ms key with
    | none => simp [hNe.symm]
    | some v => cases v <;> simp
  | _ => simp [value, Json.members, Json.member]

/-- A header whose reads do not throw: `typ` is read only for HS256. -/
def Readable (header : Json) : Prop :=
  header.isObject ∧ IsText (Json.member header.members "alg") ∧
    (Json.member header.members "alg" = some (.str "HS256") → IsText (Json.member header.members "typ"))

theorem unsupportedAlg_returns {header : Json} : (∃ b, unsupportedAlg header = .ok b) ↔ Readable header := by
  have hAlg := @value_returns header "alg" ""
  have hTyp := @value_returns header "typ" "JWT"
  have hHs := @value_eq_ok header "alg" "" "HS256" (by decide)
  unfold unsupportedAlg Readable
  cases hRead : value header "alg" "" with
  | error e =>
    have hNot : ¬ (header.isObject ∧ IsText (Json.member header.members "alg")) := fun h => by
      obtain ⟨text, hText⟩ := hAlg.mpr h
      rw [hRead] at hText
      cases hText
    refine iff_of_false ?_ fun h => hNot ⟨h.1, h.2.1⟩
    rintro ⟨b, hb⟩
    cases hb
  | ok alg =>
    obtain ⟨hObject, hText⟩ := hAlg.mp ⟨alg, hRead⟩
    by_cases hSupported : alg = "HS256"
    · subst hSupported
      have hMember := hHs.mp hRead
      cases hReadTyp : value header "typ" "JWT" with
      | error e =>
        refine iff_of_false ?_ fun h => ?_
        · rintro ⟨b, hb⟩
          cases hb
        · obtain ⟨text, hTypText⟩ := hTyp.mpr ⟨hObject, h.2.2 hMember⟩
          rw [hReadTyp] at hTypText
          cases hTypText
      | ok typ => exact iff_of_true ⟨_, rfl⟩ ⟨hObject, hText, fun _ => (hTyp.mp ⟨typ, hReadTyp⟩).2⟩
    · refine iff_of_true ⟨true, ?_⟩ ⟨hObject, hText, fun h => ?_⟩
      · exact if_pos hSupported
      · rw [hHs.mpr h] at hRead
        exact absurd (Except.ok.inj hRead).symm hSupported

theorem supported_of {header : Json} (h : unsupportedAlg header = .ok false) :
    header.isObject ∧ Json.member header.members "alg" = some (.str "HS256") := by
  have hReadable := unsupportedAlg_returns.mp ⟨false, h⟩
  refine ⟨hReadable.1, (value_eq_ok (show "HS256" ≠ "" by decide)).mp ?_⟩
  unfold unsupportedAlg at h
  cases hRead : value header "alg" "" with
  | error e =>
    rw [hRead] at h
    cases h
  | ok alg =>
    rw [hRead] at h
    by_cases hSupported : alg = "HS256"
    · rw [hSupported]
    · have hTrue : (pure true : Except TypeError Bool) = .ok false := (if_pos hSupported).symm.trans h
      cases hTrue

/-! ### The texts of a token -/

theorem splitJwt_eq_some {token header payload sig : Bytes} :
    splitJwt token = some (header, payload, sig) ↔
      token = header ++ dot :: (payload ++ dot :: sig) ∧ dot ∉ header ∧ dot ∉ payload := by
  simp only [splitJwt, Option.bind_eq_some_iff, Option.map_eq_some_iff, Prod.mk.injEq, Prod.exists, splitToken_eq_some]
  constructor
  · rintro ⟨header, rest, ⟨rfl, hHeader⟩, payload, sig, ⟨rfl, hPayload⟩, rfl, rfl, rfl⟩
    exact ⟨rfl, hHeader, hPayload⟩
  · rintro ⟨rfl, hHeader, hPayload⟩
    exact ⟨header, _, ⟨rfl, hHeader⟩, payload, sig, ⟨rfl, hPayload⟩, rfl, rfl, rfl⟩

variable (lib : Primitives)

/-- If the header of a token is JSON, its reads do not throw. -/
def HeaderReadable (token : Bytes) : Prop :=
  ∀ headerB64 payloadB64 sigB64 header, splitJwt token = some (headerB64, payloadB64, sigB64) →
    decodeJson lib headerB64 = some header → Readable header

/-- A token with the claims in its payload and the HMAC of its two texts, as they were received. -/
def Signed (token secret : Bytes) (claims : Json) : Prop :=
  ∃ header payload sig, token = header ++ dot :: (payload ++ dot :: sig) ∧ dot ∉ header ∧ dot ∉ payload ∧
    urlDecode sig = .ok (lib.hmacSha256 secret (signingInput header payload)) ∧ decodeJson lib payload = some claims ∧
    ∃ ms, decodeJson lib header = some (.obj ms) ∧ Json.member ms "alg" = some (.str "HS256")

variable {lib} {token secret : Bytes} {claims : Json}

theorem verifySigned_eq_ok {header payload sig : Bytes} :
    verifySigned lib header payload sig secret = .ok claims ↔
      secret ≠ [] ∧ urlDecode sig = .ok (lib.hmacSha256 secret (signingInput header payload)) ∧
        decodeJson lib payload = some claims := by
  unfold verifySigned
  by_cases hSecret : secret = []
  · simp [hSecret]
  · rw [if_neg hSecret]
    cases urlDecode sig with
    | error e => simp
    | ok actual =>
      by_cases hSame : lib.hmacSha256 secret (signingInput header payload) = actual
      · subst hSame
        cases decodeJson lib payload <;> simp [hSecret]
      · simp [hSame, Ne.symm hSame]

/-- Past the checks of its form, a token is verified by its header and by its signature. -/
theorem verifyHs256Jwt_read {headerB64 payloadB64 sigB64 : Bytes} {header : Json}
    (hSplit : splitJwt token = some (headerB64, payloadB64, sigB64)) (hHeader : decodeJson lib headerB64 = some header) :
    verifyHs256Jwt lib token secret =
      (unsupportedAlg header).map fun unsupported =>
        if unsupported then .error "unsupported_alg" else verifySigned lib headerB64 payloadB64 sigB64 secret := by
  rw [verifyHs256Jwt, hSplit]
  simp only [hHeader]
  cases unsupportedAlg header with
  | error e => rfl
  | ok unsupported => cases unsupported <;> rfl

theorem verifyHs256Jwt_unread {headerB64 payloadB64 sigB64 : Bytes}
    (hSplit : splitJwt token = some (headerB64, payloadB64, sigB64)) (hHeader : decodeJson lib headerB64 = none) :
    verifyHs256Jwt lib token secret = .ok (.error "malformed_header") := by
  rw [verifyHs256Jwt, hSplit]
  simp only [hHeader]

/-- The verifier returns exactly where the header of the token is readable. -/
theorem verifyHs256Jwt_returns : (∃ r, verifyHs256Jwt lib token secret = .ok r) ↔ HeaderReadable lib token := by
  unfold HeaderReadable
  cases hSplit : splitJwt token with
  | none => exact iff_of_true ⟨.error "malformed_token", by rw [verifyHs256Jwt, hSplit]⟩ nofun
  | some parts =>
    obtain ⟨headerB64, payloadB64, sigB64⟩ := parts
    cases hHeader : decodeJson lib headerB64 with
    | none =>
      refine iff_of_true ⟨_, verifyHs256Jwt_unread hSplit hHeader⟩ fun h p s header hParts hDecoded => ?_
      cases hParts
      rw [hHeader] at hDecoded
      cases hDecoded
    | some header =>
      rw [verifyHs256Jwt_read hSplit hHeader]
      constructor
      · rintro ⟨r, hr⟩ h p s j hParts hDecoded
        cases hParts
        rw [hHeader] at hDecoded
        cases hDecoded
        obtain ⟨b, hAlg, -⟩ := map_eq_ok.mp hr
        exact unsupportedAlg_returns.mp ⟨b, hAlg⟩
      · intro h
        obtain ⟨b, hAlg⟩ := unsupportedAlg_returns.mpr (h _ _ _ _ rfl hHeader)
        exact ⟨_, map_eq_ok.mpr ⟨b, hAlg, rfl⟩⟩

/-- Claims come from a signed token only. -/
theorem signed_of_verify (h : verifyHs256Jwt lib token secret = .ok (.ok claims)) :
    secret ≠ [] ∧ Signed lib token secret claims := by
  cases hSplit : splitJwt token with
  | none =>
    rw [verifyHs256Jwt, hSplit] at h
    cases h
  | some parts =>
    obtain ⟨headerB64, payloadB64, sigB64⟩ := parts
    cases hHeader : decodeJson lib headerB64 with
    | none => cases (verifyHs256Jwt_unread hSplit hHeader).symm.trans h
    | some header =>
      rw [verifyHs256Jwt_read hSplit hHeader] at h
      obtain ⟨unsupported, hAlg, hVerified⟩ := map_eq_ok.mp h
      cases unsupported with
      | true => cases hVerified
      | false =>
        obtain ⟨hSecret, hSig, hPayload⟩ := verifySigned_eq_ok.mp hVerified
        obtain ⟨hToken, hDots⟩ := splitJwt_eq_some.mp hSplit
        obtain ⟨hObject, hMember⟩ := supported_of hAlg
        refine ⟨hSecret, headerB64, payloadB64, sigB64, hToken, hDots.1, hDots.2, hSig, hPayload, ?_⟩
        cases header with
        | obj ms => exact ⟨ms, hHeader, hMember⟩
        | _ => cases hObject

/-- A token that is issued is accepted with its claims. -/
theorem verify_issued (hSecret : secret ≠ []) (hHeader : lib.parse (lib.dump jwtHeader) = some jwtHeader)
    (hClaims : lib.parse (lib.dump claims) = some claims) :
    ∃ token, issueHs256Jwt lib claims secret = some token ∧ verifyHs256Jwt lib token secret = .ok (.ok claims) := by
  refine ⟨_, if_neg hSecret, ?_⟩
  have hDecode {j : Json} (hj : lib.parse (lib.dump j) = some j) : decodeJson lib (urlEncode (lib.dump j)) = some j := by
    rw [decodeJson, urlDecode_urlEncode]
    exact hj
  rw [verifyHs256Jwt_read (splitJwt_eq_some.mpr ⟨rfl, dot_not_mem_urlEncode _, dot_not_mem_urlEncode _⟩) (hDecode hHeader)]
  exact congrArg Except.ok (verifySigned_eq_ok.mpr ⟨hSecret, urlDecode_urlEncode _, hDecode hClaims⟩)

end CyberAccountant.Security.Jwt
