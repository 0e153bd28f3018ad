import CyberAccountant.Security.Idempotency
import CyberAccountant.Security.Jwt
import Mathlib.Data.List.SplitBy

/-! The check of every request for a principal: who a JWT is for, and the advice that runs before the handlers.
Nothing in the advice catches what the reads of a token throw. -/

namespace CyberAccountant.Security.Auth

open CyberAccountant.Library CyberAccountant.Security.Base64 CyberAccountant.Security.Tokens CyberAccountant.Security.Jwt

inductive AuthMode where
  | none
  | bearer
  | jwt
  deriving DecidableEq

structure CookieConfig where
  enabled : Bool
  accessName : String

structure AuthConfig where
  mode : AuthMode
  bearerToken : Bytes
  jwtSecret : Bytes
  jwtIssuer : String
  jwtAudience : String
  jwtLeewaySec : Int
  jwtRolesClaim : String
  jwtScopesClaim : String
  publicPaths : List Bytes
  cookies : CookieConfig

structure AuthPrincipal where
  subject : String
  roles : List String
  scopes : List String
  org : String
  rawClaims : Json

/-! ### Claims -/

/-- What `>>` skips between words. -/
def isSpace (c : Char) : Bool := c = ' ' ∨ 9 ≤ c.toNat ∧ c.toNat ≤ 13

def words (text : String) : List String :=
  ((text.toList.splitOnP isSpace).filter (· ≠ [])).map String.ofList

def extractStringArray : Json → List String
  | .arr items => items.filterMap fun
    | .str text => some text
    | _ => none
  | .str text => words text
  | _ => []

def expired (claims : Json) (leeway now : Int) : Bool :=
  match Json.member claims.members "exp" with
  | some (.int exp) => wrap64 (wrap64 exp + leeway) < now
  | _ => false

def notYetValid (claims : Json) (leeway now : Int) : Bool :=
  match Json.member claims.members "nbf" with
  | some (.int nbf) => now + leeway < wrap64 nbf
  | _ => false

def isFor (claims : Json) (audience : String) : Bool :=
  match Json.member claims.members "aud" with
  | some (.str text) => text = audience
  | some (.arr items) => items.any fun
    | .str text => text = audience
    | _ => false
  | _ => false

/-- The names of a claim, if it is there. -/
def claimNames (claims : Json) (claim : String) : List String :=
  ((Json.member claims.members claim).map extractStringArray).getD []

/-- The principal of the claims, or the code of what is wrong with them. -/
def readPrincipal (cfg : AuthConfig) (claims : Json) (now : Int) : Except TypeError (Except String AuthPrincipal) := do
  if (← value claims "typ" "") = "refresh" then
    return .error "wrong_token_type"
  if expired claims cfg.jwtLeewaySec now then
    return .error "token_expired"
  if notYetValid claims cfg.jwtLeewaySec now then
    return .error "token_not_yet_valid"
  if cfg.jwtIssuer ≠ "" then
    if (← value claims "iss" "") ≠ cfg.jwtIssuer then
      return .error "bad_issuer"
  if cfg.jwtAudience ≠ "" ∧ ¬ isFor claims cfg.jwtAudience then
    return .error "bad_audience"
  let subject ← value claims "sub" ""
  let org ← value claims "org" ""
  return .ok {
    subject
    roles := claimNames claims cfg.jwtRolesClaim
    scopes := claimNames claims cfg.jwtScopesClaim
    org
    rawClaims := claims }

/-! ### Requests -/

/-- What the advice reads of a request.  A header or a cookie that is missing is empty. -/
structure Request where
  method : Idempotency.Method
  path : Bytes
  getHeader : String → Bytes
  getCookie : String → Bytes

/-- The rest of a header after its scheme, where there is one. -/
def afterScheme (scheme header : Bytes) : Option Bytes :=
  if scheme.length < header.length ∧ scheme <+: header then some (header.drop scheme.length) else none

def extractAccessToken (cookies : CookieConfig) (req : Request) : Bytes :=
  if cookies.enabled ∧ req.getCookie cookies.accessName ≠ [] then req.getCookie cookies.accessName
  else (afterScheme (ascii "Bearer ") (req.getHeader "Authorization")).getD []

/-- `kPrefix`, by which an API key is told from a JWT. -/
def keyPrefix : Bytes := ascii "cpk_"

def extractKey (req : Request) : Bytes :=
  if req.getHeader "X-API-Key" ≠ [] then req.getHeader "X-API-Key"
  else
    (["Bearer ", "ApiKey "].findSome? fun scheme =>
      (afterScheme (ascii scheme) (req.getHeader "Authorization")).filter fun key => keyPrefix <+: key).getD []

/-- An entry with `*` at its end is for every path that starts so. -/
def pathIsPublic (publicPaths : List Bytes) (path : Bytes) : Bool :=
  path ∈ publicPaths ∨ ∃ p ∈ publicPaths, p.getLast? = some 42 ∧ p.dropLast <+: path

inductive Advice where
  /-- The request goes on to its handler. -/
  | pass (principal : Option AuthPrincipal)
  | unauthorized (code : String)

section

variable (lib : Primitives)

def verifyJwt (cfg : AuthConfig) (token : Bytes) (now : Int) : Except TypeError (Except String AuthPrincipal) := do
  match ← verifyHs256Jwt lib token cfg.jwtSecret with
  | .error err => return .error err
  | .ok claims => readPrincipal cfg claims now

/-- The advice of `register_auth`, with the owners of the API keys by the hash of the key. -/
def registerAuth (cfg : AuthConfig) (authenticate : String → Option AuthPrincipal) (req : Request) (now : Int) :
    Except TypeError Advice := do
  if req.method = .options ∨ pathIsPublic cfg.publicPaths req.path then
    return .pass none
  match cfg.mode with
  | .none => return .pass none
  | .bearer =>
    if req.getHeader "Authorization" = ascii "Bearer " ++ cfg.bearerToken then
      return .pass none
    return .unauthorized "invalid_token"
  | .jwt =>
    if extractKey req ≠ [] then
      match authenticate (lib.sha256Hex (extractKey req)) with
      | none => return .unauthorized "invalid_api_key"
      | some principal => return .pass (some principal)
    let token := extractAccessToken cfg.cookies req
    if token = [] then
      return .unauthorized "missing_token"
    match ← verifyJwt lib cfg token now with
    | .error err => return .unauthorized err
    | .ok principal => return .pass (some principal)

end

/-! ### When the check throws -/

/-- Claims whose reads do not throw, whatever is configured. -/
def ClaimsReadable (claims : Json) : Prop :=
  claims.isObject ∧ ∀ key ∈ ["typ", "iss", "sub", "org"], IsText (Json.member claims.members key)

theorem readPrincipal_returns {cfg : AuthConfig} {claims : Json} {now : Int} (h : ClaimsReadable claims) :
    ∃ r, readPrincipal cfg claims now = .ok r := by
  have hRead (key : String) (hKey : key ∈ ["typ", "iss", "sub", "org"]) : ∃ text, value claims key "" = .ok text :=
    value_returns.mpr ⟨h.1, h.2 key hKey⟩
  obtain ⟨typ, hTyp⟩ := hRead "typ" (by simp)
  obtain ⟨iss, hIss⟩ := hRead "iss" (by simp)
  obtain ⟨sub, hSub⟩ := hRead "sub" (by simp)
  obtain ⟨org, hOrg⟩ := hRead "org" (by simp)
  simp only [readPrincipal, hTyp, hIss, hSub, hOrg, bind, Except.bind, pure, Except.pure]
  repeat' split
  all_goals exact ⟨_, rfl⟩

variable {lib : Primitives} {cfg : AuthConfig} {authenticate : String → Option AuthPrincipal} {req : Request}
  {now : Int}

/-- A token is verified or refused unless its header is read with an exception. -/
theorem verifyJwt_returns {token : Bytes}
    (hClaims : ∀ claims, Signed lib token cfg.jwtSecret claims → ClaimsReadable claims) :
    (∃ r, verifyJwt lib cfg token now = .ok r) ↔ HeaderReadable lib token := by
  rw [← @verifyHs256Jwt_returns lib token cfg.jwtSecret, verifyJwt]
  cases hVerify : verifyHs256Jwt lib token cfg.jwtSecret with
  | error e =>
    refine iff_of_false ?_ ?_
    · rintro ⟨r, hr⟩
      cases hr
    · rintro ⟨r, hr⟩
      cases hr
  | ok outcome =>
    refine iff_of_true ?_ ⟨outcome, rfl⟩
    cases outcome with
    | error err => exact ⟨.error err, rfl⟩
    | ok claims => exact readPrincipal_returns (hClaims claims (signed_of_verify hVerify).2)

/-- The requests whose token is verified, if they have one. -/
def ReadsToken (cfg : AuthConfig) (req : Request) : Prop :=
  req.method ≠ .options ∧ pathIsPublic cfg.publicPaths req.path = false ∧ cfg.mode = .jwt ∧ extractKey req = []

theorem registerAuth_read (h : ReadsToken cfg req) :
    registerAuth lib cfg authenticate req now =
      if extractAccessToken cfg.cookies req = [] then .ok (.unauthorized "missing_token")
      else (verifyJwt lib cfg (extractAccessToken cfg.cookies req) now).map fun
        | .error err => .unauthorized err
        | .ok principal => .pass (some principal) := by
  obtain ⟨hMethod, hPath, hMode, hKey⟩ := h
  simp only [registerAuth, hMethod, hPath, hMode, hKey, false_or, Bool.false_eq_true, if_false, ne_eq, not_true_eq_false]
  split
  · rfl
  · cases verifyJwt lib cfg (extractAccessToken cfg.cookies req) now with
    | error e => rfl
    | ok outcome => cases outcome <;> rfl

theorem registerAuth_unread (h : ¬ ReadsToken cfg req) :
    ∃ advice, registerAuth lib cfg authenticate req now = .ok advice := by
  unfold registerAuth
  by_cases hOpen : req.method = .options ∨ pathIsPublic cfg.publicPaths req.path
  · exact ⟨_, if_pos hOpen⟩
  · rw [if_neg hOpen]
    rw [not_or, Bool.not_eq_true] at hOpen
    cases hMode : cfg.mode with
    | none => exact ⟨_, rfl⟩
    | bearer =>
      by_cases hToken : req.getHeader "Authorization" = ascii "Bearer " ++ cfg.bearerToken
      · exact ⟨_, if_pos hToken⟩
      · exact ⟨_, if_neg hToken⟩
    | jwt =>
      have hKey : extractKey req ≠ [] := fun hNone => h ⟨hOpen.1, hOpen.2, hMode, hNone⟩
      simp only [hKey, ne_eq, not_false_eq_true, if_true]
      cases authenticate (lib.sha256Hex (extractKey req)) <;> exact ⟨_, rfl⟩

theorem headerReadable_nil : HeaderReadable lib [] := nofun

theorem registerAuth_returns
    (hClaims : ∀ claims, Signed lib (extractAccessToken cfg.cookies req) cfg.jwtSecret claims → ClaimsReadable claims) :
    (∃ advice, registerAuth lib cfg authenticate req now = .ok advice) ↔
      (ReadsToken cfg req → HeaderReadable lib (extractAccessToken cfg.cookies req)) := by
  by_cases hReads : ReadsToken cfg req
  · rw [registerAuth_read hReads, forall_prop_of_true hReads]
    by_cases hToken : extractAccessToken cfg.cookies req = []
    · rw [if_pos hToken, hToken]
      exact iff_of_true ⟨_, rfl⟩ headerReadable_nil
    · rw [if_neg hToken, ← verifyJwt_returns hClaims]
      constructor
      · rintro ⟨advice, hAdvice⟩
        obtain ⟨r, hr, -⟩ := map_eq_ok.mp hAdvice
        exact ⟨r, hr⟩
      · rintro ⟨r, hr⟩
        exact ⟨_, map_eq_ok.mpr ⟨r, hr, rfl⟩⟩
  · exact iff_of_true (registerAuth_unread hReads) fun h => absurd h hReads

/-- The verifier returns exactly where the header of the token is readable, claims come from signed tokens only, a
token that is issued gives its claims back, and the check of a request throws for no other reason than the header. -/
theorem jwt_verified_iff (lib : Primitives) :
    (∀ token secret, (∃ r, verifyHs256Jwt lib token secret = .ok r) ↔ HeaderReadable lib token) ∧
    (∀ token secret claims, verifyHs256Jwt lib token secret = .ok (.ok claims) → Signed lib token secret claims) ∧
    (∀ claims secret, secret ≠ [] → lib.parse (lib.dump jwtHeader) = some jwtHeader →
      lib.parse (lib.dump claims) = some claims →
      ∃ token, issueHs256Jwt lib claims secret = some token ∧ verifyHs256Jwt lib token secret = .ok (.ok claims)) ∧
    ∀ cfg authenticate req now,
      (∀ claims, Signed lib (extractAccessToken cfg.cookies req) cfg.jwtSecret claims → ClaimsReadable claims) →
      ((∃ advice, registerAuth lib cfg authenticate req now = .ok advice) ↔
        (ReadsToken cfg req → HeaderReadable lib (extractAccessToken cfg.cookies req))) :=
  ⟨fun _ _ => verifyHs256Jwt_returns, fun _ _ _ h => (signed_of_verify h).2,
    fun _ _ hSecret hHeader hClaims => verify_issued hSecret hHeader hClaims, fun _ _ _ _ => registerAuth_returns⟩

def accessSecret : Bytes := ascii "0123456789abcdef0123456789abcdef"

def accessClaims : Json := .obj [("exp", .int 1700003600), ("sub", .str "7")]

/-- The base64url text of an empty array in the place of the header. -/
def arrayToken : Bytes := ascii "W10.."

/-- The functions at the texts of a token for the claims and at those of the token with the array. -/
def accessPrimitives : Primitives where
  hmacSha256 _ text :=
    if text = ascii "W10." then
      [67, 85, 235, 97, 162, 156, 245, 34, 9, 228, 108, 208, 216, 34, 59, 140, 206, 141, 161, 229, 22, 109, 226, 15, 246,
        38, 206, 30, 82, 85, 203, 134]
    else
      [65, 165, 132, 178, 191, 125, 51, 154, 60, 27, 54, 102, 138, 143, 223, 100, 220, 13, 210, 32, 13, 12, 139, 40, 4, 155,
        126, 153, 228, 200, 137, 58]
  sha256Hex _ := ""
  parse text :=
    if text = ascii "[]" then some (.arr [])
    else if text = ascii "\x7b\"alg\":\"HS256\",\"typ\":\"JWT\"\x7d" then some jwtHeader
    else if text = ascii "\x7b\"exp\":1700003600,\"sub\":\"7\"\x7d" then some accessClaims
    else none
  dump j :=
    if (Json.member j.members "alg").isSome then ascii "\x7b\"alg\":\"HS256\",\"typ\":\"JWT\"\x7d"
    else ascii "\x7b\"exp\":1700003600,\"sub\":\"7\"\x7d"

def accessConfig : AuthConfig where
  mode := .jwt
  bearerToken := []
  jwtSecret := accessSecret
  jwtIssuer := ""
  jwtAudience := ""
  jwtLeewaySec := 30
  jwtRolesClaim := "roles"
  jwtScopesClaim := "scope"
  publicPaths := [ascii "/healthz", ascii "/api/v1/account/confirm/*"]
  cookies := ⟨false, "__Host-access"⟩

/-- A request for the caller's own account with a token in its header. -/
def requestWith (token : Bytes) : Request where
  method := .get
  path := ascii "/api/v1/auth/me"
  getHeader name := if name = "Authorization" then ascii "Bearer " ++ token else []
  getCookie _ := []

theorem arrayToken_unsigned (claims : Json) :
    ¬ Signed accessPrimitives (extractAccessToken accessConfig.cookies (requestWith arrayToken)) accessSecret claims := by
  rintro ⟨header, payload, sig, hToken, hHeader, hPayload, hSig, -⟩
  have hSplit : splitJwt arrayToken = some (ascii "W10", [], []) := by decide
  have hParts := splitJwt_eq_some.mpr ⟨hToken, hHeader, hPayload⟩
  have hExtracted : extractAccessToken accessConfig.cookies (requestWith arrayToken) = arrayToken := by decide
  rw [hExtracted, hSplit] at hParts
  cases hParts
  have hNone : (urlDecode []).toOption ≠
      some (accessPrimitives.hmacSha256 accessSecret (signingInput (ascii "W10") [])) := by
    decide
  exact hNone (congrArg Except.toOption hSig)

theorem jwt_verified_access :
    (∃ token, issueHs256Jwt accessPrimitives accessClaims accessSecret = some token ∧
      verifyHs256Jwt accessPrimitives token accessSecret = .ok (.ok accessClaims)) ∧
    ((∃ advice, registerAuth accessPrimitives accessConfig (fun _ => none) (requestWith arrayToken) 1700000000 = .ok advice) ↔
      (ReadsToken accessConfig (requestWith arrayToken) →
        HeaderReadable accessPrimitives (extractAccessToken accessConfig.cookies (requestWith arrayToken)))) :=
  ⟨(jwt_verified_iff accessPrimitives).2.2.1 accessClaims accessSecret (by decide) rfl rfl,
    (jwt_verified_iff accessPrimitives).2.2.2 accessConfig (fun _ => none) (requestWith arrayToken) 1700000000
      fun claims hSigned => absurd hSigned (arrayToken_unsigned claims)⟩

/-- A header that is an empty array makes the verifier throw, and with it the check of the request. -/
theorem array_header_throws :
    verifyHs256Jwt accessPrimitives arrayToken accessSecret = .error .notObject ∧
      registerAuth accessPrimitives accessConfig (fun _ => none) (requestWith arrayToken) 1700000000 = .error .notObject :=
  ⟨rfl, rfl⟩

end CyberAccountant.Security.Auth
