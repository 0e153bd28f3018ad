import CyberAccountant.Library.Json
import CyberAccountant.Library.Word64
import CyberAccountant.Security.Base64
import Mathlib.Data.List.TakeWhile

/-! The links that are sent by e-mail: a payload and its HMAC, each in base64url, for one purpose and for some
time.  The HMAC is that of the text of the payload. -/

namespace CyberAccountant.Security.Tokens

open CyberAccountant.Library CyberAccountant.Security.Base64

inductive Purpose where
  | confirm
  | resetPassword
  | changeEmail
  | invite
  | preview
  deriving DecidableEq

def purposeString : Purpose → String
  | .confirm => "confirm"
  | .resetPassword => "reset"
  | .changeEmail => "change_email"
  | .invite => "invite"
  | .preview => "preview"

/-- What OpenSSL and the JSON library compute. -/
structure Primitives where
  hmacSha256 : Bytes → Bytes → Bytes
  sha256Hex : Bytes → String
  parse : Bytes → Option Json
  dump : Json → Bytes

section

variable (lib : Primitives)

def deriveKey (master : Bytes) (p : Purpose) : Bytes := lib.hmacSha256 master (ascii ("tokens:" ++ purposeString p))

/-- The claims of a link; extra claims replace those of the same name. -/
def payload (sub : String) (purpose : Purpose) (ttl : Int) (extra : Json) (now : Int) : Json :=
  .obj (extra.members.foldl (fun ms m => Json.setMember ms m.1 m.2)
    [("exp", .int (now + ttl)), ("iat", .int now), ("purpose", .str (purposeString purpose)), ("sub", .str sub)])

/-- The dot between the payload and the signature. -/
def dot : UInt8 := 46

/-- A payload with its signature. -/
def signed (master : Bytes) (purpose : Purpose) (claims : Json) : Bytes :=
  let payloadB64 := urlEncode (lib.dump claims)
  payloadB64 ++ dot :: urlEncode (lib.hmacSha256 (deriveKey lib master purpose) payloadB64)

/-- The text of a link; without a secret there is none. -/
def issue (master : Bytes) (sub : String) (purpose : Purpose) (ttl : Int) (extra : Json) (now : Int) : Option Bytes :=
  if master = [] then none else some (signed lib master purpose (payload sub purpose ttl extra now))

/-- The text of the payload and that of the signature. -/
def splitToken (token : Bytes) : Option (Bytes × Bytes) :=
  if dot ∈ token then some (token.takeWhile (· ≠ dot), (token.dropWhile (· ≠ dot)).tail) else none

structure VerifyResult where
  sub : String
  extra : Json

def reserved : List String := ["sub", "purpose", "iat", "exp"]

/-- The claims of a payload, if they are for the purpose and not out of date. -/
def readClaims (claims : Json) (expectedPurpose : Purpose) (now : Int) : Except String VerifyResult :=
  match Json.member claims.members "purpose" with
  | some (.str p) =>
    if p ≠ purposeString expectedPurpose then .error "wrong_purpose"
    else
      match Json.member claims.members "exp" with
      | some (.int exp) =>
        if wrap64 exp < now then .error "expired"
        else
          match Json.member claims.members "sub" with
          | some (.str sub) => .ok ⟨sub, .obj (claims.members.filter fun m => m.1 ∉ reserved)⟩
          | _ => .error "no_sub"
      | _ => .error "no_exp"
  | _ => .error "wrong_purpose"

def verify (master token : Bytes) (expectedPurpose : Purpose) (now : Int) : Except String VerifyResult :=
  if master = [] then .error "no_secret"
  else
    match splitToken token with
    | none => .error "malformed"
    | some (payloadB64, sigB64) =>
      match urlDecode sigB64, urlDecode payloadB64 with
      | .ok actualSig, .ok payloadRaw =>
        if lib.hmacSha256 (deriveKey lib master expectedPurpose) payloadB64 ≠ actualSig then .error "invalid_signature"
        else
          match lib.parse payloadRaw with
          | none => .error "malformed"
          | some claims => readClaims claims expectedPurpose now
      | _, _ => .error "malformed"

/-! ### What is accepted -/

variable {lib} {master token : Bytes} {purpose : Purpose} {now : Int}

theorem splitToken_append {text : Bytes} (hText : dot ∉ text) (sig : Bytes) :
    splitToken (text ++ dot :: sig) = some (text, sig) := by
  have hNe : ∀ c ∈ text, decide (c ≠ dot) = true := fun c hc => decide_eq_true fun hEq => hText (hEq ▸ hc)
  rw [splitToken, if_pos (by simp), List.takeWhile_append_of_pos hNe, List.dropWhile_append_of_pos hNe]
  simp

theorem splitToken_eq_some {text sig : Bytes} :
    splitToken token = some (text, sig) ↔ token = text ++ dot :: sig ∧ dot ∉ text := by
  constructor
  · intro h
    unfold splitToken at h
    split at h
    · rename_i hDot
      cases h
      have hText : dot ∉ token.takeWhile (· ≠ dot) := fun hMem => by
        have hNe := List.mem_takeWhile_imp hMem
        simp at hNe
      refine ⟨?_, hText⟩
      have hParts := List.takeWhile_append_dropWhile (p := (· ≠ dot)) (l := token)
      cases hRest : token.dropWhile (· ≠ dot) with
      | nil =>
        rw [hRest, List.append_nil] at hParts
        exact absurd (hParts.symm ▸ hDot) hText
      | cons c rest =>
        have hHead := List.head?_dropWhile_not (· ≠ dot) token
        rw [hRest] at hHead hParts
        have hEq : c = dot := by simpa using hHead
        rw [hEq] at hParts
        exact hParts.symm
    · cases h
  · rintro ⟨rfl, hText⟩
    exact splitToken_append hText sig

/-- A token that is accepted has a signature that is the HMAC of the text of its payload. -/
theorem verify_signature {r : VerifyResult} (h : verify lib master token purpose now = .ok r) :
    ∃ text sig, token = text ++ dot :: sig ∧ splitToken token = some (text, sig) ∧
      urlDecode sig = .ok (lib.hmacSha256 (deriveKey lib master purpose) text) := by
  unfold verify at h
  split at h
  · cases h
  · split at h
    · cases h
    · rename_i text sig hSplit
      split at h
      · rename_i actual raw hSig hPayload
        split at h
        · cases h
        · rename_i hSame
          refine ⟨text, sig, (splitToken_eq_some.mp hSplit).1, hSplit, ?_⟩
          rw [hSig, not_not.mp hSame]
      · cases h

theorem charOf_ne_dot : ∀ d < 64, charOf d ≠ dot := by decide

theorem dot_not_mem_urlEncode (bytes : Bytes) : dot ∉ urlEncode bytes := by
  rw [urlEncode_eq, List.mem_map]
  rintro ⟨d, hd, hDot⟩
  exact charOf_ne_dot d (Radix64.toDigits_lt (toNat_map_lt bytes) d hd) hDot

/-- A link is accepted for its purpose until it is out of date. -/
theorem verify_signed {claims : Json} (hMaster : master ≠ []) (hParse : lib.parse (lib.dump claims) = some claims)
    {sig : Bytes}
    (hSig : strip sig =
      urlEncode (lib.hmacSha256 (deriveKey lib master purpose) (urlEncode (lib.dump claims)))) :
    verify lib master (urlEncode (lib.dump claims) ++ dot :: sig) purpose now = readClaims claims purpose now := by
  rw [verify, if_neg hMaster, splitToken_append (dot_not_mem_urlEncode _)]
  simp only [urlDecode_eq_ok.mpr hSig, urlDecode_urlEncode, hParse, ne_eq, not_true_eq_false, if_false]

end

end CyberAccountant.Security.Tokens
