import CyberAccountant.Library.Repair
import CyberAccountant.Library.Rows
import CyberAccountant.Security.Tokens

/-! Links that set a password or change an e-mail address.  A link is verified by what its text decodes to and
used up by the hash of the text itself, so that it works once as long as nobody presents it in two spellings. -/

namespace CyberAccountant.Security.Tokens

open CyberAccountant.Library CyberAccountant.Library.Program CyberAccountant.Security.Base64

/-! ### The requests -/

/-- A request with the text of a link; `newHash` is that of the new password, where the body is in order. -/
inductive LinkRequest where
  | reset (token : Bytes) (newHash : Option String)
  | changeEmail (token : Bytes)

namespace LinkRequest

def token : LinkRequest → Bytes
  | .reset token _ => token
  | .changeEmail token => token

def purpose : LinkRequest → Purpose
  | .reset _ _ => .resetPassword
  | .changeEmail _ => .changeEmail

/-- The body of the request is in order. -/
def BodyOk : LinkRequest → Prop
  | .reset _ newHash => newHash.isSome
  | .changeEmail _ => True

end LinkRequest

/-- How a request is answered. -/
inductive LinkAnswer where
  | invalidBody
  | badRequest (code message : String)
  | conflict (code message : String)
  | ok (message : String)
  | notFound (resource : String)
  | internalError

structure UserRow where
  id : String
  email : String
  passwordHash : Option String

/-- The database answers, is down, or is lost between a commit and the answer. -/
inductive Database where
  | up
  | down
  | lost
  deriving DecidableEq

structure LinkState where
  now : Int
  database : Database
  users : List UserRow
  /-- The hashes in `used_tokens`. -/
  used : List String
  /-- The texts that have been verified and used up, which no table holds. -/
  passed : List Bytes

inductive LinkCommand where
  | nowEpochSeconds
  | findByEmail (email : String)
  | consumeOnce (token : Bytes)
  | updatePasswordHash (sub newHash : String)
  | revokeAll (sub : String)
  | changeEmail (sub newEmail : String)

/-- How a write of a row of `users` ends. -/
inductive UserWrite where
  | written
  | userNotFound
  | duplicateEmail
  | failed

/-- A read that throws has no value. -/
@[reducible] def LinkCommand.Reply : LinkCommand → Type
  | .nowEpochSeconds => Int
  | .findByEmail _ => Option (Option UserRow)
  | .consumeOnce _ => Bool
  | .updatePasswordHash _ _ | .changeEmail _ _ => UserWrite
  | .revokeAll _ => Unit

abbrev LinkM (α : Type) : Type := Program LinkCommand LinkCommand.Reply α

def link (c : LinkCommand) : LinkM c.Reply := perform c

/-- The answer once a row of `users` has been written. -/
def answerWrite (message : String) : UserWrite → LinkAnswer
  | .written => .ok message
  | .userNotFound => .notFound "user"
  | .duplicateEmail => .conflict "email_taken" "Email is already registered"
  | .failed => .internalError

section

variable (lib : Primitives) (master : Bytes)

def applyReset (token : Bytes) (newHash : Option String) : LinkM LinkAnswer :=
  match newHash with
  | none => pure .invalidBody
  | some newHash => do
    match verify lib master token .resetPassword (← link .nowEpochSeconds) with
    | .error _ => pure (.badRequest "invalid_token" "Reset link is invalid or has expired")
    | .ok vr => do
      if ← link (.consumeOnce token) then do
        match ← link (.updatePasswordHash vr.sub newHash) with
        | .written => do
          link (.revokeAll vr.sub)
          pure (.ok "Password updated")
        | refused => pure (answerWrite "Password updated" refused)
      else pure (.badRequest "invalid_token" "Reset link has already been used")

def applyChangeEmail (token : Bytes) : LinkM LinkAnswer := do
  match verify lib master token .changeEmail (← link .nowEpochSeconds) with
  | .error _ => pure (.badRequest "invalid_token" "Change-email link is invalid or has expired")
  | .ok vr =>
    match Json.member vr.extra.members "new_email" with
    | some (.str newEmail) => do
      match ← link (.findByEmail newEmail) with
      | none => pure .internalError
      | some taken => do
        if taken.any (·.id ≠ vr.sub) then
          pure (.conflict "email_taken" "That email address is already in use")
        else if ← link (.consumeOnce token) then
          answerWrite "Email updated" <$> link (.changeEmail vr.sub newEmail)
        else pure (.badRequest "invalid_token" "Change-email link has already been used")
    | _ => pure (.badRequest "invalid_token" "Token is missing the new email")

def LinkRequest.serve : LinkRequest → LinkM LinkAnswer
  | .reset token newHash => applyReset lib master token newHash
  | .changeEmail token => applyChangeEmail lib master token

/-- `INSERT INTO used_tokens … ON CONFLICT DO NOTHING RETURNING`. -/
def LinkState.consumeOnce (s : LinkState) (token : Bytes) : Bool × LinkState :=
  match s.database with
  | .down => (false, s)
  | .lost => (false, { s with used := lib.sha256Hex token :: s.used })
  | .up =>
    if lib.sha256Hex token ∈ s.used then (false, s)
    else (true, { s with used := lib.sha256Hex token :: s.used, passed := token :: s.passed })

/-- `UPDATE users SET … WHERE id`, which fails where the new row would have the address of another one. -/
def LinkState.updateUser (s : LinkState) (sub : String) (f : UserRow → UserRow) : UserWrite × LinkState :=
  if s.database = .up then
    match rowOf UserRow.id s.users sub with
    | none => (.userNotFound, s)
    | some row =>
      if s.users.any fun other => other.id ≠ sub ∧ other.email = (f row).email then (.duplicateEmail, s)
      else (.written, { s with users := changeRow UserRow.id s.users sub f })
  else (.failed, s)

def execLink : (c : LinkCommand) → LinkState → c.Reply × LinkState
  | .nowEpochSeconds, s => (s.now, s)
  | .findByEmail email, s =>
    (if s.database = .up then some (s.users.find? fun row => row.email = email) else none, s)
  | .consumeOnce token, s => s.consumeOnce lib token
  | .updatePasswordHash sub newHash, s => s.updateUser sub fun row => { row with passwordHash := some newHash }
  | .revokeAll _, s => ((), s)
  | .changeEmail sub newEmail, s => s.updateUser sub fun row => { row with email := newEmail }

/-- Time passes, the database goes down and up, and others write; the rows of `used_tokens` are kept. -/
def LinkEnv (s s' : LinkState) : Prop := (∀ hash ∈ s.used, hash ∈ s'.used) ∧ s'.passed = s.passed

/-- A step of the requests among `requests`, any number of which are served at once. -/
abbrev LinkStep (requests : LinkRequest → Prop) :
    System LinkRequest LinkCommand LinkCommand.Reply LinkState →
      System LinkRequest LinkCommand LinkCommand.Reply LinkState → Prop :=
  SystemStep (execLink lib) (fun r program => requests r ∧ program = (fun _ => ()) <$> r.serve lib master)
    (fun _ _ _ => True) LinkEnv

end

/-! ### One spelling of a link -/

section

variable (lib : Primitives) (master : Bytes)

/-- The HMAC is not forged: the requests carry no text of a payload with its signature but that of the link, for its
purpose. -/
def Unforged (linkText : Bytes) (purpose : Purpose) (requests : LinkRequest → Prop) : Prop :=
  ∀ r, requests r → ∀ text sig, splitToken r.token = some (text, sig) →
    urlDecode sig = .ok (lib.hmacSha256 (deriveKey lib master r.purpose) text) →
      r.purpose = purpose ∧ ∃ sig', splitToken linkText = some (text, sig')

/-- A text without what the decoder skips in its signature. -/
def reduce (token : Bytes) : Bytes :=
  match splitToken token with
  | none => token
  | some (text, sig) => text ++ dot :: strip sig

/-- The request carries the link in one of its spellings, with a body that is in order. -/
def Carries (linkText : Bytes) (purpose : Purpose) (r : LinkRequest) : Prop :=
  r.purpose = purpose ∧ r.BodyOk ∧ reduce r.token = linkText

/-- A request uses up only what has been verified. -/
def VerifiedCall (r : LinkRequest) : LinkCommand → Prop
  | .consumeOnce token => token = r.token ∧ r.BodyOk ∧ ∃ now vr, verify lib master token r.purpose now = .ok vr
  | _ => True

variable {lib master}

theorem calls_link {r : LinkRequest} {c : LinkCommand} (h : VerifiedCall lib master r c) {f : c.Reply → LinkM α}
    (hf : ∀ reply, (f reply).Calls (VerifiedCall lib master r)) : (link c >>= f).Calls (VerifiedCall lib master r) :=
  ⟨h, hf⟩

theorem applyReset_calls (token : Bytes) (newHash : Option String) :
    (applyReset lib master token newHash).Calls (VerifiedCall lib master (.reset token newHash)) := by
  cases newHash with
  | none => trivial
  | some newHash =>
    unfold applyReset
    refine calls_link (c := .nowEpochSeconds) trivial fun now => ?_
    cases hVerify : verify lib master token .resetPassword now with
    | error e => trivial
    | ok vr =>
      have hVerified : VerifiedCall lib master (.reset token (some newHash)) (.consumeOnce token) :=
        ⟨rfl, rfl, now, vr, hVerify⟩
      refine calls_link (c := .consumeOnce token) hVerified fun first => ?_
      cases first with
      | false => trivial
      | true =>
        refine calls_link (c := .updatePasswordHash vr.sub newHash) trivial fun reply => ?_
        cases reply with
        | written => exact calls_link (c := .revokeAll vr.sub) trivial fun _ => trivial
        | userNotFound | duplicateEmail | failed => trivial

theorem applyChangeEmail_calls (token : Bytes) :
    (applyChangeEmail lib master token).Calls (VerifiedCall lib master (.changeEmail token)) := by
  unfold applyChangeEmail
  refine calls_link (c := .nowEpochSeconds) trivial fun now => ?_
  cases hVerify : verify lib master token .changeEmail now with
  | error e => trivial
  | ok vr =>
    have hVerified : VerifiedCall lib master (.changeEmail token) (.consumeOnce token) :=
      ⟨rfl, trivial, now, vr, hVerify⟩
    dsimp only
    split
    · rename_i newEmail hEmail
      refine calls_link (c := .findByEmail newEmail) trivial fun taken => ?_
      cases taken with
      | none => trivial
      | some taken =>
        dsimp only
        split
        · trivial
        · refine calls_link (c := .consumeOnce token) hVerified fun first => ?_
          cases first with
          | false => trivial
          | true => exact calls_link (c := .changeEmail vr.sub newEmail) trivial fun _ => trivial
    · trivial

theorem serve_calls (r : LinkRequest) : (r.serve lib master).Calls (VerifiedCall lib master r) := by
  cases r with
  | reset token newHash => exact applyReset_calls token newHash
  | changeEmail token => exact applyChangeEmail_calls token

variable {linkText : Bytes} {purpose : Purpose} {requests : LinkRequest → Prop} {s s' : LinkState}

/-- A request that has been verified carries the link. -/
theorem carries_of_verified (hUnforged : Unforged lib master linkText purpose requests) {sub : String} {ttl issued : Int}
    {extra : Json} (hIssued : issue lib master sub purpose ttl extra issued = some linkText) {r : LinkRequest}
    (hRequest : requests r) (hBody : r.BodyOk) {now : Int} {vr : VerifyResult}
    (hVerify : verify lib master r.token r.purpose now = .ok vr) : Carries linkText purpose r := by
  obtain ⟨text, sig, -, hSplit, hSig⟩ := verify_signature hVerify
  obtain ⟨hPurpose, sig', hLink⟩ := hUnforged r hRequest text sig hSplit hSig
  refine ⟨hPurpose, hBody, ?_⟩
  unfold issue at hIssued
  split at hIssued
  · cases hIssued
  · cases hIssued
    rw [signed, splitToken_append (dot_not_mem_urlEncode _)] at hLink
    cases hLink
    rw [reduce, hSplit]
    dsimp only
    rw [urlDecode_eq_ok.mp hSig, signed, ← hPurpose]

/-- What has passed carries the link, has been used up, and is one text. -/
structure PassedOk (lib : Primitives) (linkText : Bytes) (purpose : Purpose) (requests : LinkRequest → Prop)
    (s : LinkState) : Prop where
  carried : ∀ token ∈ s.passed, ∃ r, requests r ∧ r.token = token ∧ Carries linkText purpose r
  used : ∀ token ∈ s.passed, lib.sha256Hex token ∈ s.used
  once : s.passed.length ≤ 1

/-- Where nothing more has passed and nothing is forgotten. -/
theorem PassedOk.kept (h : PassedOk lib linkText purpose requests s) (hPassed : s'.passed = s.passed)
    (hUsed : ∀ hash ∈ s.used, hash ∈ s'.used) : PassedOk lib linkText purpose requests s' where
  carried token hToken := h.carried token (hPassed ▸ hToken)
  used token hToken := hUsed _ (h.used token (hPassed ▸ hToken))
  once := hPassed ▸ h.once

/-- A link that is carried in one spelling is used up once. -/
theorem PassedOk.consumeOnce (h : PassedOk lib linkText purpose requests s)
    (hOne : ∀ r r', requests r → requests r' → Carries linkText purpose r → Carries linkText purpose r' →
      r.token = r'.token) {r : LinkRequest} (hRequest : requests r) (hCarries : Carries linkText purpose r) :
    PassedOk lib linkText purpose requests (s.consumeOnce lib r.token).2 := by
  unfold LinkState.consumeOnce
  split
  · exact h
  · exact h.kept rfl fun hash hHash => List.mem_cons_of_mem _ hHash
  · split
    · exact h
    · rename_i hUnused
      -- Whatever has passed before has the same text, and so the same hash.
      have hNone : s.passed = [] := List.eq_nil_iff_forall_not_mem.mpr fun token hToken => by
        obtain ⟨r', hRequest', rfl, hCarries'⟩ := h.carried token hToken
        apply hUnused
        rw [hOne r r' hRequest hRequest' hCarries hCarries']
        exact h.used _ hToken
      rw [hNone]
      refine ⟨fun token hToken => ?_, fun token hToken => ?_, le_refl 1⟩
      · rw [List.mem_singleton.mp hToken]
        exact ⟨r, hRequest, rfl, hCarries⟩
      · rw [List.mem_singleton.mp hToken]
        exact List.mem_cons_self

theorem updateUser_kept (sub : String) (f : UserRow → UserRow) :
    (s.updateUser sub f).2.passed = s.passed ∧ (s.updateUser sub f).2.used = s.used := by
  unfold LinkState.updateUser
  split
  · split
    · exact ⟨rfl, rfl⟩
    · split <;> exact ⟨rfl, rfl⟩
  · exact ⟨rfl, rfl⟩

/-- A request uses up no text but its own. -/
theorem execLink_kept (c : LinkCommand) (hc : ∀ token, c ≠ .consumeOnce token) :
    (execLink lib c s).2.passed = s.passed ∧ (execLink lib c s).2.used = s.used := by
  cases c with
  | consumeOnce token => exact absurd rfl (hc token)
  | updatePasswordHash sub newHash => exact updateUser_kept sub _
  | changeEmail sub newEmail => exact updateUser_kept sub _
  | nowEpochSeconds | findByEmail email | revokeAll sub => exact ⟨rfl, rfl⟩

end

/-- The requests under way call nothing that their tokens do not verify for, and one of them at most has passed. -/
structure LinkOk (lib : Primitives) (master linkText : Bytes) (purpose : Purpose) (requests : LinkRequest → Prop)
    (w : System LinkRequest LinkCommand LinkCommand.Reply LinkState) : Prop where
  calls : w.Calls fun r c => requests r ∧ VerifiedCall lib master r c
  passed : PassedOk lib linkText purpose requests w.state

theorem LinkOk.step {lib : Primitives} {master linkText : Bytes} {sub : String} {purpose : Purpose} {ttl issued : Int}
    {extra : Json} (hIssued : issue lib master sub purpose ttl extra issued = some linkText)
    {requests : LinkRequest → Prop} (hUnforged : Unforged lib master linkText purpose requests)
    (hOne : ∀ r r', requests r → requests r' → Carries linkText purpose r → Carries linkText purpose r' →
      r.token = r'.token)
    {w w' : System LinkRequest LinkCommand LinkCommand.Reply LinkState}
    (hOk : LinkOk lib master linkText purpose requests w) (hStep : LinkStep lib master requests w w') :
    LinkOk lib master linkText purpose requests w' := by
  have hStarts : ∀ r program, (requests r ∧ program = (fun _ => ()) <$> r.serve lib master) →
      program.Calls fun c => requests r ∧ VerifiedCall lib master r c := by
    rintro r program ⟨hRequest, rfl⟩
    exact ((serve_calls r).map _).mono fun c hc => ⟨hRequest, hc⟩
  obtain ⟨hCalls, hState⟩ := hOk.calls.step hStarts hStep
  refine ⟨hCalls, ?_⟩
  rcases hState with hSame | ⟨r, c, ⟨hRequest, hVerified⟩, -, hNext⟩ | ⟨hUsed, hPassed⟩
  · rw [hSame]
    exact hOk.passed
  · rw [hNext]
    by_cases hConsumes : ∃ token, c = .consumeOnce token
    · obtain ⟨token, rfl⟩ := hConsumes
      obtain ⟨rfl, hBody, now, vr, hVerify⟩ := hVerified
      exact hOk.passed.consumeOnce hOne hRequest (carries_of_verified hUnforged hIssued hRequest hBody hVerify)
    · obtain ⟨hPassed, hUsed⟩ : (execLink lib c w.state).2.passed = w.state.passed ∧
          (execLink lib c w.state).2.used = w.state.used :=
        execLink_kept c fun token hEq => hConsumes ⟨token, hEq⟩
      exact hOk.passed.kept hPassed fun hash hHash => hUsed.symm ▸ hHash
  · exact hOk.passed.kept hPassed hUsed

/-- However many requests carry a link, in whatever order their steps come, at most one of them passes, as long as
all that carry it have it in one spelling. -/
theorem link_one_shot {lib : Primitives} {master : Bytes} {sub : String} {purpose : Purpose} {ttl issued : Int}
    {extra : Json} {linkText : Bytes} (hIssued : issue lib master sub purpose ttl extra issued = some linkText)
    {requests : LinkRequest → Prop} (hUnforged : Unforged lib master linkText purpose requests)
    (hOne : ∀ r r', requests r → requests r' → Carries linkText purpose r → Carries linkText purpose r' →
      r.token = r'.token)
    {s : LinkState} {w : System LinkRequest LinkCommand LinkCommand.Reply LinkState}
    (hRun : Run (LinkStep lib master requests) ⟨{ s with passed := [] }, Table.empty⟩ w) :
    w.state.passed.length ≤ 1 := by
  have hStart : LinkOk lib master linkText purpose requests ⟨{ s with passed := [] }, Table.empty⟩ :=
    ⟨nofun, nofun, nofun, Nat.zero_le 1⟩
  have hEnd := hRun.invariant (fun _ _ hOk hStep => hOk.step hIssued hUnforged hOne hStep) hStart
  exact hEnd.passed.once

/-! ### A link that sets a password -/

theorem consumeOnce_first (lib : Primitives) {s : LinkState} (token : Bytes) (hUp : s.database = .up)
    (hUnused : lib.sha256Hex token ∉ s.used) : (s.consumeOnce lib token).2 =
      { s with used := lib.sha256Hex token :: s.used, passed := token :: s.passed } := by
  simp only [LinkState.consumeOnce, hUp, if_neg hUnused]

/-- A request to set a password uses up its link by its second command. -/
theorem advance_reset {lib : Primitives} {master token : Bytes} (newHash : String) {s : LinkState} {vr : VerifyResult}
    (hVerify : verify lib master token .resetPassword s.now = .ok vr) :
    (advance (execLink lib) 2 ((fun _ => ()) <$> (LinkRequest.reset token (some newHash)).serve lib master) s).2 =
      (s.consumeOnce lib token).2 := by
  show (advance (execLink lib) 1 ((fun _ => ()) <$> ((match verify lib master token .resetPassword s.now with
    | .error _ => _
    | .ok vr => _) : LinkM LinkAnswer)) s).2 = _
  rw [hVerify]
  rfl

def resetMaster : Bytes := ascii "0123456789abcdef0123456789abcdef"

def resetClaims : Json :=
  .obj [("exp", .int 1700003600), ("iat", .int 1700000000), ("purpose", .str "reset"), ("sub", .str "7")]

def resetText : Bytes :=
  urlEncode (ascii "\x7b\"exp\":1700003600,\"iat\":1700000000,\"purpose\":\"reset\",\"sub\":\"7\"\x7d")

def resetSignature : Bytes :=
  [158, 165, 196, 247, 14, 69, 84, 126, 131, 31, 253, 146, 234, 210, 173, 22, 87, 208, 193, 65, 154, 25, 130, 97, 228, 74,
    77, 80, 3, 174, 27, 249]

def resetLink : Bytes := resetText ++ dot :: urlEncode resetSignature

/-- The same link with a `=` at its end. -/
def paddedLink : Bytes := resetText ++ dot :: (urlEncode resetSignature ++ [61])

/-- The functions at the texts of the link. -/
def resetPrimitives : Primitives where
  hmacSha256 key text :=
    if key = resetMaster ∧ text = ascii "tokens:reset" then
      [31, 237, 66, 241, 32, 198, 3, 236, 158, 50, 52, 134, 181, 243, 216, 194, 166, 15, 197, 223, 189, 188, 79, 223, 87,
        50, 222, 24, 154, 184, 164, 174]
    else resetSignature
  sha256Hex token :=
    if token = resetLink then "03ad194717eac6f89c79e5a732682ca27f753695405ff87a58d3e849f3cbff83"
    else "08dd8a61ef100bcf49870e6625d8f58db445eabb2e291b5a47797474854b5c39"
  parse _ := some resetClaims
  dump _ := ascii "\x7b\"exp\":1700003600,\"iat\":1700000000,\"purpose\":\"reset\",\"sub\":\"7\"\x7d"

def resetStart : LinkState := ⟨1700000060, .up, [⟨"7", "a@example.kz", none⟩], [], []⟩

theorem hmac_resetText (key : Bytes) : resetPrimitives.hmacSha256 key resetText = resetSignature := by
  have hOther : resetText ≠ ascii "tokens:reset" := by decide +kernel
  exact if_neg fun h => hOther h.2

theorem issue_reset :
    issue resetPrimitives resetMaster "7" .resetPassword 3600 (.obj []) 1700000000 = some resetLink := by
  have hMaster : resetMaster ≠ [] := by decide
  rw [issue, if_neg hMaster, signed]
  exact congrArg (fun sig => some (resetText ++ dot :: urlEncode sig)) (hmac_resetText _)

theorem verify_reset {sig : Bytes} (hSig : strip sig = urlEncode resetSignature) :
    verify resetPrimitives resetMaster (resetText ++ dot :: sig) .resetPassword 1700000060 = .ok ⟨"7", .obj []⟩ := by
  have hMaster : resetMaster ≠ [] := by decide
  have hVerify : verify resetPrimitives resetMaster (resetText ++ dot :: sig) .resetPassword 1700000060 =
      readClaims resetClaims .resetPassword 1700000060 :=
    verify_signed hMaster rfl (hSig.trans (congrArg urlEncode (hmac_resetText _).symm))
  refine hVerify.trans ?_
  rfl

theorem unforged_reset {requests : LinkRequest → Prop}
    (h : ∀ r, requests r → r.purpose = .resetPassword ∧ ∃ sig, r.token = resetText ++ dot :: sig) :
    Unforged resetPrimitives resetMaster resetLink .resetPassword requests := by
  intro r hRequest text sig hSplit _
  obtain ⟨hPurpose, sig', hToken⟩ := h r hRequest
  have hText : dot ∉ resetText := dot_not_mem_urlEncode _
  rw [hToken, splitToken_append hText] at hSplit
  obtain ⟨rfl, -⟩ := Prod.mk.inj (Option.some.inj hSplit)
  exact ⟨hPurpose, _, splitToken_append hText _⟩

/-- A request to set a password that goes on until it has used up its link. -/
theorem run_reset (requests : LinkRequest → Prop)
    (w : System LinkRequest LinkCommand LinkCommand.Reply LinkState) (n : Nat) {token : Bytes} (newHash : String)
    {vr : VerifyResult} (hFree : w.processes n = none) (hRequest : requests (.reset token (some newHash)))
    (hVerify : verify resetPrimitives resetMaster token .resetPassword w.state.now = .ok vr) :
    ∃ w', Run (LinkStep resetPrimitives resetMaster requests) w w' ∧
      w'.state = (w.state.consumeOnce resetPrimitives token).2 ∧ ∀ n', n' ≠ n → w'.processes n' = w.processes n' := by
  have hRun : Run (LinkStep resetPrimitives resetMaster requests) w _ :=
    run_launch 2 hFree ⟨hRequest, rfl⟩ fun _ _ => trivial
  have hState := advance_reset newHash hVerify
  refine ⟨_, hRun, ?_, fun _ hNe => ?_⟩
  · exact hState
  · exact Table.put_ne hNe

/-- One request with the link sets the password. -/
theorem link_one_shot_reset :
    ∃ w, Run (LinkStep resetPrimitives resetMaster fun r => r = .reset resetLink (some "$argon2id$1"))
        ⟨resetStart, Table.empty⟩ w ∧ w.state.passed = [resetLink] ∧ w.state.passed.length ≤ 1 := by
  obtain ⟨w, hRun, hState, -⟩ := run_reset (fun r => r = .reset resetLink (some "$argon2id$1"))
    ⟨resetStart, Table.empty⟩ 0 "$argon2id$1" rfl rfl (verify_reset (strip_urlEncode resetSignature))
  have hFirst := consumeOnce_first resetPrimitives (s := resetStart) resetLink rfl List.not_mem_nil
  refine ⟨w, hRun, by rw [hState, hFirst]; rfl, ?_⟩
  refine link_one_shot issue_reset (unforged_reset ?_) ?_ (s := resetStart) hRun
  · rintro r rfl
    exact ⟨rfl, urlEncode resetSignature, rfl⟩
  · rintro r r' rfl rfl - -
    rfl

/-- With a `=` at its end the link works once more. -/
theorem link_used_twice :
    Unforged resetPrimitives resetMaster resetLink .resetPassword
        (fun r => ∃ token ∈ [resetLink, paddedLink], ∃ newHash, r = .reset token newHash) ∧
      resetPrimitives.sha256Hex resetLink ≠ resetPrimitives.sha256Hex paddedLink ∧
      ∃ w, Run (LinkStep resetPrimitives resetMaster
          fun r => ∃ token ∈ [resetLink, paddedLink], ∃ newHash, r = .reset token newHash)
        ⟨resetStart, Table.empty⟩ w ∧ w.state.passed = [paddedLink, resetLink] := by
  have hPadded : strip (urlEncode resetSignature ++ [61]) = urlEncode resetSignature := by
    rw [strip, List.filter_append]
    exact (List.append_nil _).trans (strip_urlEncode resetSignature)
  have hNe : paddedLink ≠ resetLink := fun h => by
    have hLength := congrArg List.length h
    simp [paddedLink, resetLink] at hLength
  have hHash : resetPrimitives.sha256Hex resetLink ≠ resetPrimitives.sha256Hex paddedLink := by
    simp [resetPrimitives, hNe]
  refine ⟨unforged_reset ?_, hHash, ?_⟩
  · rintro r ⟨token, hToken, newHash, rfl⟩
    rcases List.mem_pair.mp hToken with hEq | hEq
    · exact ⟨rfl, urlEncode resetSignature, hEq⟩
    · exact ⟨rfl, urlEncode resetSignature ++ [61], hEq⟩
  · have hFirst := consumeOnce_first resetPrimitives (s := resetStart) resetLink rfl List.not_mem_nil
    obtain ⟨w₁, hRun₁, hState₁, hOthers⟩ :=
      run_reset (fun r => ∃ token ∈ [resetLink, paddedLink], ∃ newHash, r = .reset token newHash)
        ⟨resetStart, Table.empty⟩ 0 "$argon2id$1" rfl ⟨resetLink, by simp, _, rfl⟩
        (verify_reset (strip_urlEncode resetSignature))
    obtain ⟨w₂, hRun₂, hState₂, -⟩ :=
      run_reset (fun r => ∃ token ∈ [resetLink, paddedLink], ∃ newHash, r = .reset token newHash) w₁ 1 "$argon2id$2"
        (hOthers 1 (by decide)) ⟨paddedLink, by simp, _, rfl⟩ (by rw [hState₁, hFirst]; exact verify_reset hPadded)
    refine ⟨w₂, hRun₁.trans hRun₂, ?_⟩
    have hSecond := consumeOnce_first resetPrimitives (s := w₁.state) paddedLink
      (by rw [hState₁, hFirst]; rfl) (by rw [hState₁, hFirst]; simpa [resetStart] using hHash.symm)
    rw [hState₂, hSecond, hState₁, hFirst]
    rfl

end CyberAccountant.Security.Tokens
