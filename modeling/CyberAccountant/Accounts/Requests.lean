import CyberAccountant.Security.Tokens
import CyberAccountant.Tenancy.Organizations

/-! The accounts: how a user comes to one, signs in, and sets his password and his e-mail address.  What a user
shows by reading his mail he shows by a link that was sent there; `AccountController`, `AdminController` for users,
the sign-in of `AuthController`, and the worker that sends the mail. -/

namespace CyberAccountant.Accounts

open CyberAccountant.Library CyberAccountant.Ledger CyberAccountant.Api CyberAccountant.Api.Validation
  CyberAccountant.Security.Auth CyberAccountant.Security.Base64 CyberAccountant.Security.Tokens
open CyberAccountant.Library.Program (orReply)
open CyberAccountant.Hr (text)
open CyberAccountant.Tenancy (sameEmail isAdmin)

/-! ### Tables -/

/-- A row of `users`. -/
structure UserRow where
  id : String
  email : String
  passwordHash : Option String
  confirmed : Bool
  roleId : Nat
  deriving DecidableEq

def hasId (k : Uuid) (u : UserRow) : Bool := readUuid u.id = some k

/-- What a message is for. -/
inductive MailKind where
  | confirm
  | resetPassword
  | changeEmail
  | invite
  deriving DecidableEq

/-- The payload of a job `account_email`. -/
structure EmailJob where
  kind : MailKind
  userId : String
  newEmail : String
  deriving DecidableEq

/-- A message with a link. -/
structure Mail where
  recipient : String
  purpose : Purpose
  claims : Json

structure AccountState where
  users : List UserRow
  roles : List (Nat × Admin.Role)
  /-- The hashes in `used_tokens`. -/
  used : List String
  /-- The jobs that were submitted.  A job may be done again. -/
  jobs : List EmailJob
  mail : List Mail

/-- How the unique constraints or a missing row refuse a write. -/
inductive WriteFault where
  | userNotFound
  | duplicateEmail
  deriving DecidableEq

inductive AccountCommand where
  | nowEpochSeconds
  | hashPassword (plaintext : String)
  | find (id : String)
  | findByEmail (email : String)
  /-- The role of a number, or the default one. -/
  | findRole (id : Option Int)
  | create (email : String) (passwordHash : Option String) (roleId : Nat) (confirmed : Bool)
  | updatePasswordHash (id newHash : String)
  | markConfirmed (id : String)
  | redeemInvite (id newHash : String)
  | changeEmail (id newEmail : String)
  | adminUpdate (id : String) (email : Option String) (roleId : Option Nat)
  | remove (id : String)
  | consumeOnce (token : Bytes)
  | revokeAll (id : String)
  | recordSession (id : String)
  | submit (job : EmailJob)
  | takeJob (k : Nat)
  | send (m : Mail)

namespace AccountCommand

@[reducible] def Result : AccountCommand → Type
  | nowEpochSeconds => Int
  | hashPassword _ => String
  | find _ | findByEmail _ => Option UserRow
  | findRole _ => Option Nat
  | create _ _ _ _ => Except WriteFault UserRow
  | updatePasswordHash _ _ | changeEmail _ _ | adminUpdate _ _ _ | remove _ => Except WriteFault Unit
  | markConfirmed _ | redeemInvite _ _ | consumeOnce _ => Bool
  | revokeAll _ | recordSession _ | submit _ | send _ => Unit
  | takeJob _ => Option EmailJob

/-- A call that throws has no result. -/
abbrev Reply (c : AccountCommand) : Type := Option c.Result

end AccountCommand

/-- How a call ends: with its result, without an effect, or with its effect and no result. -/
inductive Fate where
  | answered
  | failed
  | lost
  deriving DecidableEq

/-- What a call meets: the time, its fate, and the id and the salt that are drawn then. -/
structure Moment where
  now : Int
  fate : Fate
  id : String
  salt : String

/-- What libsodium computes. -/
structure PasswordPrimitives where
  hash : String → String → String
  strVerify : String → String → Bool

structure AccountConfig where
  lib : Primitives
  passwords : PasswordPrimitives
  mode : AuthMode
  jwtSecret : Bytes
  viaJobs : Bool

/-- `Password::verify`. -/
def verifyPassword (lib : PasswordPrimitives) (plaintext storedHash : String) : Bool :=
  plaintext ≠ "" && storedHash ≠ "" && storedHash.utf8ByteSize < 128 && lib.strVerify storedHash plaintext

namespace AccountState

/-- The update of the row of an id, where it is as `admits` says. -/
def updateUser (s : AccountState) (id : String) (admits : UserRow → Bool) (f : UserRow → UserRow) :
    Option (Except WriteFault Unit) × AccountState :=
  match readUuid id with
  | none => (none, s)
  | some k =>
    match s.users.find? fun u => hasId k u && admits u with
    | none => (some (.error .userNotFound), s)
    | some row =>
      if s.users.any fun other => !hasId k other && decide (sameEmail other.email (f row).email) then
        (some (.error .duplicateEmail), s)
      else (some (.ok ()), { s with users := s.users.map fun u => if hasId k u && admits u then f u else u })

def create (s : AccountState) (row : UserRow) : Except WriteFault UserRow × AccountState :=
  if s.users.any fun other => decide (readUuid other.id = readUuid row.id ∨ sameEmail other.email row.email) then
    (.error .duplicateEmail, s)
  else (.ok row, { s with users := s.users ++ [row] })

def remove (s : AccountState) (id : String) : Option (Except WriteFault Unit) × AccountState :=
  match readUuid id with
  | none => (none, s)
  | some k =>
    if s.users.any (hasId k) then (some (.ok ()), { s with users := s.users.filter (!hasId k ·) })
    else (some (.error .userNotFound), s)

def wasWritten : Except WriteFault Unit → Bool
  | .ok () => true
  | .error _ => false

/-- What a call does that is not cut off. -/
def apply (cfg : AccountConfig) (m : Moment) : (c : AccountCommand) → AccountState → Option c.Result × AccountState
  | .nowEpochSeconds, s => (some m.now, s)
  | .hashPassword plaintext, s => (some (cfg.passwords.hash plaintext m.salt), s)
  | .find id, s => ((readUuid id).map fun k => s.users.find? (hasId k), s)
  | .findByEmail email, s => (some (s.users.find? fun u => sameEmail u.email email), s)
  | .findRole (some id), s => (some ((s.roles.find? fun r => r.1 = id).map Prod.fst), s)
  | .findRole none, s => (some ((s.roles.find? fun r => r.2.isDefault).map Prod.fst), s)
  | .create email passwordHash roleId confirmed, s =>
    let made := s.create ⟨m.id, email, passwordHash, confirmed, roleId⟩
    (some made.1, made.2)
  | .updatePasswordHash id newHash, s => s.updateUser id (fun _ => true) fun u => { u with passwordHash := some newHash }
  | .markConfirmed id, s =>
    let written := s.updateUser id (fun _ => true) fun u => { u with confirmed := true }
    (written.1.map wasWritten, written.2)
  | .redeemInvite id newHash, s =>
    let written := s.updateUser id (fun u => !u.confirmed && u.passwordHash.isNone) fun u =>
      { u with passwordHash := some newHash, confirmed := true }
    (written.1.map wasWritten, written.2)
  | .changeEmail id newEmail, s => s.updateUser id (fun _ => true) fun u => { u with email := newEmail }
  | .adminUpdate id email roleId, s =>
    s.updateUser id (fun _ => true) fun u => { u with email := email.getD u.email, roleId := roleId.getD u.roleId }
  | .remove id, s => s.remove id
  | .consumeOnce token, s =>
    if cfg.lib.sha256Hex token ∈ s.used then (some false, s)
    else (some true, { s with used := cfg.lib.sha256Hex token :: s.used })
  | .revokeAll _, s | .recordSession _, s => (some (), s)
  | .submit job, s => (some (), { s with jobs := s.jobs ++ [job] })
  | .takeJob k, s => (some s.jobs[k]?, s)
  | .send m, s => (some (), { s with mail := s.mail ++ [m] })

def exec (cfg : AccountConfig) (m : Moment) (c : AccountCommand) (s : AccountState) : c.Reply × AccountState :=
  match m.fate with
  | .answered => s.apply cfg m c
  | .failed => (none, s)
  | .lost => (none, (s.apply cfg m c).2)

end AccountState

/-! ### Requests -/

abbrev AccountM := Program AccountCommand AccountCommand.Reply

def call (c : AccountCommand) : AccountM (Option c.Result) := .perform c

inductive AccountReply where
  | ok (message : String)
  | created (user : UserRow) (message : String)
  | user (user : UserRow)
  /-- The user is signed in. -/
  | session (user : UserRow)
  | badRequest (code message : String)
  | refused (r : Refusal)
  | unauthorized (code message : String)
  | permissionRequired (perm : BitVec 32)
  | notFound (resource : String)
  | conflict (code message : String)
  | serviceUnavailable (code message : String)
  /-- An exception that the handler does not catch. -/
  | thrown
  /-- The worker's own end. -/
  | worked

/-- The call, and what follows its result; a reply where it throws. -/
def attempt (c : AccountCommand) (otherwise : AccountReply) (next : c.Result → AccountM AccountReply) :
    AccountM AccountReply := do
  match ← call c with
  | none => return otherwise
  | some result => next result

def parseBody (body : Option Json) : Except AccountReply Json :=
  orFail (.badRequest "invalid_json" "Invalid JSON body") body

def check (errors : List FieldError) : Except AccountReply Unit := ensure (errors = []) (.refused (.badRequest errors))

def internalError : AccountReply := .refused .internalError

/-- `with_repo_errors`. -/
def fault : WriteFault → AccountReply
  | .userNotFound => .notFound "user"
  | .duplicateEmail => .conflict "email_taken" "Email is already registered"

def passwordLength (body : Json) (field : String) : List FieldError := stringLength body field 8 128

/-- The user whose token this is. -/
def principalOf (p : Option AuthPrincipal) : Except AccountReply AuthPrincipal := orFail (.unauthorized "unauthorized" "") p

section

variable (cfg : AccountConfig)

def requireAdmin (p : Option AuthPrincipal) (handler : AccountM AccountReply) : AccountM AccountReply :=
  if cfg.mode = .none ∨ p.any isAdmin = true then handler else return .permissionRequired Admin.administer

/-! ### Mail -/

namespace AccountEmails

def purpose : MailKind → Purpose
  | .confirm => .confirm
  | .resetPassword => .resetPassword
  | .changeEmail => .changeEmail
  | .invite => .invite

/-- The lifetime of a link in seconds. -/
def ttl : MailKind → Int
  | .confirm | .invite => 604800
  | .resetPassword | .changeEmail => 3600

def extra (kind : MailKind) (newEmail : String) : Json :=
  .obj (if kind = .changeEmail then [("new_email", .str newEmail)] else [])

/-- The link is made when it is sent. -/
def deliverNow (kind : MailKind) (user : UserRow) (newEmail : String) : AccountM Unit :=
  if cfg.jwtSecret = [] then return ()
  else do
    match ← call .nowEpochSeconds with
    | none => return ()
    | some now =>
      let recipient := if kind = .changeEmail then newEmail else user.email
      let claims := payload user.id (purpose kind) (ttl kind) (extra kind newEmail) now
      let _ ← call (.send ⟨recipient, purpose kind, claims⟩)
      return ()

/-- A job for the worker, or the message at once. -/
def dispatch (kind : MailKind) (user : UserRow) (newEmail : String) : AccountM Unit :=
  if cfg.viaJobs then do
    match ← call (.submit ⟨kind, user.id, newEmail⟩) with
    | some _ => return ()
    | none => deliverNow cfg kind user newEmail
  else deliverNow cfg kind user newEmail

/-- The worker does the job of a number. -/
def processJob (k : Nat) : AccountM AccountReply := do
  match ← call (.takeJob k) with
  | none | some none => return .worked
  | some (some job) =>
    match ← call (.find job.userId) with
    | none | some none => return .worked
    | some (some user) => do
      deliverNow cfg job.kind user job.newEmail
      return .worked

end AccountEmails

open AccountEmails

/-! ### Registration and sign-in -/

namespace AuthController

def registerUser (body : Option Json) : AccountM AccountReply :=
  orReply (do
      let body ← parseBody body
      check (require body "email" ++ require body "password" ++ email body "email" ++ passwordLength body "password")
      return body) fun body =>
    attempt (.findRole none) .thrown fun role =>
      orReply (orFail (.serviceUnavailable "misconfigured" "default role missing") role) fun role =>
        attempt (.hashPassword (text body "password")) internalError fun hash =>
          attempt (.create (text body "email") (some hash) role false) internalError fun created =>
            orReply (created.mapError fault) fun user => do
              dispatch cfg .confirm user ""
              return .created user "Account created. Check your email for the confirmation link."

/-- The user whose password this is. -/
def credentials (user : Option UserRow) (password : String) : Option UserRow :=
  user.filter fun u => u.passwordHash.any (verifyPassword cfg.passwords password)

def login (body : Option Json) : AccountM AccountReply :=
  orReply (do
      let body ← parseBody body
      check (require body "email" ++ require body "password")
      let email ← orFail .thrown (stringField body "email")
      let password ← orFail .thrown (stringField body "password")
      return (email, password)) fun given =>
    attempt (.findByEmail given.1) .thrown fun user =>
      orReply (orFail (.unauthorized "invalid_credentials" "Invalid email or password")
          (credentials cfg user given.2)) fun user =>
        if cfg.jwtSecret = [] then return .serviceUnavailable "session_unavailable" "Could not mint session"
        else attempt (.recordSession user.id) (.serviceUnavailable "session_unavailable" "Could not mint session")
          fun _ => return .session user

end AuthController

/-! ### The account of a user -/

namespace AccountController

def resendConfirm (p : Option AuthPrincipal) : AccountM AccountReply :=
  orReply (principalOf p) fun p =>
    attempt (.find p.subject) internalError fun user =>
      orReply (orFail (.notFound "user") user) fun user =>
        if user.confirmed then return .ok "already confirmed"
        else do
          dispatch cfg .confirm user ""
          return .ok "confirmation email sent"

def invalidToken (message : String) : AccountReply := .badRequest "invalid_token" message

/-- The link, as it is now, and what follows if it is good. -/
def withLink (token : Bytes) (purpose : Purpose) (message : String) (next : VerifyResult → AccountM AccountReply) :
    AccountM AccountReply :=
  attempt .nowEpochSeconds .thrown fun now =>
    match verify cfg.lib cfg.jwtSecret token purpose now with
    | .error _ => return invalidToken message
    | .ok vr => next vr

/-- The link is used up, unless it was before; a call that throws refuses it. -/
def consumed (token : Bytes) (message : String) (next : AccountM AccountReply) : AccountM AccountReply :=
  attempt (.consumeOnce token) (invalidToken message) fun first =>
    if first then next else return invalidToken message

def confirm (token : Bytes) : AccountM AccountReply :=
  withLink cfg token .confirm "Confirmation link is invalid or has expired" fun vr =>
    consumed token "Confirmation link has already been used" <|
      attempt (.markConfirmed vr.sub) internalError fun found =>
        if found then return .ok "Account confirmed" else return .notFound "user"

/-- The answer, whether or not the address is registered. -/
def acknowledged : AccountReply := .ok "If that email is registered, a reset link is on its way."

def requestReset (body : Option Json) : AccountM AccountReply :=
  orReply (do
      let body ← parseBody body
      check (require body "email" ++ email body "email")
      return text body "email") fun email => do
    match ← call (.findByEmail email) with
    | none | some none => return acknowledged
    | some (some user) => do
      dispatch cfg .resetPassword user ""
      return acknowledged

/-- The checks of a new password. -/
def newPassword (body : Option Json) : Except AccountReply String := do
  let body ← parseBody body
  check (require body "new_password" ++ passwordLength body "new_password")
  return text body "new_password"

/-- The sessions go with the old password. -/
def afterWrite (id message : String) : Except WriteFault Unit → AccountM AccountReply
  | .error e => return fault e
  | .ok () => do
    let _ ← call (.revokeAll id)
    return .ok message

def applyReset (token : Bytes) (body : Option Json) : AccountM AccountReply :=
  orReply (newPassword body) fun password =>
    withLink cfg token .resetPassword "Reset link is invalid or has expired" fun vr =>
      consumed token "Reset link has already been used" <|
        attempt (.hashPassword password) internalError fun newHash =>
          attempt (.updatePasswordHash vr.sub newHash) internalError (afterWrite vr.sub "Password updated")

/-- The caller, if the password is his. -/
def ownPassword (user : Option UserRow) (password : Option String) (message : String) :
    Except AccountReply UserRow := do
  let user ← orFail (.unauthorized "invalid_credentials" "") user
  let hash ← orFail (.unauthorized "invalid_credentials" "") user.passwordHash
  let password ← orFail internalError password
  ensure (verifyPassword cfg.passwords password hash = true) (.unauthorized "invalid_credentials" message)
  return user

def requestChangeEmail (p : Option AuthPrincipal) (body : Option Json) : AccountM AccountReply :=
  orReply (do
      let p ← principalOf p
      let body ← parseBody body
      check (require body "new_email" ++ email body "new_email" ++ require body "password")
      return (p, body)) fun given =>
    attempt (.find given.1.subject) internalError fun user =>
      orReply (ownPassword cfg user (stringField given.2 "password") "Wrong password") fun user => do
        dispatch cfg .changeEmail user (text given.2 "new_email")
        return .ok "Confirmation email sent to the new address."

def applyChangeEmail (token : Bytes) : AccountM AccountReply :=
  withLink cfg token .changeEmail "Change-email link is invalid or has expired" fun vr =>
    orReply (orFail (invalidToken "Token is missing the new email") (stringField vr.extra "new_email")) fun newEmail =>
      attempt (.findByEmail newEmail) .thrown fun taken =>
        if taken.any (·.id ≠ vr.sub) then return .conflict "email_taken" "That email address is already in use"
        else consumed token "Change-email link has already been used" <|
          attempt (.changeEmail vr.sub newEmail) internalError fun written =>
            orReply (written.mapError fault) fun _ => return .ok "Email updated"

/-- The link works as long as the user has no password. -/
def joinFromInvite (token : Bytes) (body : Option Json) : AccountM AccountReply :=
  orReply (newPassword body) fun password =>
    withLink cfg token .invite "Invitation link is invalid or has expired" fun vr =>
      attempt (.hashPassword password) internalError fun newHash =>
        attempt (.redeemInvite vr.sub newHash) internalError fun redeemed =>
          if redeemed then afterWrite vr.sub "Account ready — you can now sign in." (.ok ())
          else return invalidToken "This invitation has already been used or is no longer valid"

def changePassword (p : Option AuthPrincipal) (body : Option Json) : AccountM AccountReply :=
  orReply (do
      let p ← principalOf p
      let body ← parseBody body
      check (require body "old_password" ++ require body "new_password" ++ passwordLength body "new_password")
      return (p, body)) fun given =>
    attempt (.find given.1.subject) internalError fun user =>
      orReply (ownPassword cfg user (stringField given.2 "old_password") "Original password is incorrect") fun user =>
        attempt (.hashPassword (text given.2 "new_password")) internalError fun newHash =>
          attempt (.updatePasswordHash user.id newHash) internalError (afterWrite user.id "Password updated")

end AccountController

/-! ### Administration -/

namespace AdminController

/-- The number of a role, if the request has one. -/
def requestedRole (body : Json) : Option Int :=
  match Json.member body.members "role_id" with
  | some (.int n) => some (Hr.HrController.wrap32 n)
  | _ => none

def createUser (p : Option AuthPrincipal) (body : Option Json) : AccountM AccountReply :=
  requireAdmin cfg p <|
    orReply (do
        let body ← parseBody body
        check (require body "email" ++ require body "password" ++ email body "email" ++ passwordLength body "password")
        return body) fun body =>
      attempt (.findRole (requestedRole body)) .thrown fun role =>
        orReply (orFail (.badRequest "invalid_role" "Role does not exist") role) fun role =>
          attempt (.hashPassword (text body "password")) internalError fun hash =>
            attempt (.create (text body "email") (some hash) role true) internalError fun created =>
              orReply (created.mapError fault) fun user => return .created user ""

def inviteUser (p : Option AuthPrincipal) (body : Option Json) : AccountM AccountReply :=
  requireAdmin cfg p <|
    orReply (do
        let body ← parseBody body
        check (require body "email" ++ email body "email")
        return body) fun body =>
      attempt (.findRole (requestedRole body)) .thrown fun role =>
        orReply (orFail (.badRequest "invalid_role" "") role) fun role =>
          attempt (.create (text body "email") none role false) internalError fun created =>
            orReply (created.mapError fault) fun user => do
              dispatch cfg .invite user ""
              return .created user "Invitation sent"

def validId (id : String) : Except AccountReply Unit :=
  ensure (isValidUuid id = true) (.badRequest "invalid_id" "Malformed user id")

/-- The new address, if the body has one. -/
def newEmail (body : Json) : Except AccountReply (Option String) := do
  match stringField body "email" with
  | none => return none
  | some address => do
    check (email body "email")
    return some address

/-- The new role, if the body has one. -/
def withNewRole (p : Option AuthPrincipal) (id : String) (body : Json)
    (next : Option Nat → AccountM AccountReply) : AccountM AccountReply :=
  match requestedRole body with
  | none => next none
  | some n =>
    if p.any fun p => p.subject = id then
      return .badRequest "self_role_change" "You cannot change the role of your own account; ask another admin"
    else attempt (.findRole (some n)) internalError fun role =>
      orReply (orFail (.badRequest "invalid_role" "") role) fun role => next (some role)

def updateUser (p : Option AuthPrincipal) (id : String) (body : Option Json) : AccountM AccountReply :=
  requireAdmin cfg p <|
    orReply (do
        validId id
        let body ← parseBody body
        return (body, ← newEmail body)) fun given =>
      withNewRole p id given.1 fun role =>
        let fresh : AccountM AccountReply := attempt (.find id) internalError fun user =>
          orReply (orFail (.notFound "user") user) fun user => return .user user
        if given.2.isSome ∨ role.isSome ∨ (stringField given.1 "first_name").isSome ∨
            (stringField given.1 "last_name").isSome then
          attempt (.adminUpdate id given.2 role) internalError fun written =>
            orReply (written.mapError fault) fun _ => fresh
        else fresh

def deleteUser (p : Option AuthPrincipal) (id : String) : AccountM AccountReply :=
  requireAdmin cfg p <|
    orReply (do
        validId id
        ensure (p.any (fun p => p.subject = id) = false)
          (.badRequest "self_delete" "You cannot delete your own account; ask another admin")) fun _ =>
      attempt (.remove id) internalError fun written =>
        orReply (written.mapError fault) fun _ => return .ok "User deleted"

end AdminController

end

inductive AccountRequest where
  | registerUser (body : Option Json)
  | login (body : Option Json)
  | resendConfirm
  | confirm (token : Bytes)
  | requestReset (body : Option Json)
  | applyReset (token : Bytes) (body : Option Json)
  | requestChangeEmail (body : Option Json)
  | applyChangeEmail (token : Bytes)
  | joinFromInvite (token : Bytes) (body : Option Json)
  | changePassword (body : Option Json)
  | createUser (body : Option Json)
  | inviteUser (body : Option Json)
  | updateUser (id : String) (body : Option Json)
  | deleteUser (id : String)
  /-- A turn of the worker. -/
  | processJob (k : Nat)

def handle (cfg : AccountConfig) (p : Option AuthPrincipal) : AccountRequest → AccountM AccountReply
  | .registerUser body => AuthController.registerUser cfg body
  | .login body => AuthController.login cfg body
  | .resendConfirm => AccountController.resendConfirm cfg p
  | .confirm token => AccountController.confirm cfg token
  | .requestReset body => AccountController.requestReset cfg body
  | .applyReset token body => AccountController.applyReset cfg token body
  | .requestChangeEmail body => AccountController.requestChangeEmail cfg p body
  | .applyChangeEmail token => AccountController.applyChangeEmail cfg token
  | .joinFromInvite token body => AccountController.joinFromInvite cfg token body
  | .changePassword body => AccountController.changePassword cfg p body
  | .createUser body => AdminController.createUser cfg p body
  | .inviteUser body => AdminController.inviteUser cfg p body
  | .updateUser id body => AdminController.updateUser cfg p id body
  | .deleteUser id => AdminController.deleteUser cfg p id
  | .processJob k => AccountEmails.processJob cfg k

end CyberAccountant.Accounts
