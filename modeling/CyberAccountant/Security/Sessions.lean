import CyberAccountant.Library.Program
import CyberAccountant.Library.Table
import CyberAccountant.Library.Transition

/-! The refresh tokens of a user, command by command: the markers of the live ones, and the set by which all of them
are revoked at once.  A token is refreshed by a read of its marker, a delete and the writes of a new one. -/

namespace CyberAccountant.Security.Sessions

open CyberAccountant.Library CyberAccountant.Library.Program

/-- The id of a refresh token; no two are drawn alike. -/
abbrev Jti : Type := Nat

structure SessionStore where
  /-- The ids with a marker. -/
  live : List Jti
  /-- The members of the set of the user. -/
  index : List Jti
  /-- As many ids have been drawn. -/
  drawn : Nat
  /-- The ids of the tokens that clients have, which are those that a signature can be of. -/
  given : List Jti
  passwordOk : Bool
  userThere : Bool

inductive SessionCommand where
  | checkPassword
  | verifyJwt (jti : Jti)
  | get (jti : Jti)
  | findUser
  | listForUser
  | makeJti
  | set (jti : Jti)
  | sadd (jti : Jti)
  | expire
  | del (jti : Jti)
  | smembers
  | delIndex
  | setCookies (jti : Jti)

@[reducible] def SessionCommand.Reply : SessionCommand → Type
  | .checkPassword | .verifyJwt _ | .get _ | .findUser => Bool
  | .makeJti => Jti
  | .smembers => List Jti
  | .listForUser | .set _ | .sadd _ | .expire | .del _ | .delIndex | .setCookies _ => Unit

def exec : (c : SessionCommand) → SessionStore → c.Reply × SessionStore
  | .checkPassword, s => (s.passwordOk, s)
  | .verifyJwt jti, s => (jti ∈ s.given, s)
  | .get jti, s => (jti ∈ s.live, s)
  | .findUser, s => (s.userThere, s)
  | .listForUser, s => ((), s)
  | .makeJti, s => (s.drawn, { s with drawn := s.drawn + 1 })
  | .set jti, s => ((), { s with live := s.live.insert jti })
  | .sadd jti, s => ((), { s with index := s.index.insert jti })
  | .expire, s => ((), s)
  | .del jti, s => ((), { s with live := s.live.filter (· ≠ jti) })
  | .smembers, s => (s.index, s)
  | .delIndex, s => ((), { s with index := [] })
  | .setCookies jti, s => ((), { s with given := s.given.insert jti })

abbrev SessionM (α : Type) : Type := Program SessionCommand SessionCommand.Reply α

def session (c : SessionCommand) : SessionM c.Reply := perform c

/-! ### The requests -/

def record (jti : Jti) : SessionM Unit := do
  session (.set jti)
  session (.sadd jti)
  session .expire

def mintSession : SessionM Jti := do
  session .listForUser
  let jti ← session .makeJti
  record jti
  pure jti

def login : SessionM Unit := do
  if ← session .checkPassword then do
    let jti ← mintSession
    session (.setCookies jti)
  else pure ()

def revokeJti (jti : Jti) : SessionM Unit := session (.del jti)

def refresh (jti : Jti) : SessionM Unit := do
  if ← session (.verifyJwt jti) then do
    if ← session (.get jti) then do
      if ← session .findUser then do
        revokeJti jti
        let new ← mintSession
        session (.setCookies new)
      else revokeJti jti
    else pure ()
  else pure ()

def logout (jti : Jti) : SessionM Unit := do
  if ← session (.verifyJwt jti) then revokeJti jti else pure ()

/-- What a change of the password, a reset of it and an accepted invitation end with. -/
def revokeAll : SessionM Unit := do
  let jtis ← session .smembers
  jtis.forM revokeJti
  session .delIndex

/-! ### The stages of a request -/

/-- The next command of a request.  From the draw of an id on it is told which token the new one replaces. -/
inductive Stage where
  | checkingPassword
  | verifyingRefresh (jti : Jti)
  | looking (jti : Jti)
  | findingUser (jti : Jti)
  | droppingGone (jti : Jti)
  | rotating (jti : Jti)
  | listing (old : Option Jti)
  | drawing (old : Option Jti)
  | setting (old : Option Jti) (new : Jti)
  | adding (old : Option Jti) (new : Jti)
  | expiring (old : Option Jti) (new : Jti)
  | answering (old : Option Jti) (new : Jti)
  | verifyingLogout (jti : Jti)
  | dropping (jti : Jti)
  | reading
  | sweeping (jti : Jti) (rest : List Jti)
  | droppingIndex
  | done

namespace Stage

/-- The stage that deletes the markers of a list. -/
def sweep : List Jti → Stage
  | [] => droppingIndex
  | jti :: rest => sweeping jti rest

/-- The command of a stage, and the stage after its reply. -/
def step : Stage → Option ((c : SessionCommand) × (c.Reply → Stage))
  | checkingPassword => some ⟨.checkPassword, fun ok => if ok then listing none else done⟩
  | verifyingRefresh jti => some ⟨.verifyJwt jti, fun ok => if ok then looking jti else done⟩
  | looking jti => some ⟨.get jti, fun live => if live then findingUser jti else done⟩
  | findingUser jti => some ⟨.findUser, fun isThere => if isThere then rotating jti else droppingGone jti⟩
  | droppingGone jti => some ⟨.del jti, fun _ => done⟩
  | rotating jti => some ⟨.del jti, fun _ => listing (some jti)⟩
  | listing old => some ⟨.listForUser, fun _ => drawing old⟩
  | drawing old => some ⟨.makeJti, fun new => setting old new⟩
  | setting old new => some ⟨.set new, fun _ => adding old new⟩
  | adding old new => some ⟨.sadd new, fun _ => expiring old new⟩
  | expiring old new => some ⟨.expire, fun _ => answering old new⟩
  | answering _ new => some ⟨.setCookies new, fun _ => done⟩
  | verifyingLogout jti => some ⟨.verifyJwt jti, fun ok => if ok then dropping jti else done⟩
  | dropping jti => some ⟨.del jti, fun _ => done⟩
  | reading => some ⟨.smembers, sweep⟩
  | sweeping jti rest => some ⟨.del jti, fun _ => sweep rest⟩
  | droppingIndex => some ⟨.delIndex, fun _ => done⟩
  | done => none

/-- What a request has yet to do. -/
def rest : Stage → SessionM Unit
  | checkingPassword => login
  | verifyingRefresh jti => refresh jti
  | looking jti => do
    if ← session (.get jti) then do
      if ← session .findUser then do
        revokeJti jti
        let new ← mintSession
        session (.setCookies new)
      else revokeJti jti
    else pure ()
  | findingUser jti => do
    if ← session .findUser then do
      revokeJti jti
      let new ← mintSession
      session (.setCookies new)
    else revokeJti jti
  | rotating jti => do
    revokeJti jti
    let new ← mintSession
    session (.setCookies new)
  | listing _ => do
    let new ← mintSession
    session (.setCookies new)
  | drawing _ => do
    let new ← session .makeJti
    record new
    session (.setCookies new)
  | setting _ new => do
    record new
    session (.setCookies new)
  | adding _ new => do
    session (.sadd new)
    session .expire
    session (.setCookies new)
  | expiring _ new => do
    session .expire
    session (.setCookies new)
  | answering _ new => session (.setCookies new)
  | verifyingLogout jti => logout jti
  | droppingGone jti | dropping jti => revokeJti jti
  | reading => revokeAll
  | sweeping jti rest => do
    (jti :: rest).forM revokeJti
    session .delIndex
  | droppingIndex => session .delIndex
  | done => pure ()

theorem rest_sweep (jtis : List Jti) : (sweep jtis).rest = (do jtis.forM revokeJti; session .delIndex) := by
  cases jtis with
  | nil => rfl
  | cons jti rest => rfl

/-- The stages are those of the requests: each sends its command and goes on with the next stage. -/
theorem rest_eq (st : Stage) : st.rest =
    match st.step with
    | none => pure ()
    | some ⟨c, next⟩ => .call c fun reply => (next reply).rest := by
  cases st with
  | checkingPassword => exact congrArg (Program.call _) (funext fun ok => by cases ok <;> rfl)
  | verifyingRefresh jti => exact congrArg (Program.call _) (funext fun ok => by cases ok <;> rfl)
  | looking jti => exact congrArg (Program.call _) (funext fun live => by cases live <;> rfl)
  | findingUser jti => exact congrArg (Program.call _) (funext fun isThere => by cases isThere <;> rfl)
  | verifyingLogout jti => exact congrArg (Program.call _) (funext fun ok => by cases ok <;> rfl)
  | reading => exact congrArg (Program.call _) (funext fun jtis => (rest_sweep jtis).symm)
  | sweeping jti rest => exact congrArg (Program.call _) (funext fun _ => (rest_sweep rest).symm)
  | droppingGone jti | rotating jti | listing old | drawing old | setting old new | adding old new
  | expiring old new | answering old new | dropping jti | droppingIndex | done => rfl

/-- The first stage of a request. -/
def IsStart : Stage → Prop
  | checkingPassword | verifyingRefresh _ | verifyingLogout _ | reading => True
  | _ => False

end Stage

end CyberAccountant.Security.Sessions
