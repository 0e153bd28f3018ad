import CyberAccountant.Library.Program
import Mathlib.Logic.Function.Basic

/-! The hooks that keep a mutating request with an `Idempotency-Key` from being handled twice: the
first looks for a stored response and takes a lock, the second stores the response and gives the lock
back. -/

namespace CyberAccountant.Security

open CyberAccountant.Library CyberAccountant.Library.Program

namespace Idempotency

structure Config where
  enabled : Bool
  maxBodyBytes : Nat
  maxResponseBytes : Nat
  lockTtlSec : Int

/-- What is initialized in a process of the server. -/
structure Setup where
  config : Option Config
  cacheInitialized : Bool

inductive Method where
  | get
  | post
  | head
  | put
  | delete
  | options
  | patch
  deriving DecidableEq

def Method.text : Method → String
  | .get => "GET"
  | .post => "POST"
  | .head => "HEAD"
  | .put => "PUT"
  | .delete => "DELETE"
  | .options => "OPTIONS"
  | .patch => "PATCH"

def isMutating (m : Method) : Bool := m = .post ∨ m = .put ∨ m = .delete ∨ m = .patch

/-- What the hooks read of a request.  A header that is missing is empty. -/
structure Request where
  method : Method
  path : String
  idempotencyKey : String
  body : ByteArray
  subject : Option String
  peerIp : String

structure Response where
  status : Int
  contentType : String
  headers : List (String × String)
  body : ByteArray

/-- A stored response. -/
structure Entry where
  reqHash : String
  status : Int
  contentType : String
  headers : List (String × String)
  body : ByteArray

/-- What stands under a key of the cache: the JSON of an entry, or a text that is none. -/
inductive Value where
  | entry (e : Entry)
  | text (s : String)

/-- The JSON of an entry; a body that is no UTF-8 has none. -/
def Entry.dump (e : Entry) : Option Value := if e.body.validateUTF8 then some (.entry e) else none

/-- How a request is answered. -/
inductive Served where
  | tooLarge
  | conflict
  | inProgress (retryAfterSec : Int)
  | replayed (stored : Entry)
  | executed (response : Response)

/-- The body of an error. -/
structure ErrorBody where
  status : Int
  error : String
  message : String

def Served.error? : Served → Option ErrorBody
  | .tooLarge => some ⟨413, "body_too_large_for_idempotency", ""⟩
  | .conflict => some ⟨422, "idempotency_key_conflict", "body hash mismatch for previously-seen key"⟩
  | .inProgress _ =>
    some ⟨409, "idempotency_key_in_progress", "another request with this Idempotency-Key is in progress"⟩
  | .replayed _ | .executed _ => none

/-- `make_replay_response`. -/
def makeReplayResponse (stored : Entry) : Response where
  status := stored.status
  contentType := stored.contentType
  headers := stored.headers ++ [("X-Idempotent-Replayed", "true")]
  body := stored.body

/-- The commands to the cache, the call of the handler and the sending of the answer. -/
inductive CacheCommand where
  | get (key : String)
  | del (key : String)
  | setNx (key value : String)
  | set (key : String) (value : Value)
  /-- Deletes the key if it holds the text. -/
  | compareAndDelete (key owner : String)
  | handle (response : Response)
  | answer (served : Served)

@[reducible] def CacheCommand.Reply : CacheCommand → Type
  | .get _ => Option Value
  | .setNx _ _ => Bool
  | _ => Unit

/-- The cache, the responses that handlers have given, and the answers that have been sent. -/
structure Cache where
  values : String → Option Value
  handled : List Response
  answers : List Served

def Cache.put (s : Cache) (key : String) (value : Option Value) : Cache :=
  { s with values := Function.update s.values key value }

/-- What a command replies and does.  No key expires here, and no command fails. -/
def exec : (c : CacheCommand) → Cache → c.Reply × Cache
  | .get key, s => (s.values key, s)
  | .del key, s => ((), s.put key none)
  | .setNx key value, s =>
    if (s.values key).isSome then (false, s) else (true, s.put key (some (.text value)))
  | .set key value, s => ((), s.put key (some value))
  | .compareAndDelete key owner, s =>
    match s.values key with
    | some (.text value) => ((), if value = owner then s.put key none else s)
    | _ => ((), s)
  | .handle response, s => ((), { s with handled := response :: s.handled })
  | .answer served, s => ((), { s with answers := served :: s.answers })

abbrev CacheM (α : Type) : Type := Program CacheCommand CacheCommand.Reply α

def cache (c : CacheCommand) : CacheM c.Reply := perform c

section

-- The SHA-256 of some bytes, in hexadecimal digits.
variable (sha256Hex : ByteArray → String)

def cacheKey (principal method path idemKey : String) : String :=
  "idemp:" ++ principal ++ ":" ++ method ++ ":" ++ sha256Hex path.toUTF8 ++ ":" ++ idemKey

def lockKey (ck : String) : String := ck ++ ":lock"

/-- Whose request it is: the authenticated subject, or the peer's address. -/
def Request.principal (req : Request) : String :=
  match req.subject with
  | some subject => if subject ≠ "" then subject else "anon:" ++ req.peerIp
  | none => "anon:" ++ req.peerIp

def Request.cacheKey (req : Request) : String :=
  Idempotency.cacheKey sha256Hex req.principal req.method.text req.path req.idempotencyKey

/-- `read_stored_entry`; what is no entry is dropped. -/
def readStoredEntry (ck : String) : CacheM (Option Entry) := do
  match ← cache (.get ck) with
  | none => pure none
  | some (.entry stored) => pure (some stored)
  | some (.text _) => do
    cache (.del ck)
    pure none

/-- What `pre_handle` leaves with a request for `post_handle`. -/
structure Attributes where
  cacheKey : String
  bodyHash : String
  lockKey : String

/-- What `pre_handle` returns: an answer, or that the handler is to run. -/
inductive Verdict where
  | respond (served : Served)
  | proceed (attributes : Option Attributes)

def answerFrom (stored : Entry) (bodyHash : String) : Served :=
  if stored.reqHash ≠ bodyHash then .conflict else .replayed stored

/-- The part of `pre_handle` that comes after its checks. -/
def track (cfg : Config) (req : Request) : CacheM Verdict := do
  let bodyHash := sha256Hex req.body
  let ck := req.cacheKey sha256Hex
  match ← readStoredEntry ck with
  | some stored => pure (.respond (answerFrom stored bodyHash))
  | none => do
    if ← cache (.setNx (lockKey ck) bodyHash) then
      pure (.proceed (some ⟨ck, bodyHash, lockKey ck⟩))
    else do
      match ← readStoredEntry ck with
      | some stored => pure (.respond (answerFrom stored bodyHash))
      | none => pure (.respond (.inProgress cfg.lockTtlSec))

def preHandle (setup : Setup) (req : Request) : CacheM Verdict :=
  match setup.config with
  | none => pure (.proceed none)
  | some cfg =>
    if ¬ cfg.enabled then pure (.proceed none)
    else if ¬ isMutating req.method then pure (.proceed none)
    else if req.idempotencyKey = "" then pure (.proceed none)
    else if ¬ setup.cacheInitialized then pure (.proceed none)
    else if cfg.maxBodyBytes < req.body.size then pure (.respond .tooLarge)
    else track sha256Hex cfg req

/-- The headers that are not stored. -/
def kSkip : List String :=
  ["content-length", "date", "server", "connection", "transfer-encoding", "content-type"]

/-- The entry that `post_handle` stores of a response. -/
def entryOf (bodyHash : String) (resp : Response) : Entry where
  reqHash := bodyHash
  status := resp.status
  contentType := if resp.contentType = "" then "application/json" else resp.contentType
  headers := resp.headers.filter fun h => h.1.toLower ∉ kSkip
  body := resp.body

def Response.Successful (resp : Response) : Prop := 200 ≤ resp.status ∧ resp.status < 300

instance (resp : Response) : Decidable resp.Successful := inferInstanceAs (Decidable (_ ∧ _))

/-- Stores a successful response that is not too large. -/
def store (cfg : Config) (a : Attributes) (resp : Response) : CacheM Unit :=
  if ¬ resp.Successful then pure ()
  else if cfg.maxResponseBytes < resp.body.size then pure ()
  else
    match (entryOf a.bodyHash resp).dump with
    | none => pure ()
    | some value => cache (.set a.cacheKey value)

def postHandle (setup : Setup) (attributes : Option Attributes) (resp : Response) : CacheM Unit :=
  match setup.config, attributes with
  | some cfg, some a =>
    if ¬ cfg.enabled then pure ()
    else if ¬ setup.cacheInitialized then pure ()
    else do
      store cfg a resp
      cache (.compareAndDelete a.lockKey a.bodyHash)
  | _, _ => pure ()

/-- A request from its arrival to its answer.  `resp` is what its handler gives if it runs. -/
def serve (setup : Setup) (req : Request) (resp : Response) : CacheM Unit := do
  match ← preHandle sha256Hex setup req with
  | .respond served => cache (.answer served)
  | .proceed attributes => do
    cache (.handle resp)
    postHandle setup attributes resp
    cache (.answer (.executed resp))

end

end Idempotency

end CyberAccountant.Security
