import CyberAccountant.Jobs.Redis
import CyberAccountant.Library.Word64

/-! The operations of the job queue, each as the program of the commands that it sends to Redis. -/

namespace CyberAccountant.Jobs

open CyberAccountant.Library CyberAccountant.Library.Program

/-- The settings of the queue. -/
structure Config where
  defaultMaxRetries : Int
  retryBackoffBaseMs : Int
  retryBackoffMaxMs : Int
  visibilityTimeoutMs : Int

/-- An operation on Redis. -/
abbrev RedisM (α : Type) : Type := Program Command Command.Reply α

/-- One command to Redis. -/
def redis (c : Command) : RedisM c.Reply := perform c

inductive QueueError where
  | jobNotFound (id : JobId)
  deriving DecidableEq

def QueueError.what : QueueError → String
  | .jobNotFound id => "Job not found: " ++ toString id

/-- `backoff_delay_ms_`. -/
def backoffDelayMs (cfg : Config) (retryCount : Int) : Int :=
  if cfg.retryBackoffBaseMs ≤ 0 then 0
  else
    let shift := min (if 0 < retryCount then retryCount - 1 else 0) 30
    let delay := wrap64 (cfg.retryBackoffBaseMs * 2 ^ shift.toNat)
    if delay ≤ 0 ∨ cfg.retryBackoffMaxMs < delay then cfg.retryBackoffMaxMs else delay

/-- `clear_lease_`. -/
def clearLease (cfg : Config) (id : JobId) : RedisM Unit :=
  if cfg.visibilityTimeoutMs ≤ 0 then pure ()
  else do
    let _ ← redis (.zrem .leases id)

/-- Takes the job off the processing list of the worker that it names. -/
def dropProcessing (id : JobId) (job : Job) : RedisM Unit :=
  if job.workerId = "" then pure () else redis (.lrem (.processing job.workerId) id)

/-- `submit`, with the id that is drawn for the job. -/
def submit (cfg : Config) (id : JobId) (type : JobType) (payload : String) (maxRetries : Int) :
    RedisM Job := do
  let job : Job := {
    type, payload
    status := .pending
    result := none
    error := ""
    workerId := ""
    traceId := ""
    retryCount := 0
    maxRetries := if 0 ≤ maxRetries then maxRetries else cfg.defaultMaxRetries }
  redis (.set id job)
  redis (.lpush (.queue type) id)
  pure job

/-- The first part of `pick`: takes an id off a queue into the processing list of the worker. -/
def claimId (types : List JobType) (workerId : String) : RedisM (Option JobId) :=
  match types with
  | [type] => redis (.brpoplpush (.queue type) (.processing workerId))
  | types => do
    match ← redis (.brpop types) with
    | none => pure none
    | some (_, id) => do
      redis (.rpush (.processing workerId) id)
      pure (some id)

/-- The second part of `pick`: reads the job of the id, and marks and leases it. -/
def claimJob (cfg : Config) (workerId : String) (id : JobId) : RedisM (Option (JobId × Job)) := do
  match ← redis (.get id) with
  | none => do
    redis (.lrem (.processing workerId) id)
    pure none
  | some stored => do
    let job := { stored with status := .processing, workerId }
    redis (.set id job)
    if 0 < cfg.visibilityTimeoutMs then do
      let now ← redis .clock
      redis (.zadd .leases id (now + cfg.visibilityTimeoutMs))
      pure (some (id, job))
    else pure (some (id, job))

def pick (cfg : Config) (types : List JobType) (workerId : String) : RedisM (Option (JobId × Job)) := do
  match ← claimId types workerId with
  | none => pure none
  | some id => claimJob cfg workerId id

def complete (cfg : Config) (id : JobId) (result : String) : RedisM (Except QueueError Unit) := do
  match ← redis (.get id) with
  | none => pure (.error (.jobNotFound id))
  | some stored => do
    let job := { stored with status := .completed, result := some result }
    redis (.setex id job)
    dropProcessing id job
    clearLease cfg id
    pure (.ok ())

/-- Puts a job that has failed into the delayed set, or on its queue where there is no delay. -/
def requeue (cfg : Config) (id : JobId) (job : Job) : RedisM Unit :=
  let delay := backoffDelayMs cfg job.retryCount
  if 0 < delay then do
    let now ← redis .clock
    redis (.zadd .delayed id (now + delay))
  else
    redis (.lpush (.queue job.type) id)

/-- Puts a job that has failed back for a retry. -/
def retry (cfg : Config) (id : JobId) (job : Job) (error : String) : RedisM Unit := do
  redis (.set id { job with status := .pending, error })
  requeue cfg id job

/-- Sends a job that has no retries left to the dead-letter queue. -/
def giveUp (id : JobId) (job : Job) (error : String) : RedisM Unit := do
  redis (.set id { job with status := .dead, error })
  redis (.lpush (.dlq job.type) id)
  redis (.saddDlqAll id)

/-- What becomes of a job that has failed. -/
def settle (cfg : Config) (id : JobId) (job : Job) (error : String) : RedisM Unit :=
  if job.retryCount < job.maxRetries then retry cfg id job error else giveUp id job error

def fail (cfg : Config) (id : JobId) (error : String) : RedisM (Except QueueError Unit) := do
  match ← redis (.get id) with
  | none => pure (.error (.jobNotFound id))
  | some stored => do
    let job := { stored with retryCount := stored.retryCount + 1 }
    dropProcessing id job
    clearLease cfg id
    settle cfg id job error
    pure (.ok ())

def deadLetter (cfg : Config) (id : JobId) (error : String) : RedisM (Except QueueError Unit) := do
  match ← redis (.get id) with
  | none => pure (.error (.jobNotFound id))
  | some job => do
    dropProcessing id job
    clearLease cfg id
    redis (.lpush (.dlq job.type) id)
    redis (.saddDlqAll id)
    redis (.set id { job with status := .dead, error })
    pure (.ok ())

def requeueFromDlq (id : JobId) : RedisM Bool := do
  match ← redis (.get id) with
  | none => pure false
  | some job =>
    if job.status ≠ .dead then pure false
    else do
      redis (.lrem (.dlq job.type) id)
      redis (.sremDlqAll id)
      redis (.set id { job with status := .pending, retryCount := 0, error := "" })
      redis (.lpush (.queue job.type) id)
      pure true

/-- Puts a job that was left in a processing list back on its queue. -/
def recoverJob (recovered : Nat) (id : JobId) : RedisM Nat := do
  match ← redis (.get id) with
  | none => pure recovered
  | some job => do
    redis (.set id { job with status := .pending, workerId := "" })
    redis (.lpush (.queue job.type) id)
    pure (recovered + 1)

def recoverProcessing (workerId : String) : RedisM Nat :=
  if workerId = "" then pure 0
  else do
    let ids ← redis (.lrange (.processing workerId))
    let recovered ← ids.foldlM recoverJob 0
    redis (.del (.processing workerId))
    pure recovered

/-- Takes an id off the delayed set and puts it on its queue, unless another worker took it. -/
def promoteJob (moved : Nat) (id : JobId) : RedisM Nat := do
  if ← redis (.zrem .delayed id) then do
    match ← redis (.get id) with
    | none => pure moved
    | some job => do
      redis (.lpush (.queue job.type) id)
      pure (moved + 1)
  else pure moved

def promoteDueJobs (cfg : Config) : RedisM Nat :=
  if cfg.retryBackoffBaseMs ≤ 0 then pure 0
  else do
    let now ← redis .clock
    let ids ← redis (.zrangebyscore .delayed now)
    ids.foldlM promoteJob 0

/-- Takes an id off the leases and fails its job, unless another worker took it. -/
def reapLease (cfg : Config) (reaped : Nat) (id : JobId) : RedisM Nat := do
  if ← redis (.zrem .leases id) then do
    match ← fail cfg id "visibility timeout exceeded" with
    | .error _ => pure reaped
    | .ok _ => pure (reaped + 1)
  else pure reaped

def reapExpiredLeases (cfg : Config) : RedisM Nat :=
  if cfg.visibilityTimeoutMs ≤ 0 then pure 0
  else do
    let now ← redis .clock
    let ids ← redis (.zrangebyscore .leases now)
    ids.foldlM (reapLease cfg) 0

def cancel (cfg : Config) (id : JobId) : RedisM Bool := do
  match ← redis (.get id) with
  | none => pure false
  | some stored =>
    if stored.status = .completed ∨ stored.status = .dead ∨ stored.status = .failed then pure false
    else do
      let job := { stored with status := .failed, error := "cancelled" }
      redis (.setex id job)
      redis (.lrem (.queue job.type) id)
      if stored.status = .processing then dropProcessing id job else pure ()
      clearLease cfg id
      pure true

def setTraceId (id : JobId) (traceId : String) : RedisM Unit := do
  match ← redis (.get id) with
  | none => pure ()
  | some job => redis (.set id { job with traceId })

inductive Operation where
  | submit (id : JobId) (type : JobType) (payload : String) (maxRetries : Int)
  | pick (types : List JobType) (workerId : String)
  | complete (id : JobId) (result : String)
  | fail (id : JobId) (error : String)
  | deadLetter (id : JobId) (error : String)
  | cancel (id : JobId)
  | promoteDueJobs
  | reapExpiredLeases
  | recoverProcessing (workerId : String)
  | requeueFromDlq (id : JobId)
  | setTraceId (id : JobId) (traceId : String)

/-- What an operation returns. -/
inductive Outcome where
  | submitted (job : Job)
  | picked (job : Option (JobId × Job))
  | reported (result : Except QueueError Unit)
  | answered (yes : Bool)
  | counted (jobs : Nat)
  | traced

def Operation.program (cfg : Config) : Operation → RedisM Outcome
  | .submit id type payload maxRetries => .submitted <$> Jobs.submit cfg id type payload maxRetries
  | .pick types workerId => .picked <$> Jobs.pick cfg types workerId
  | .complete id result => .reported <$> Jobs.complete cfg id result
  | .fail id error => .reported <$> Jobs.fail cfg id error
  | .deadLetter id error => .reported <$> Jobs.deadLetter cfg id error
  | .cancel id => .answered <$> Jobs.cancel cfg id
  | .promoteDueJobs => .counted <$> Jobs.promoteDueJobs cfg
  | .reapExpiredLeases => .counted <$> Jobs.reapExpiredLeases cfg
  | .recoverProcessing workerId => .counted <$> Jobs.recoverProcessing workerId
  | .requeueFromDlq id => .answered <$> Jobs.requeueFromDlq id
  | .setTraceId id traceId => (fun _ => .traced) <$> Jobs.setTraceId id traceId

/-! ### Changes that come of themselves -/

/-- Time passes, or a key that expires does. -/
inductive Elapse : Redis → Redis → Prop where
  | tick (r : Redis) (now : Int) : Elapse r { r with now }
  | expire (r : Redis) (id : JobId) (stored : Stored) (hStored : r.blobs id = some stored)
      (hExpires : stored.expires = true) : Elapse r { r with blobs := r.blobs.drop id }

end CyberAccountant.Jobs
