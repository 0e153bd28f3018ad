import CyberAccountant.Library.Program
import CyberAccountant.Library.Table
import Mathlib.Logic.Function.Basic

/-! The keys of the job queue in Redis and the commands on them: the stored jobs, the lists, the two
sorted sets and the index of the dead-letter queue. -/

namespace CyberAccountant.Jobs

open CyberAccountant.Library

/-- A UUID, by its number. -/
abbrev JobId := Nat

def dlqKey (type : String) : String := "jobs:dlq:" ++ type

def kDlqAllKey : String := "jobs:dlq:_all"

/-- A type of jobs.  The type whose dead-letter list would stand under the key of the index is left
out: Redis refuses the commands of the one kind on a key of the other. -/
abbrev JobType := { type : String // dlqKey type ≠ kDlqAllKey }

inductive JobStatus where
  | pending
  | processing
  | completed
  | failed
  | dead
  deriving DecidableEq

def JobStatus.text : JobStatus → String
  | .pending => "pending"
  | .processing => "processing"
  | .completed => "completed"
  | .failed => "failed"
  | .dead => "dead"

/-- What the queue reads and writes of a job.  Its id is the key that it is stored under. -/
structure Job where
  type : JobType
  payload : String
  status : JobStatus
  result : Option String
  error : String
  workerId : String
  traceId : String
  retryCount : Int
  maxRetries : Int
  deriving DecidableEq

/-- The value of a job's key, and whether the key expires. -/
structure Stored where
  job : Job
  expires : Bool

inductive ListKey where
  | queue (type : JobType)
  | dlq (type : JobType)
  | processing (workerId : String)
  deriving DecidableEq

inductive SetKey where
  | delayed
  | leases
  deriving DecidableEq

/-- Members with their scores, in the order of scores and then of members. -/
abbrev SortedSet := List (JobId × Int)

namespace SortedSet

def members (z : SortedSet) : List JobId := z.map Prod.fst

def remove (z : SortedSet) (id : JobId) : SortedSet := z.filter (·.1 ≠ id)

/-- Puts an entry before the first that comes after it. -/
def insertEntry (entry : JobId × Int) : SortedSet → SortedSet
  | [] => [entry]
  | e :: z =>
    if entry.2 < e.2 ∨ entry.2 = e.2 ∧ entry.1 < e.1 then entry :: e :: z
    else e :: insertEntry entry z

def add (z : SortedSet) (id : JobId) (score : Int) : SortedSet := insertEntry (id, score) (z.remove id)

/-- The members with a score from zero to `max`. -/
def upTo (z : SortedSet) (max : Int) : List JobId :=
  members (z.filter fun e => 0 ≤ e.2 ∧ e.2 ≤ max)

theorem mem_members_insertEntry {entry : JobId × Int} {z : SortedSet} {id : JobId} :
    id ∈ members (insertEntry entry z) ↔ id = entry.1 ∨ id ∈ z.members := by
  induction z with
  | nil => simp [insertEntry, members]
  | cons e z ih =>
    unfold insertEntry
    split
    · simp [members]
    · simp only [members, List.map_cons, List.mem_cons] at ih ⊢
      rw [ih]
      exact or_left_comm

@[simp] theorem mem_members_remove {z : SortedSet} {id id' : JobId} :
    id' ∈ members (z.remove id) ↔ id' ≠ id ∧ id' ∈ z.members := by
  simp only [members, remove, List.mem_map, List.mem_filter, decide_eq_true_eq]
  constructor
  · rintro ⟨e, ⟨hMem, hNe⟩, rfl⟩
    exact ⟨hNe, e, hMem, rfl⟩
  · rintro ⟨hNe, e, hMem, rfl⟩
    exact ⟨e, ⟨hMem, hNe⟩, rfl⟩

@[simp] theorem mem_members_add {z : SortedSet} {id id' : JobId} {score : Int} :
    id' ∈ members (z.add id score) ↔ id' = id ∨ id' ∈ z.members := by
  rw [add, mem_members_insertEntry, mem_members_remove]
  by_cases h : id' = id <;> simp [h]

theorem count_insertEntry {entry : JobId × Int} {z : SortedSet} {id : JobId} :
    (members (insertEntry entry z)).count id = z.members.count id + if entry.1 = id then 1 else 0 := by
  induction z with
  | nil => simp [insertEntry, members, List.count_singleton]
  | cons e z ih =>
    unfold insertEntry
    split
    · simp [members, List.count_cons]
    · simp only [members, List.map_cons, List.count_cons] at ih ⊢
      rw [ih]
      omega

theorem count_remove_of_ne {z : SortedSet} {id id' : JobId} (h : id ≠ id') :
    (members (z.remove id')).count id = z.members.count id := by
  induction z with
  | nil => rfl
  | cons e z ih =>
    simp only [members, remove, List.filter_cons, List.map_cons, List.count_cons] at ih ⊢
    split
    · rw [List.map_cons, List.count_cons, ih]
    · rename_i hSame
      have hNe : e.1 ≠ id := by
        have hEq : e.1 = id' := by simpa using hSame
        rw [hEq]
        exact h.symm
      rw [ih, if_neg (by simpa using hNe), Nat.add_zero]

theorem count_add_of_ne {z : SortedSet} {id id' : JobId} {score : Int} (h : id ≠ id') :
    (members (z.add id' score)).count id = z.members.count id := by
  rw [add, count_insertEntry, count_remove_of_ne h, if_neg h.symm, Nat.add_zero]

/-- An id is at most once in a set that it has just been added to. -/
theorem count_add_same {z : SortedSet} {id : JobId} {score : Int} : (members (z.add id score)).count id = 1 := by
  have hNone : (members (z.remove id)).count id = 0 :=
    List.count_eq_zero.mpr fun h => (mem_members_remove.mp h).1 rfl
  rw [add, count_insertEntry, hNone, if_pos rfl]

theorem mem_members_of_upTo {z : SortedSet} {max : Int} {id : JobId} (h : id ∈ z.upTo max) :
    id ∈ z.members := by
  obtain ⟨e, hMem, rfl⟩ := List.mem_map.mp h
  exact List.mem_map_of_mem (List.mem_filter.mp hMem).1

end SortedSet

/-- The part of Redis that holds the job queue, and the clock. -/
structure Redis where
  blobs : Table JobId Stored
  lists : ListKey → List JobId
  sets : SetKey → SortedSet
  dlqAll : List JobId
  now : Int

namespace Redis

def empty (now : Int) : Redis where
  blobs := Table.empty
  lists _ := []
  sets _ := []
  dlqAll := []
  now := now

/-- The status of a stored job. -/
def statusOf (r : Redis) (id : JobId) : Option JobStatus := (r.blobs id).map (·.job.status)

def store (r : Redis) (id : JobId) (job : Job) (expires : Bool) : Redis :=
  { r with blobs := r.blobs.put id ⟨job, expires⟩ }

def setList (r : Redis) (key : ListKey) (ids : List JobId) : Redis :=
  { r with lists := Function.update r.lists key ids }

def setSorted (r : Redis) (key : SetKey) (z : SortedSet) : Redis :=
  { r with sets := Function.update r.sets key z }

/-- `RPOP`. -/
def popRight (r : Redis) (key : ListKey) : Option (JobId × Redis) :=
  (r.lists key).getLast?.map fun id => (id, r.setList key (r.lists key).dropLast)

end Redis

/-- The commands that the queue uses. -/
inductive Command where
  | get (id : JobId)
  | set (id : JobId) (job : Job)
  | setex (id : JobId) (job : Job)
  | lpush (key : ListKey) (id : JobId)
  | rpush (key : ListKey) (id : JobId)
  /-- With a count of zero. -/
  | lrem (key : ListKey) (id : JobId)
  | lrange (key : ListKey)
  | del (key : ListKey)
  | brpoplpush (source target : ListKey)
  | brpop (types : List JobType)
  | zadd (key : SetKey) (id : JobId) (score : Int)
  | zrem (key : SetKey) (id : JobId)
  | zrangebyscore (key : SetKey) (max : Int)
  | saddDlqAll (id : JobId)
  | sremDlqAll (id : JobId)
  /-- `now_epoch_millis`. -/
  | clock

/-- The reply of a command, where it is looked at. -/
@[reducible] def Command.Reply : Command → Type
  | .get _ => Option Job
  | .lrange _ | .zrangebyscore _ _ => List JobId
  | .brpoplpush _ _ => Option JobId
  | .brpop _ => Option (JobType × JobId)
  | .zrem _ _ => Bool
  | .clock => Int
  | _ => Unit

/-- What a command replies and does.  A blocking command on empty lists ends with its timeout. -/
def exec : (c : Command) → Redis → c.Reply × Redis
  | .get id, r => ((r.blobs id).map Stored.job, r)
  | .set id job, r => ((), r.store id job false)
  | .setex id job, r => ((), r.store id job true)
  | .lpush key id, r => ((), r.setList key (id :: r.lists key))
  | .rpush key id, r => ((), r.setList key (r.lists key ++ [id]))
  | .lrem key id, r => ((), r.setList key ((r.lists key).filter (· ≠ id)))
  | .lrange key, r => (r.lists key, r)
  | .del key, r => ((), r.setList key [])
  | .brpoplpush source target, r =>
    match r.popRight source with
    | none => (none, r)
    | some (id, popped) => (some id, popped.setList target (id :: popped.lists target))
  | .brpop types, r =>
    match types.find? fun type => r.lists (.queue type) ≠ [] with
    | none => (none, r)
    | some type =>
      match r.popRight (.queue type) with
      | none => (none, r)
      | some (id, popped) => (some (type, id), popped)
  | .zadd key id score, r => ((), r.setSorted key ((r.sets key).add id score))
  | .zrem key id, r => (decide (id ∈ (r.sets key).members), r.setSorted key ((r.sets key).remove id))
  | .zrangebyscore key max, r => ((r.sets key).upTo max, r)
  | .saddDlqAll id, r => ((), { r with dlqAll := r.dlqAll.insert id })
  | .sremDlqAll id, r => ((), { r with dlqAll := r.dlqAll.filter (· ≠ id) })
  | .clock, r => (r.now, r)

/-! ### What the commands do to the keys -/

namespace Redis

variable {r popped : Redis} {key key' : ListKey} {skey skey' : SetKey} {id id' : JobId} {job : Job}
  {expires : Bool} {ids : List JobId} {z : SortedSet}

@[simp] theorem store_same : (r.store id job expires).blobs id = some ⟨job, expires⟩ :=
  Table.put_same _ _ _

theorem store_ne (h : id' ≠ id) : (r.store id job expires).blobs id' = r.blobs id' := Table.put_ne h

theorem statusOf_store : (r.store id job expires).statusOf id' =
    if id' = id then some job.status else r.statusOf id' := by
  unfold statusOf
  by_cases h : id' = id
  · simp [h]
  · rw [store_ne h, if_neg h]

@[simp] theorem store_lists : (r.store id job expires).lists = r.lists := rfl

@[simp] theorem store_sets : (r.store id job expires).sets = r.sets := rfl

@[simp] theorem store_dlqAll : (r.store id job expires).dlqAll = r.dlqAll := rfl

@[simp] theorem setList_blobs : (r.setList key ids).blobs = r.blobs := rfl

@[simp] theorem setList_sets : (r.setList key ids).sets = r.sets := rfl

@[simp] theorem setList_dlqAll : (r.setList key ids).dlqAll = r.dlqAll := rfl

@[simp] theorem setList_same : (r.setList key ids).lists key = ids := Function.update_self ..

theorem setList_ne (h : key' ≠ key) : (r.setList key ids).lists key' = r.lists key' :=
  Function.update_of_ne h ..

@[simp] theorem setSorted_blobs : (r.setSorted skey z).blobs = r.blobs := rfl

@[simp] theorem setSorted_lists : (r.setSorted skey z).lists = r.lists := rfl

@[simp] theorem setSorted_dlqAll : (r.setSorted skey z).dlqAll = r.dlqAll := rfl

@[simp] theorem setSorted_same : (r.setSorted skey z).sets skey = z := Function.update_self ..

theorem setSorted_ne (h : skey' ≠ skey) : (r.setSorted skey z).sets skey' = r.sets skey' :=
  Function.update_of_ne h ..

/-- The ids of a list after one of them has been popped. -/
theorem popRight_eq_some (h : r.popRight key = some (id, popped)) :
    popped = r.setList key (r.lists key).dropLast ∧ r.lists key = (r.lists key).dropLast ++ [id] := by
  obtain ⟨last, hLast, hPair⟩ := Option.map_eq_some_iff.mp h
  obtain ⟨rfl, rfl⟩ := Prod.mk.inj hPair
  obtain ⟨ids, hIds⟩ := List.getLast?_eq_some_iff.mp hLast
  refine ⟨rfl, ?_⟩
  rw [hIds, List.dropLast_concat]

end Redis

end CyberAccountant.Jobs
