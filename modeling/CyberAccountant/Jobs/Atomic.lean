import CyberAccountant.Jobs.Queue
import CyberAccountant.Library.Transition

/-! The operations of the job queue one after another, each as one step. -/

namespace CyberAccountant.Jobs

open CyberAccountant.Library CyberAccountant.Library.Program

/-- The keys of Redis, the ids that have been drawn for jobs, and the ids that `pick` has handed out. -/
structure QueueWorld where
  redis : Redis
  drawn : List JobId
  picked : List JobId

/-- The id that the operation hands out. -/
def Outcome.handedOut : Outcome → Option JobId
  | .picked (some (id, _)) => some id
  | _ => none

namespace QueueWorld

def start (now : Int) : QueueWorld := ⟨.empty now, [], []⟩

/-- What an operation returns. -/
def outcome (cfg : Config) (w : QueueWorld) (op : Operation) : Outcome :=
  ((op.program cfg).run exec w.redis).1

/-- The state after an operation. -/
def after (cfg : Config) (w : QueueWorld) (op : Operation) : QueueWorld where
  redis := ((op.program cfg).run exec w.redis).2
  drawn :=
    match op with
    | .submit id _ _ _ => id :: w.drawn
    | _ => w.drawn
  picked :=
    match w.outcome cfg op with
    | .picked (some (id, _)) => id :: w.picked
    | _ => w.picked

theorem after_redis {cfg : Config} {w : QueueWorld} {op : Operation} {α : Type} {p : RedisM α} {f : α → Outcome}
    (h : op.program cfg = f <$> p) : (w.after cfg op).redis = (p.run exec w.redis).2 := by
  change ((op.program cfg).run exec w.redis).2 = _
  rw [h, run_map]

theorem outcome_eq {cfg : Config} {w : QueueWorld} {op : Operation} {α : Type} {p : RedisM α} {f : α → Outcome}
    (h : op.program cfg = f <$> p) : w.outcome cfg op = f (p.run exec w.redis).1 := by
  rw [outcome, h, run_map]

end QueueWorld

/-- An id is drawn once, and workers complete and fail jobs that they have picked. -/
def Proper (op : Operation) (w : QueueWorld) : Prop :=
  match op with
  | .submit id _ _ _ => id ∉ w.drawn
  | .complete id _ | .fail id _ => id ∈ w.picked
  | _ => True

inductive AtomicStep (cfg : Config) (Allowed : Operation → QueueWorld → Prop) :
    QueueWorld → QueueWorld → Prop where
  | operation (w : QueueWorld) (op : Operation) (hAllowed : Allowed op w) :
      AtomicStep cfg Allowed w (w.after cfg op)
  | elapse (w : QueueWorld) (r : Redis) (hElapse : Elapse w.redis r) :
      AtomicStep cfg Allowed w { w with redis := r }

def reminder : JobType := ⟨"reminder", by decide⟩

/-- A second of backoff, and leases of a minute. -/
def usualConfig : Config := ⟨3, 1000, 60000, 60000⟩

/-- Job 1 has been submitted. -/
def reminded : QueueWorld := (QueueWorld.start 0).after usualConfig (.submit 1 reminder "" 3)

/-- A worker has picked it. -/
def remindedInWork : QueueWorld := reminded.after usualConfig (.pick [reminder] "worker-1")

theorem remindedInWork_run : Run (AtomicStep usualConfig Proper) (.start 0) remindedInWork := by
  have hSubmit : AtomicStep usualConfig Proper (.start 0) reminded := .operation _ _ List.not_mem_nil
  have hPick : AtomicStep usualConfig Proper reminded remindedInWork := .operation _ _ trivial
  exact (Relation.ReflTransGen.single hSubmit).tail hPick

/-! ### Commands that concern one job -/

/-- The command reads, or changes nothing but what stands under the id. -/
def Concerns (id : JobId) : Command → Prop
  | .get _ | .lrange _ | .zrangebyscore _ _ | .clock => True
  | .set id' _ | .setex id' _ | .lpush _ id' | .rpush _ id' | .lrem _ id' | .zadd _ id' _ | .zrem _ id'
  | .saddDlqAll id' | .sremDlqAll id' => id' = id
  | .del _ | .brpoplpush _ _ | .brpop _ => False

/-- The two states have the same of the job. -/
structure SameFor (id : JobId) (r r' : Redis) : Prop where
  blob : r'.blobs id = r.blobs id
  list : ∀ key, (r'.lists key).count id = (r.lists key).count id
  sorted : ∀ key, (r'.sets key).members.count id = (r.sets key).members.count id

namespace SameFor

variable {id id' : JobId} {r r' : Redis}

theorem refl (r : Redis) : SameFor id r r := ⟨rfl, fun _ => rfl, fun _ => rfl⟩

theorem trans {a b c : Redis} (hAB : SameFor id a b) (hBC : SameFor id b c) : SameFor id a c :=
  ⟨hBC.blob.trans hAB.blob, fun key => (hBC.list key).trans (hAB.list key),
    fun key => (hBC.sorted key).trans (hAB.sorted key)⟩

theorem statusOf (h : SameFor id r r') : r'.statusOf id = r.statusOf id := by
  unfold Redis.statusOf
  rw [h.blob]

theorem mem_list (h : SameFor id r r') {key : ListKey} : id ∈ r'.lists key ↔ id ∈ r.lists key := by
  rw [← List.count_pos_iff, ← List.count_pos_iff, h.list]

theorem mem_sorted (h : SameFor id r r') {key : SetKey} :
    id ∈ (r'.sets key).members ↔ id ∈ (r.sets key).members := by
  rw [← List.count_pos_iff, ← List.count_pos_iff, h.sorted]

theorem setList {key : ListKey} {ids : List JobId} (h : ids.count id = (r.lists key).count id) :
    SameFor id r (r.setList key ids) := by
  refine ⟨rfl, fun key' => ?_, fun _ => rfl⟩
  by_cases hCase : key' = key
  · rw [hCase, Redis.setList_same, h]
  · rw [Redis.setList_ne hCase]

theorem setSorted {key : SetKey} {z : SortedSet} (h : z.members.count id = (r.sets key).members.count id) :
    SameFor id r (r.setSorted key z) := by
  refine ⟨rfl, fun _ => rfl, fun key' => ?_⟩
  by_cases hCase : key' = key
  · rw [hCase, Redis.setSorted_same, h]
  · rw [Redis.setSorted_ne hCase]

/-- A command that concerns another job. -/
theorem of_concerns {c : Command} (hNe : id ≠ id') (h : Concerns id' c) : SameFor id r (exec c r).2 := by
  cases c with
  | get _ | lrange _ | zrangebyscore _ _ | clock => exact refl r
  | set _ job =>
    obtain rfl := h
    exact ⟨Redis.store_ne hNe, fun _ => rfl, fun _ => rfl⟩
  | setex _ job =>
    obtain rfl := h
    exact ⟨Redis.store_ne hNe, fun _ => rfl, fun _ => rfl⟩
  | lpush key _ =>
    obtain rfl := h
    exact setList (List.count_cons_of_ne hNe.symm)
  | rpush key _ =>
    obtain rfl := h
    refine setList ?_
    rw [List.count_append, List.count_singleton, if_neg (by simpa using hNe.symm), Nat.add_zero]
  | lrem key _ =>
    obtain rfl := h
    exact setList (List.count_filter (by simpa using hNe))
  | zadd key _ score =>
    obtain rfl := h
    exact setSorted (SortedSet.count_add_of_ne hNe)
  | zrem key _ =>
    obtain rfl := h
    exact setSorted (SortedSet.count_remove_of_ne hNe)
  | saddDlqAll _ | sremDlqAll _ => exact ⟨rfl, fun _ => rfl, fun _ => rfl⟩
  | del _ | brpoplpush _ _ | brpop _ => exact h.elim

/-- A program of which every command concerns another job. -/
theorem of_calls {α : Type} {p : RedisM α} (hNe : id ≠ id') (h : p.Calls (Concerns id')) (r : Redis) :
    SameFor id r (p.run exec r).2 := by
  have hStep : ∀ c s, Concerns id' c → SameFor id s (exec c s).2 := fun _ _ hC => of_concerns hNe hC
  exact Calls.run refl (fun _ _ _ => trans) hStep h r

end SameFor

/-- What comes after `GET` is called for the job that it finds. -/
theorem get_calls {α : Type} {P : Command → Prop} {id : JobId} {none' : RedisM α} {some' : Job → RedisM α}
    (hGet : P (.get id)) (hNone : none'.Calls P) (hSome : ∀ job, (some' job).Calls P) :
    (redis (.get id) >>= fun
      | none => none'
      | some job => some' job).Calls P :=
  ⟨hGet, fun reply => by cases reply with | none => exact hNone | some job => exact hSome job⟩

section concerns

variable {cfg : Config} {id : JobId} {job : Job} {error : String}

theorem clearLease_concerns : (clearLease cfg id).Calls (Concerns id) := by
  unfold clearLease
  split
  · trivial
  · exact ⟨rfl, fun _ => trivial⟩

theorem dropProcessing_concerns : (dropProcessing id job).Calls (Concerns id) := by
  unfold dropProcessing
  split
  · trivial
  · exact ⟨rfl, fun _ => trivial⟩

theorem requeue_concerns : (requeue cfg id job).Calls (Concerns id) := by
  unfold requeue
  dsimp only
  split
  · exact ⟨trivial, fun _ => ⟨rfl, fun _ => trivial⟩⟩
  · exact ⟨rfl, fun _ => trivial⟩

theorem settle_concerns : (settle cfg id job error).Calls (Concerns id) := by
  unfold settle
  split
  · exact ⟨rfl, fun _ => requeue_concerns⟩
  · exact ⟨rfl, fun _ => ⟨rfl, fun _ => ⟨rfl, fun _ => trivial⟩⟩⟩

theorem get_concerns {α : Type} {none' : RedisM α} {some' : Job → RedisM α} (hNone : none'.Calls (Concerns id))
    (hSome : ∀ job, (some' job).Calls (Concerns id)) :
    (redis (.get id) >>= fun
      | none => none'
      | some job => some' job).Calls (Concerns id) :=
  get_calls trivial hNone hSome

theorem submit_concerns {type : JobType} {payload : String} {maxRetries : Int} :
    (submit cfg id type payload maxRetries).Calls (Concerns id) :=
  ⟨rfl, fun _ => ⟨rfl, fun _ => trivial⟩⟩

theorem claimJob_concerns {workerId : String} : (claimJob cfg workerId id).Calls (Concerns id) := by
  refine get_concerns ⟨rfl, fun _ => trivial⟩ fun job => ⟨rfl, fun _ => ?_⟩
  split
  · exact ⟨trivial, fun _ => ⟨rfl, fun _ => trivial⟩⟩
  · trivial

theorem complete_concerns {result : String} : (complete cfg id result).Calls (Concerns id) :=
  get_concerns trivial fun _ => ⟨rfl, fun _ => dropProcessing_concerns.bind fun _ =>
    clearLease_concerns.bind fun _ => trivial⟩

theorem fail_concerns : (fail cfg id error).Calls (Concerns id) :=
  get_concerns trivial fun _ => dropProcessing_concerns.bind fun _ => clearLease_concerns.bind fun _ =>
    settle_concerns.bind fun _ => trivial

theorem deadLetter_concerns : (deadLetter cfg id error).Calls (Concerns id) :=
  get_concerns trivial fun _ => dropProcessing_concerns.bind fun _ => clearLease_concerns.bind fun _ =>
    ⟨rfl, fun _ => ⟨rfl, fun _ => ⟨rfl, fun _ => trivial⟩⟩⟩

theorem cancel_concerns : (cancel cfg id).Calls (Concerns id) := by
  refine get_concerns trivial fun job => ?_
  split
  · trivial
  · refine ⟨rfl, fun _ => ⟨rfl, fun _ => ?_⟩⟩
    split
    · exact dropProcessing_concerns.bind fun _ => clearLease_concerns.bind fun _ => trivial
    · exact clearLease_concerns.bind fun _ => trivial

theorem requeueFromDlq_concerns : (requeueFromDlq id).Calls (Concerns id) := by
  refine get_concerns trivial fun job => ?_
  split
  · trivial
  · exact ⟨rfl, fun _ => ⟨rfl, fun _ => ⟨rfl, fun _ => ⟨rfl, fun _ => trivial⟩⟩⟩⟩

theorem setTraceId_concerns {traceId : String} : (setTraceId id traceId).Calls (Concerns id) :=
  get_concerns trivial fun _ => ⟨rfl, fun _ => trivial⟩

theorem recoverJob_concerns {recovered : Nat} : (recoverJob recovered id).Calls (Concerns id) :=
  get_concerns trivial fun _ => ⟨rfl, fun _ => ⟨rfl, fun _ => trivial⟩⟩

theorem promoteJob_concerns {moved : Nat} : (promoteJob moved id).Calls (Concerns id) := by
  refine ⟨rfl, fun reply => ?_⟩
  cases reply with
  | false => trivial
  | true => exact get_concerns trivial fun _ => ⟨rfl, fun _ => trivial⟩

theorem reapLease_concerns {reaped : Nat} : (reapLease cfg reaped id).Calls (Concerns id) := by
  refine ⟨rfl, fun reply => ?_⟩
  cases reply with
  | false => trivial
  | true =>
    refine fail_concerns.bind fun result => ?_
    cases result <;> trivial

end concerns

/-! ### Runs in one go -/

section

variable {cfg : Config} {r : Redis} {id : JobId} {job : Job} {α : Type}

theorem run_redis_bind (c : Command) (f : c.Reply → RedisM α) (r : Redis) :
    (redis c >>= f).run exec r = (f (exec c r).1).run exec (exec c r).2 := rfl

theorem run_clearLease : (clearLease cfg id).run exec r =
    ((), if cfg.visibilityTimeoutMs ≤ 0 then r else
      r.setSorted .leases ((r.sets .leases).remove id)) := by
  unfold clearLease
  split <;> rfl

theorem run_dropProcessing : (dropProcessing id job).run exec r =
    ((), if job.workerId = "" then r else
      r.setList (.processing job.workerId) ((r.lists (.processing job.workerId)).filter (· ≠ id))) := by
  unfold dropProcessing
  split <;> rfl

/-- The first part of `pick` finds no id, or moves the last of a queue to the processing list. -/
theorem run_claimId (types : List JobType) (workerId : String) (r : Redis) :
    (claimId types workerId).run exec r = (none, r) ∨
      ∃ type id ids, type ∈ types ∧
        r.lists (.queue type) = (r.lists (.queue type)).dropLast ++ [id] ∧
        ids.Perm (id :: r.lists (.processing workerId)) ∧
        (claimId types workerId).run exec r = (some id,
          (r.setList (.queue type) (r.lists (.queue type)).dropLast).setList (.processing workerId) ids) := by
  unfold claimId
  split
  · rename_i type
    change exec (.brpoplpush (.queue type) (.processing workerId)) r = (none, r) ∨ ∃ type' id ids, _ ∧ _ ∧ _ ∧
      exec (.brpoplpush (.queue type) (.processing workerId)) r = (some id, _)
    cases hPop : r.popRight (.queue type) with
    | none =>
      left
      simp only [exec, hPop]
    | some popped =>
      obtain ⟨id, popped⟩ := popped
      obtain ⟨rfl, hIds⟩ := Redis.popRight_eq_some hPop
      refine .inr ⟨type, id, _, List.mem_cons_self, hIds, .refl _, ?_⟩
      have hKeep : (r.setList (.queue type) (r.lists (.queue type)).dropLast).lists (.processing workerId) =
          r.lists (.processing workerId) := Redis.setList_ne (by simp)
      simp only [exec, hPop, hKeep]
  · cases hFind : types.find? fun type => r.lists (.queue type) ≠ [] with
    | none =>
      left
      rw [run_redis_bind]
      simp only [exec, hFind, Program.run_pure]
    | some type =>
      cases hPop : r.popRight (.queue type) with
      | none =>
        left
        rw [run_redis_bind]
        simp only [exec, hFind, hPop, Program.run_pure]
      | some popped =>
        obtain ⟨id, popped⟩ := popped
        obtain ⟨rfl, hIds⟩ := Redis.popRight_eq_some hPop
        refine .inr ⟨type, id, r.lists (.processing workerId) ++ [id], List.mem_of_find?_eq_some hFind, hIds,
          List.perm_append_singleton _ _, ?_⟩
        have hKeep : (r.setList (.queue type) (r.lists (.queue type)).dropLast).lists (.processing workerId) =
            r.lists (.processing workerId) := Redis.setList_ne (by simp)
        rw [run_redis_bind]
        simp only [exec, hFind, hPop]
        rw [← hKeep]
        rfl

/-- Moving one id leaves the others. -/
theorem SameFor.claimed {type : JobType} {workerId : String} {id' : JobId} {ids : List JobId} (hNe : id' ≠ id)
    (hIds : r.lists (.queue type) = (r.lists (.queue type)).dropLast ++ [id])
    (hPerm : ids.Perm (id :: r.lists (.processing workerId))) :
    SameFor id' r ((r.setList (.queue type) (r.lists (.queue type)).dropLast).setList
      (.processing workerId) ids) := by
  have hQueue : SameFor id' r (r.setList (.queue type) (r.lists (.queue type)).dropLast) := by
    refine SameFor.setList ?_
    rw [hIds, List.dropLast_concat, List.count_append, List.count_singleton,
      if_neg (by simpa using hNe.symm), Nat.add_zero]
  refine hQueue.trans (SameFor.setList ?_)
  · rw [hPerm.count_eq, List.count_cons_of_ne hNe.symm, Redis.setList_ne (by simp)]

/-- `pick` finds nothing, or moves the last id of a queue and reads its job. -/
theorem run_pick (types : List JobType) (workerId : String) (r : Redis) :
    (pick cfg types workerId).run exec r = (none, r) ∨
      ∃ type id ids, type ∈ types ∧
        r.lists (.queue type) = (r.lists (.queue type)).dropLast ++ [id] ∧
        ids.Perm (id :: r.lists (.processing workerId)) ∧
        (pick cfg types workerId).run exec r = (claimJob cfg workerId id).run exec
          ((r.setList (.queue type) (r.lists (.queue type)).dropLast).setList (.processing workerId) ids) := by
  unfold pick
  rw [run_bind]
  rcases run_claimId types workerId r with hRun | ⟨type, id, ids, hType, hIds, hPerm, hRun⟩
  · left
    rw [hRun]
    rfl
  · refine .inr ⟨type, id, ids, hType, hIds, hPerm, ?_⟩
    rw [hRun]

/-- `pick` hands out the id that it has claimed, or nothing. -/
theorem claimJob_picked {workerId : String} {picked : JobId × Job}
    (h : ((claimJob cfg workerId id).run exec r).1 = some picked) : picked.1 = id := by
  unfold claimJob at h
  rw [run_redis_bind] at h
  cases hReply : (exec (.get id) r).1 with
  | none =>
    rw [hReply] at h
    cases h
  | some stored =>
    rw [hReply] at h
    dsimp only at h
    rw [run_redis_bind] at h
    split at h
    · obtain rfl := Option.some.inj h
      rfl
    · obtain rfl := Option.some.inj h
      rfl

theorem run_recoverProcessing (workerId : String) (r : Redis) :
    ((recoverProcessing workerId).run exec r).2 = r ∧ workerId = "" ∨
      workerId ≠ "" ∧ ((recoverProcessing workerId).run exec r).2 =
        (((r.lists (.processing workerId)).foldlM recoverJob 0).run exec r).2.setList
          (.processing workerId) [] := by
  unfold recoverProcessing
  split
  · rename_i hEmpty
    exact .inl ⟨rfl, hEmpty⟩
  · rename_i hSome
    refine .inr ⟨hSome, ?_⟩
    rw [run_redis_bind, run_bind]
    rfl

theorem run_promoteDueJobs (cfg : Config) (r : Redis) :
    ((promoteDueJobs cfg).run exec r).2 = r ∨
      ((promoteDueJobs cfg).run exec r).2 =
        ((((r.sets .delayed).upTo r.now).foldlM promoteJob 0).run exec r).2 := by
  unfold promoteDueJobs
  split
  · exact .inl rfl
  · right
    rw [run_redis_bind, run_redis_bind]
    rfl

theorem run_reapExpiredLeases (cfg : Config) (r : Redis) :
    ((reapExpiredLeases cfg).run exec r).2 = r ∧ cfg.visibilityTimeoutMs ≤ 0 ∨
      0 < cfg.visibilityTimeoutMs ∧ ((reapExpiredLeases cfg).run exec r).2 =
        ((((r.sets .leases).upTo r.now).foldlM (reapLease cfg) 0).run exec r).2 := by
  unfold reapExpiredLeases
  split
  · rename_i hOff
    exact .inl ⟨rfl, hOff⟩
  · rename_i hOn
    refine .inr ⟨Int.not_le.mp hOn, ?_⟩
    rw [run_redis_bind, run_redis_bind]
    rfl

end

/-! ### What an operation does not reach -/

/-- The job that an operation is called for. -/
def Operation.subject : Operation → Option JobId
  | .submit id _ _ _ | .complete id _ | .fail id _ | .deadLetter id _ | .cancel id | .requeueFromDlq id
  | .setTraceId id _ => some id
  | .pick _ _ | .promoteDueJobs | .reapExpiredLeases | .recoverProcessing _ => none

/-- The id stands where the operation takes ids from. -/
def Operation.Finds (cfg : Config) (op : Operation) (id : JobId) (r : Redis) : Prop :=
  match op with
  | .pick types _ => ∃ type ∈ types, id ∈ r.lists (.queue type)
  | .promoteDueJobs => id ∈ (r.sets .delayed).members
  | .reapExpiredLeases => 0 < cfg.visibilityTimeoutMs ∧ id ∈ (r.sets .leases).members
  | .recoverProcessing workerId => id ∈ r.lists (.processing workerId)
  | _ => False

section

variable {cfg : Config} {id : JobId} {r : Redis}

/-- A loop over other jobs leaves the job. -/
theorem SameFor.foldlM {β : Type} {body : β → JobId → RedisM β} {ids : List JobId} {b : β} (hNot : id ∉ ids)
    (hBody : ∀ b id', (body b id').Calls (Concerns id')) : SameFor id r ((ids.foldlM body b).run exec r).2 := by
  refine run_foldlM exec (.refl r) fun id' hMem b s hSame => ?_
  have hNe : id ≠ id' := by
    rintro rfl
    exact hNot hMem
  exact hSame.trans (.of_calls hNe (hBody b id') s)

theorem sameFor_of_not_finds {op : Operation} (hSubject : op.subject ≠ some id) (h : ¬ op.Finds cfg id r) :
    SameFor id r ((op.program cfg).run exec r).2 := by
  have hNe : ∀ id', op.subject = some id' → id ≠ id' := by
    rintro id' hSome rfl
    exact hSubject hSome
  cases op with
  | submit id' _ _ _ => exact .of_calls (hNe _ rfl) (submit_concerns.map _) r
  | complete id' _ => exact .of_calls (hNe _ rfl) (complete_concerns.map _) r
  | fail id' _ => exact .of_calls (hNe _ rfl) (fail_concerns.map _) r
  | deadLetter id' _ => exact .of_calls (hNe _ rfl) (deadLetter_concerns.map _) r
  | cancel id' => exact .of_calls (hNe _ rfl) (cancel_concerns.map _) r
  | requeueFromDlq id' => exact .of_calls (hNe _ rfl) (requeueFromDlq_concerns.map _) r
  | setTraceId id' _ => exact .of_calls (hNe _ rfl) (setTraceId_concerns.map _) r
  | pick types workerId =>
    rw [Operation.program, run_map]
    rcases run_pick types workerId r with hRun | ⟨type, id', ids, hType, hIds, hPerm, hRun⟩
    · rw [hRun]
      exact .refl r
    · have hOther : id ≠ id' := fun hEq => h ⟨type, hType, by rw [hIds, hEq]; simp⟩
      rw [hRun]
      exact (SameFor.claimed hOther hIds hPerm).trans (.of_calls hOther claimJob_concerns _)
  | promoteDueJobs =>
    rw [Operation.program, run_map]
    rcases run_promoteDueJobs cfg r with hRun | hRun
    · rw [hRun]
      exact .refl r
    · rw [hRun]
      exact SameFor.foldlM (fun hMem => h (SortedSet.mem_members_of_upTo hMem)) fun _ _ => promoteJob_concerns
  | reapExpiredLeases =>
    rw [Operation.program, run_map]
    rcases run_reapExpiredLeases cfg r with ⟨hRun, -⟩ | ⟨hOn, hRun⟩
    · rw [hRun]
      exact .refl r
    · rw [hRun]
      exact SameFor.foldlM (fun hMem => h ⟨hOn, SortedSet.mem_members_of_upTo hMem⟩) fun _ _ => reapLease_concerns
  | recoverProcessing workerId =>
    rw [Operation.program, run_map]
    rcases run_recoverProcessing workerId r with ⟨hRun, -⟩ | ⟨-, hRun⟩
    · rw [hRun]
      exact .refl r
    · rw [hRun]
      have hLoop : SameFor id r (((r.lists (.processing workerId)).foldlM recoverJob 0).run exec r).2 :=
        SameFor.foldlM h fun _ _ => recoverJob_concerns
      refine hLoop.trans (SameFor.setList ?_)
      rw [hLoop.list, List.count_eq_zero.mpr h, List.count_nil]

/-- `pick` hands out no id that stands in none of its queues. -/
theorem finds_of_handedOut {op : Operation} (h : ((op.program cfg).run exec r).1.handedOut = some id) :
    op.Finds cfg id r := by
  cases op with
  | pick types workerId =>
    rw [Operation.program, run_map] at h
    rcases run_pick types workerId r with hRun | ⟨type, id', ids, hType, hIds, hPerm, hRun⟩
    · rw [hRun] at h
      cases h
    · rw [hRun] at h
      cases hPicked : ((claimJob cfg workerId id').run exec ((r.setList (.queue type)
          (r.lists (.queue type)).dropLast).setList (.processing workerId) ids)).1 with
      | none =>
        rw [hPicked] at h
        cases h
      | some picked =>
        rw [hPicked] at h
        obtain rfl := claimJob_picked hPicked
        obtain rfl := Option.some.inj h
        exact ⟨type, hType, by rw [hIds]; simp⟩
  | _ => rw [Operation.program, run_map] at h; cases h

theorem run_get_none {α : Type} {f : Option Job → RedisM α} (h : r.blobs id = none) :
    (redis (.get id) >>= f).run exec r = (f none).run exec r := by
  rw [run_redis_bind]
  simp only [exec, h, Option.map_none]

theorem run_get_some {α : Type} {f : Option Job → RedisM α} {stored : Stored} (h : r.blobs id = some stored) :
    (redis (.get id) >>= f).run exec r = (f (some stored.job)).run exec r := by
  rw [run_redis_bind]
  simp only [exec, h, Option.map_some]

/-- For a job without a blob, every operation but `submit` ends where it began. -/
theorem run_of_missing {op : Operation} (hSubject : op.subject = some id)
    (hSubmit : ∀ type payload maxRetries, op ≠ .submit id type payload maxRetries) (hBlob : r.blobs id = none) :
    ((op.program cfg).run exec r).2 = r := by
  cases op with
  | submit id' type payload maxRetries =>
    obtain rfl := Option.some.inj hSubject
    exact absurd rfl (hSubmit type payload maxRetries)
  | complete id' _ | fail id' _ | deadLetter id' _ | cancel id' | requeueFromDlq id' | setTraceId id' _ =>
    obtain rfl := Option.some.inj hSubject
    rw [Operation.program, run_map]
    exact congrArg Prod.snd (run_get_none hBlob)
  | pick _ _ | promoteDueJobs | reapExpiredLeases | recoverProcessing _ => cases hSubject

end

/-! ### Changes that come of themselves -/

namespace Elapse

variable {r r' : Redis}

theorem lists (h : Elapse r r') : r'.lists = r.lists := by
  cases h <;> rfl

theorem sets (h : Elapse r r') : r'.sets = r.sets := by
  cases h <;> rfl

theorem blobs (h : Elapse r r') (id : JobId) : r'.blobs id = r.blobs id ∨ r'.blobs id = none := by
  cases h with
  | tick now => exact .inl rfl
  | expire id' stored hStored hExpires =>
    by_cases hCase : id = id'
    · exact .inr (hCase ▸ Table.drop_same _ _)
    · exact .inl (Table.drop_ne hCase)

theorem statusOf (h : Elapse r r') (id : JobId) :
    r'.statusOf id = r.statusOf id ∨ r'.statusOf id = none := by
  unfold Redis.statusOf
  rcases h.blobs id with hSame | hNone
  · exact .inl (by rw [hSame])
  · exact .inr (by rw [hNone]; rfl)

end Elapse

/-! ### Commands that put no id anywhere -/

/-- The command puts no id on a queue, a processing list or a sorted set. -/
def Removes : Command → Prop
  | .lpush (.dlq _) _ => True
  | .lpush _ _ | .rpush _ _ | .zadd _ _ _ | .brpoplpush _ _ | .brpop _ => False
  | _ => True

/-- The id stands nowhere that it did not stand before. -/
structure Shrunk (id : JobId) (r r' : Redis) : Prop where
  list : ∀ key, (∀ type, key ≠ .dlq type) → (r'.lists key).count id ≤ (r.lists key).count id
  sorted : ∀ key, (r'.sets key).members.count id ≤ (r.sets key).members.count id

namespace Shrunk

variable {id : JobId} {r r' : Redis}

theorem refl (r : Redis) : Shrunk id r r := ⟨fun _ _ => le_rfl, fun _ => le_rfl⟩

theorem trans {a b c : Redis} (hAB : Shrunk id a b) (hBC : Shrunk id b c) : Shrunk id a c :=
  ⟨fun key hKey => Nat.le_trans (hBC.list key hKey) (hAB.list key hKey),
    fun key => Nat.le_trans (hBC.sorted key) (hAB.sorted key)⟩

theorem mem_list (h : Shrunk id r r') {key : ListKey} (hKey : ∀ type, key ≠ .dlq type)
    (hMem : id ∈ r'.lists key) : id ∈ r.lists key :=
  List.count_pos_iff.mp (Nat.lt_of_lt_of_le (List.count_pos_iff.mpr hMem) (h.list key hKey))

theorem mem_sorted (h : Shrunk id r r') {key : SetKey} (hMem : id ∈ (r'.sets key).members) :
    id ∈ (r.sets key).members :=
  List.count_pos_iff.mp (Nat.lt_of_lt_of_le (List.count_pos_iff.mpr hMem) (h.sorted key))

theorem setList {key : ListKey} {ids : List JobId}
    (h : (∀ type, key ≠ .dlq type) → ids.count id ≤ (r.lists key).count id) :
    Shrunk id r (r.setList key ids) := by
  refine ⟨fun key' hKey => ?_, fun _ => le_rfl⟩
  by_cases hCase : key' = key
  · rw [hCase, Redis.setList_same]
    exact h (hCase ▸ hKey)
  · rw [Redis.setList_ne hCase]

theorem setSorted {key : SetKey} {z : SortedSet} (h : z.members.count id ≤ (r.sets key).members.count id) :
    Shrunk id r (r.setSorted key z) := by
  refine ⟨fun _ _ => le_rfl, fun key' => ?_⟩
  by_cases hCase : key' = key
  · rw [hCase, Redis.setSorted_same]
    exact h
  · rw [Redis.setSorted_ne hCase]

theorem of_removes {c : Command} (h : Removes c) : Shrunk id r (exec c r).2 := by
  cases c with
  | get _ | lrange _ | zrangebyscore _ _ | clock => exact refl r
  | set _ _ | setex _ _ | saddDlqAll _ | sremDlqAll _ => exact ⟨fun _ _ => le_rfl, fun _ => le_rfl⟩
  | lpush key _ =>
    cases key with
    | dlq type => exact setList fun hKey => absurd rfl (hKey type)
    | queue _ | processing _ => exact h.elim
  | lrem key _ => exact setList fun _ => List.Sublist.count_le _ List.filter_sublist
  | del key => exact setList fun _ => Nat.zero_le _
  | zrem key _ => exact setSorted (List.Sublist.count_le _ (List.filter_sublist.map _))
  | rpush _ _ | zadd _ _ _ | brpoplpush _ _ | brpop _ => exact h.elim

theorem of_calls {α : Type} {p : RedisM α} (h : p.Calls Removes) (r : Redis) : Shrunk id r (p.run exec r).2 := by
  have hStep : ∀ c s, Removes c → Shrunk id s (exec c s).2 := fun _ _ hC => of_removes hC
  exact Calls.run refl (fun _ _ _ => trans) hStep h r

end Shrunk

theorem SameFor.shrunk {id : JobId} {r r' : Redis} (h : SameFor id r r') : Shrunk id r r' :=
  ⟨fun key _ => Nat.le_of_eq (h.list key), fun key => Nat.le_of_eq (h.sorted key)⟩

section removes

variable {cfg : Config} {id : JobId} {job : Job} {error : String}

theorem clearLease_removes : (clearLease cfg id).Calls Removes := by
  unfold clearLease
  split
  · trivial
  · exact ⟨trivial, fun _ => trivial⟩

theorem dropProcessing_removes : (dropProcessing id job).Calls Removes := by
  unfold dropProcessing
  split
  · trivial
  · exact ⟨trivial, fun _ => trivial⟩

theorem complete_removes {result : String} : (complete cfg id result).Calls Removes :=
  get_calls trivial trivial fun _ => ⟨trivial, fun _ => dropProcessing_removes.bind fun _ =>
    clearLease_removes.bind fun _ => trivial⟩

theorem cancel_removes : (cancel cfg id).Calls Removes := by
  refine get_calls trivial trivial fun job => ?_
  split
  · trivial
  · refine ⟨trivial, fun _ => ⟨trivial, fun _ => ?_⟩⟩
    split
    · exact dropProcessing_removes.bind fun _ => clearLease_removes.bind fun _ => trivial
    · exact clearLease_removes.bind fun _ => trivial

theorem setTraceId_removes {traceId : String} : (setTraceId id traceId).Calls Removes :=
  get_calls trivial trivial fun _ => ⟨trivial, fun _ => trivial⟩

end removes

section

variable {cfg : Config} {id : JobId} {job : Job} {r : Redis}

@[simp] theorem dropProcessing_blobs : ((dropProcessing id job).run exec r).2.blobs = r.blobs := by
  rw [run_dropProcessing]
  dsimp only
  split <;> rfl

@[simp] theorem clearLease_blobs : ((clearLease cfg id).run exec r).2.blobs = r.blobs := by
  rw [run_clearLease]
  dsimp only
  split <;> rfl

@[simp] theorem clearLease_lists : ((clearLease cfg id).run exec r).2.lists = r.lists := by
  rw [run_clearLease]
  dsimp only
  split <;> rfl

/-- The worker that the job names has it in its list no more. -/
theorem not_mem_dropProcessing (hWorker : job.workerId ≠ "") :
    id ∉ ((dropProcessing id job).run exec r).2.lists (.processing job.workerId) := by
  rw [run_dropProcessing, if_neg hWorker, Redis.setList_same]
  simp

theorem not_mem_clearLease (hOn : 0 < cfg.visibilityTimeoutMs) :
    id ∉ (((clearLease cfg id).run exec r).2.sets .leases).members := by
  rw [run_clearLease, if_neg (Int.not_le.mpr hOn), Redis.setSorted_same]
  simp

theorem run_complete {result : String} {stored : Stored} (hStored : r.blobs id = some stored) :
    (complete cfg id result).run exec r =
      (.ok (), ((clearLease cfg id).run exec ((dropProcessing id stored.job).run exec
        (r.store id { stored.job with status := .completed, result := some result } true)).2).2) := by
  unfold complete
  rw [run_get_some hStored]
  dsimp only
  rw [run_redis_bind, run_bind, run_bind]
  rfl

/-- `cancel` refuses to touch a job that has ended. -/
abbrev Ended (status : JobStatus) : Prop := status = .completed ∨ status = .dead ∨ status = .failed

theorem run_cancel_ended {stored : Stored} (hStored : r.blobs id = some stored) (hEnded : Ended stored.job.status) :
    (cancel cfg id).run exec r = (false, r) := by
  unfold cancel
  rw [run_get_some hStored]
  dsimp only
  rw [if_pos hEnded]
  rfl

theorem run_cancel {stored : Stored} (hStored : r.blobs id = some stored) (hLive : ¬ Ended stored.job.status) :
    (cancel cfg id).run exec r =
      (true, ((clearLease cfg id).run exec
        ((if stored.job.status = .processing then dropProcessing id stored.job else pure ()).run exec
          ((r.store id { stored.job with status := .failed, error := "cancelled" } true).setList
            (.queue stored.job.type) ((r.lists (.queue stored.job.type)).filter (· ≠ id)))).2).2) := by
  unfold cancel
  rw [run_get_some hStored]
  dsimp only
  rw [if_neg hLive, run_redis_bind, run_redis_bind]
  split
  · rw [run_bind, run_bind]
    rfl
  · rw [run_bind]
    rfl

theorem statusOf_complete {result : String} {stored : Stored} (hStored : r.blobs id = some stored) :
    ((complete cfg id result).run exec r).2.statusOf id = some .completed := by
  rw [run_complete hStored, Redis.statusOf, clearLease_blobs, dropProcessing_blobs, Redis.store_same]
  rfl

theorem statusOf_cancel {stored : Stored} (hStored : r.blobs id = some stored)
    (hLive : ¬ Ended stored.job.status) : ((cancel cfg id).run exec r).2.statusOf id = some .failed := by
  rw [run_cancel hStored hLive, Redis.statusOf, clearLease_blobs]
  split
  · rw [dropProcessing_blobs, Redis.setList_blobs, Redis.store_same]
    rfl
  · rw [run_pure, Redis.setList_blobs, Redis.store_same]
    rfl

theorem run_requeueFromDlq_alive {stored : Stored} (hStored : r.blobs id = some stored)
    (hAlive : stored.job.status ≠ .dead) : (requeueFromDlq id).run exec r = (false, r) := by
  unfold requeueFromDlq
  rw [run_get_some hStored]
  dsimp only
  rw [if_pos hAlive]
  rfl

theorem run_setTraceId {traceId : String} {stored : Stored} (hStored : r.blobs id = some stored) :
    (setTraceId id traceId).run exec r = ((), r.store id { stored.job with traceId } false) :=
  run_get_some hStored

end

/-! ### Ids that have not been drawn -/

/-- Nothing is known of an id before it is drawn for a job. -/
def Unknown (w : QueueWorld) : Prop := ∀ id ∉ w.drawn, SameFor id (.empty 0) w.redis

namespace Unknown

variable {cfg : Config} {w : QueueWorld} {id : JobId}

theorem not_finds (h : SameFor id (.empty 0) w.redis) {op : Operation} : ¬ op.Finds cfg id w.redis := by
  have hList : ∀ key, id ∉ w.redis.lists key := fun key hMem => List.not_mem_nil (h.mem_list.mp hMem)
  have hSorted : ∀ key, id ∉ (w.redis.sets key).members :=
    fun key hMem => List.not_mem_nil (h.mem_sorted.mp hMem)
  cases op with
  | pick types workerId =>
    rintro ⟨type, -, hMem⟩
    exact hList _ hMem
  | promoteDueJobs => exact hSorted _
  | reapExpiredLeases => exact fun hFinds => hSorted _ hFinds.2
  | recoverProcessing workerId => exact hList _
  | _ => exact not_false

theorem start (now : Int) : Unknown (.start now) := fun _ _ => ⟨rfl, fun _ => rfl, fun _ => rfl⟩

theorem step {Allowed : Operation → QueueWorld → Prop} {w' : QueueWorld} (h : Unknown w)
    (hStep : AtomicStep cfg Allowed w w') : Unknown w' := by
  cases hStep with
  | operation op hAllowed =>
    intro id hNot
    have hBefore : id ∉ w.drawn := by
      intro hMem
      cases op with
      | submit id' _ _ _ => exact hNot (List.mem_cons_of_mem _ hMem)
      | _ => exact hNot hMem
    have hSame := h id hBefore
    by_cases hSubject : op.subject = some id
    · have hKept : ((op.program cfg).run exec w.redis).2 = w.redis := by
        refine run_of_missing hSubject ?_ hSame.blob
        rintro type payload maxRetries rfl
        exact hNot List.mem_cons_self
      change SameFor id _ ((op.program cfg).run exec w.redis).2
      rwa [hKept]
    · exact hSame.trans (sameFor_of_not_finds hSubject (not_finds hSame))
  | elapse r hElapse =>
    intro id hNot
    have hSame := h id hNot
    refine ⟨?_, fun key => ?_, fun key => ?_⟩
    · exact (hElapse.blobs id).elim (fun hBlob => hBlob.trans hSame.blob) fun hNone => hNone
    · exact (congrArg (fun lists => (lists key).count id) hElapse.lists).trans (hSame.list key)
    · exact (congrArg (fun sets => (sets key).members.count id) hElapse.sets).trans (hSame.sorted key)

theorem run {Allowed : Operation → QueueWorld → Prop} {now : Int}
    (hRun : Run (AtomicStep cfg Allowed) (.start now) w) : Unknown w := by
  have hStep : ∀ a b, Unknown a → AtomicStep cfg Allowed a b → Unknown b := fun _ _ h hStep => h.step hStep
  exact Run.invariant hStep hRun (start now)

/-- A job that is stored has had its id drawn. -/
theorem mem_drawn (h : Unknown w) {stored : Stored} (hStored : w.redis.blobs id = some stored) :
    id ∈ w.drawn := by
  by_contra hNot
  cases (h id hNot).blob.symm.trans hStored

end Unknown

end CyberAccountant.Jobs
