import CyberAccountant.Jobs.Queue
import CyberAccountant.Library.Repair

/-! Operations of the job queue under way at once, command by command, any of which may crash.  A job
that has work left to do stands in its queue, in the delayed set or in a processing list, and a dead job
in the index of the dead-letter queue, unless an operation is, or was when it crashed, on its way to
put it there. -/

namespace CyberAccountant.Jobs

open CyberAccountant.Library CyberAccountant.Library.Program

namespace Redis

/-- The stored status says that the job has work left to do. -/
def Live (r : Redis) (id : JobId) : Prop :=
  r.statusOf id = some .pending ∨ r.statusOf id = some .processing

instance (r : Redis) (id : JobId) : Decidable (r.Live id) := inferInstanceAs (Decidable (_ ∨ _))

end Redis

section

-- The type that each id is submitted under, once.
variable (typeOf : JobId → JobType)

/-- Some operation can hand the id out. -/
def Placed (r : Redis) (id : JobId) : Prop :=
  id ∈ r.lists (.queue (typeOf id)) ∨ id ∈ (r.sets .delayed).members ∨
    ∃ workerId, id ∈ r.lists (.processing workerId)

/-- Stored jobs are of the type that their id was submitted under. -/
def Typed (r : Redis) : Prop := ∀ id stored, r.blobs id = some stored → stored.job.type = typeOf id

/-- What may be amiss with a job. -/
inductive JobFault where
  | lost (id : JobId)
  | unindexed (id : JobId)

def JobFault.Present : JobFault → Redis → Prop
  | .lost id, r => r.Live id ∧ ¬ Placed typeOf r id
  | .unindexed id, r => r.statusOf id = some .dead ∧ id ∉ r.dlqAll

/-- What the commands of an operation find where nothing has come in between: an operation that has
ended a job, or has found it gone, takes it off its lists while it is still ended; a worker marks a job
that is still in its processing list; a job is marked dead while it is still in the index, and traced
while its status is the one read; and a processing list is deleted when its live jobs are elsewhere. -/
def Undisturbed : Operation → Command → Redis → Prop
  | .complete _ _, .lrem _ id, r | .cancel _, .lrem _ id, r | .pick _ _, .lrem _ id, r => ¬ r.Live id
  | .pick _ workerId, .set id _, r => id ∈ r.lists (.processing workerId)
  | .deadLetter _ _, .set id _, r => id ∈ r.dlqAll
  | .setTraceId _ _, .set id job, r => r.statusOf id = some job.status
  | .recoverProcessing _, .del key, r => ∀ id ∈ r.lists key, r.Live id →
    Placed typeOf (r.setList key []) id
  | _, _, _ => True

/-- An operation starts with all its commands to come. -/
def Starts (cfg : Config) (op : Operation) (program : RedisM Unit) : Prop :=
  (∀ id type payload maxRetries, op = .submit id type payload maxRetries → type = typeOf id) ∧
    program = (fun _ => ()) <$> op.program cfg

abbrev JobSystem := System Operation Command Command.Reply Redis

/-- One step of the system, in which commands are sent where `Guard` admits it. -/
abbrev JobStep (cfg : Config) (Guard : Operation → Command → Redis → Prop) :
    JobSystem → JobSystem → Prop :=
  SystemStep exec (Starts typeOf cfg) Guard Elapse

end

/-- Before the first operation. -/
def idle (now : Int) : JobSystem := ⟨.empty now, Table.empty⟩

/-! ### What commands make and repair -/

section commands

variable {typeOf : JobId → JobType} {r r' : Redis} {id : JobId} {job : Job} {key : ListKey}

abbrev SafeJob (typeOf : JobId → JobType) (Guard : Command → Redis → Prop) {α : Type} :
    RedisM α → Prop :=
  Safe exec (Typed typeOf) Guard (JobFault.Present typeOf)

abbrev CoversJob (typeOf : JobId → JobType) (fault : JobFault) {α : Type} : RedisM α → Prop :=
  Covers exec (Typed typeOf) (fault.Present typeOf)

theorem Redis.Live.of_statusOf (hStatus : r'.statusOf id = r.statusOf id) (h : r'.Live id) : r.Live id := by
  unfold Redis.Live at h ⊢
  rwa [hStatus] at h

/-- A command after which every live job that was placed is placed, and which neither changes a status
nor takes from the index, makes no fault. -/
theorem quiet_of_placed (hBlobs : r'.blobs = r.blobs)
    (hPlaced : ∀ id, r.Live id → Placed typeOf r id → Placed typeOf r' id)
    (hIndex : ∀ id ∈ r.dlqAll, id ∈ r'.dlqAll) (fault : JobFault) (h : fault.Present typeOf r') :
    fault.Present typeOf r := by
  have hStatus : ∀ id, r'.statusOf id = r.statusOf id := fun id => by
    rw [Redis.statusOf, hBlobs]
    rfl
  cases fault with
  | lost id =>
    obtain ⟨hLive, hNot⟩ := h
    have hBefore := hLive.of_statusOf (hStatus id)
    exact ⟨hBefore, fun hWas => hNot (hPlaced id hBefore hWas)⟩
  | unindexed id => exact ⟨(hStatus id).symm.trans h.1, fun hWas => h.2 (hIndex id hWas)⟩

/-- The dead-letter lists have no part in where a job stands. -/
theorem Placed.setList {ids : List JobId} (h : Placed typeOf r id)
    (hKey : (∀ type, key ≠ .dlq type) → id ∈ r.lists key → id ∈ ids) :
    Placed typeOf (r.setList key ids) id := by
  have hList : ∀ key', (∀ type, key' ≠ .dlq type) → id ∈ r.lists key' →
      id ∈ (r.setList key ids).lists key' := by
    intro key' hNotDlq hMem
    by_cases hCase : key' = key
    · subst hCase
      rw [Redis.setList_same]
      exact hKey hNotDlq hMem
    · rwa [Redis.setList_ne hCase]
  rcases h with hQueue | hDelayed | ⟨workerId, hProcessing⟩
  · exact .inl (hList _ (by simp) hQueue)
  · exact .inr (.inl hDelayed)
  · exact .inr (.inr ⟨workerId, hList _ (by simp) hProcessing⟩)

theorem Placed.setSorted {skey : SetKey} {z : SortedSet} (h : Placed typeOf r id)
    (hKey : skey = .delayed → id ∈ (r.sets skey).members → id ∈ z.members) :
    Placed typeOf (r.setSorted skey z) id := by
  rcases h with hQueue | hDelayed | hProcessing
  · exact .inl hQueue
  · refine .inr (.inl ?_)
    by_cases hCase : SetKey.delayed = skey
    · subst hCase
      rw [Redis.setSorted_same]
      exact hKey rfl hDelayed
    · rwa [Redis.setSorted_ne hCase]
  · exact .inr (.inr hProcessing)

/-- The command keeps jobs typed and makes no fault. -/
def Quiet (typeOf : JobId → JobType) (c : Command) (r : Redis) : Prop :=
  Typed typeOf (exec c r).2 ∧ ∀ fault : JobFault, fault.Present typeOf (exec c r).2 → fault.Present typeOf r

section quiet

variable (hTyped : Typed typeOf r)
include hTyped

theorem quiet_lpush : Quiet typeOf (.lpush key id) r :=
  ⟨hTyped, quiet_of_placed rfl (fun _ _ h => h.setList fun _ hMem => List.mem_cons_of_mem _ hMem)
    fun _ h => h⟩

theorem quiet_rpush : Quiet typeOf (.rpush key id) r :=
  ⟨hTyped, quiet_of_placed rfl (fun _ _ h => h.setList fun _ hMem => List.mem_append_left _ hMem)
    fun _ h => h⟩

theorem quiet_lrem_dlq {type : JobType} : Quiet typeOf (.lrem (.dlq type) id) r :=
  ⟨hTyped, quiet_of_placed rfl (fun _ _ h => h.setList fun hNot => absurd rfl (hNot type)) fun _ h => h⟩

theorem quiet_zadd {skey : SetKey} {score : Int} : Quiet typeOf (.zadd skey id score) r :=
  ⟨hTyped, quiet_of_placed rfl
    (fun _ _ h => h.setSorted fun _ hMem => SortedSet.mem_members_add.mpr (.inr hMem)) fun _ h => h⟩

theorem quiet_zrem_leases : Quiet typeOf (.zrem .leases id) r :=
  ⟨hTyped, quiet_of_placed rfl (fun _ _ h => h.setSorted fun hCase => by cases hCase) fun _ h => h⟩

theorem quiet_sadd : Quiet typeOf (.saddDlqAll id) r :=
  ⟨hTyped, quiet_of_placed rfl (fun _ _ h => h) fun _ h => List.mem_insert_of_mem h⟩

theorem quiet_brpoplpush {workerId : String} : Quiet typeOf (.brpoplpush key (.processing workerId)) r := by
  cases hPop : r.popRight key with
  | none =>
    have hExec : (exec (.brpoplpush key (.processing workerId)) r).2 = r := by simp only [exec, hPop]
    unfold Quiet
    rw [hExec]
    exact ⟨hTyped, fun _ h => h⟩
  | some popped =>
    obtain ⟨id, popped⟩ := popped
    obtain ⟨rfl, hIds⟩ := Redis.popRight_eq_some hPop
    have hExec : (exec (.brpoplpush key (.processing workerId)) r).2 =
        (r.setList key (r.lists key).dropLast).setList (.processing workerId)
          (id :: (r.setList key (r.lists key).dropLast).lists (.processing workerId)) := by
      simp only [exec, hPop]
    unfold Quiet
    rw [hExec]
    refine ⟨hTyped, quiet_of_placed rfl (fun id' _ h => ?_) fun _ h => h⟩
    by_cases hCase : id' = id
    · exact .inr (.inr ⟨workerId, by simp [hCase]⟩)
    · refine (h.setList fun _ hMem => ?_).setList fun _ hMem => List.mem_cons_of_mem _ hMem
      rw [hIds] at hMem
      exact (List.mem_append.mp hMem).resolve_right fun hLast => hCase (List.mem_singleton.mp hLast)

/-- Taking a job that has nothing left to do off a list. -/
theorem quiet_lrem (hEnded : ¬ r.Live id) : Quiet typeOf (.lrem key id) r := by
  refine ⟨hTyped, quiet_of_placed rfl (fun id' hLive h => h.setList fun _ hMem => ?_) fun _ h => h⟩
  have hNe : id' ≠ id := by
    rintro rfl
    exact hEnded hLive
  exact List.mem_filter.mpr ⟨hMem, by simpa using hNe⟩

theorem quiet_del (hElsewhere : ∀ id ∈ r.lists key, r.Live id → Placed typeOf (r.setList key []) id) :
    Quiet typeOf (.del key) r := by
  refine ⟨hTyped, quiet_of_placed rfl (fun id hLive h => ?_) fun _ h => h⟩
  by_cases hMem : id ∈ r.lists key
  · exact hElsewhere id hMem hLive
  · exact h.setList fun _ hIn => absurd hIn hMem

end quiet

/-- What removing an id from where jobs stand can make: that the id is lost. -/
theorem made_of_others {fault : JobFault} (hBefore : ¬ fault.Present typeOf r)
    (hAfter : fault.Present typeOf r') (hBlobs : r'.blobs = r.blobs) (hIndex : r'.dlqAll = r.dlqAll)
    (hPlaced : ∀ id', id' ≠ id → Placed typeOf r id' → Placed typeOf r' id') : fault = .lost id := by
  have hStatus : ∀ id, r'.statusOf id = r.statusOf id := fun id => by
    rw [Redis.statusOf, hBlobs]
    rfl
  cases fault with
  | lost id' =>
    by_cases hCase : id' = id
    · rw [hCase]
    · obtain ⟨hLive, hNot⟩ := hAfter
      exact absurd ⟨hLive.of_statusOf (hStatus id'), fun h => hNot (hPlaced id' hCase h)⟩ hBefore
  | unindexed id' =>
    refine absurd ⟨(hStatus id').symm.trans hAfter.1, ?_⟩ hBefore
    rw [← hIndex]
    exact hAfter.2

theorem made_lrem {fault : JobFault} (hBefore : ¬ fault.Present typeOf r)
    (hAfter : fault.Present typeOf (exec (.lrem key id) r).2) : fault = .lost id := by
  refine made_of_others hBefore hAfter rfl rfl fun id' hNe h => h.setList fun _ hMem => ?_
  exact List.mem_filter.mpr ⟨hMem, by simpa using hNe⟩

theorem made_zrem {fault : JobFault} (hBefore : ¬ fault.Present typeOf r)
    (hAfter : fault.Present typeOf (exec (.zrem .delayed id) r).2) : fault = .lost id := by
  refine made_of_others hBefore hAfter rfl rfl fun id' hNe h => h.setSorted fun _ hMem => ?_
  exact SortedSet.mem_members_remove.mpr ⟨hNe, hMem⟩

/-- A removal of what is not there makes nothing. -/
theorem quiet_zrem_absent (hTyped : Typed typeOf r) (hReply : (exec (.zrem .delayed id) r).1 = false) :
    Quiet typeOf (.zrem .delayed id) r := by
  have hAbsent : id ∉ (r.sets .delayed).members := by simpa [exec] using hReply
  refine ⟨hTyped, quiet_of_placed rfl (fun id' _ h => h.setSorted fun _ hMem => ?_) fun _ h => h⟩
  refine SortedSet.mem_members_remove.mpr ⟨?_, hMem⟩
  rintro rfl
  exact hAbsent hMem

theorem made_brpop {types : List JobType} {fault : JobFault} (hBefore : ¬ fault.Present typeOf r)
    (hAfter : fault.Present typeOf (exec (.brpop types) r).2) :
    ∃ type id, (exec (.brpop types) r).1 = some (type, id) ∧ fault = .lost id := by
  cases hFind : types.find? fun type => r.lists (.queue type) ≠ [] with
  | none =>
    simp only [exec, hFind] at hAfter
    exact absurd hAfter hBefore
  | some type =>
    cases hPop : r.popRight (.queue type) with
    | none =>
      simp only [exec, hFind, hPop] at hAfter
      exact absurd hAfter hBefore
    | some popped =>
      obtain ⟨id, popped⟩ := popped
      obtain ⟨rfl, hIds⟩ := Redis.popRight_eq_some hPop
      simp only [exec, hFind, hPop] at hAfter ⊢
      refine ⟨type, id, rfl, made_of_others hBefore hAfter rfl rfl fun id' hNe h => h.setList fun _ hMem => ?_⟩
      rw [hIds] at hMem
      exact (List.mem_append.mp hMem).resolve_right fun hLast => hNe (List.mem_singleton.mp hLast)

theorem exec_brpop_blobs (types : List JobType) : (exec (.brpop types) r).2.blobs = r.blobs := by
  unfold exec
  dsimp only
  split
  · rfl
  · split
    · rfl
    · rename_i hPop
      rw [(Redis.popRight_eq_some hPop).1]
      rfl

theorem made_srem {fault : JobFault} (hBefore : ¬ fault.Present typeOf r)
    (hAfter : fault.Present typeOf (exec (.sremDlqAll id) r).2) : fault = .unindexed id := by
  cases fault with
  | lost id' => exact absurd hAfter hBefore
  | unindexed id' =>
    by_cases hCase : id' = id
    · rw [hCase]
    · refine absurd ⟨hAfter.1, fun hMem => hAfter.2 ?_⟩ hBefore
      exact List.mem_filter.mpr ⟨hMem, by simpa using hCase⟩

/-- What storing a job can make: that it is lost, where its status is live and it stands nowhere; or
that it is not indexed, where its status is dead. -/
theorem made_store {expires : Bool} {fault : JobFault} (hBefore : ¬ fault.Present typeOf r)
    (hAfter : fault.Present typeOf (r.store id job expires)) :
    fault = .lost id ∧ (job.status = .pending ∨ job.status = .processing) ∧ ¬ Placed typeOf r id ∨
      fault = .unindexed id ∧ job.status = .dead ∧ id ∉ r.dlqAll := by
  cases fault with
  | lost id' =>
    obtain ⟨hLive, hNot⟩ := hAfter
    unfold Redis.Live at hLive
    rw [Redis.statusOf_store] at hLive
    by_cases hCase : id' = id
    · subst hCase
      rw [if_pos rfl, Option.some.injEq, Option.some.injEq] at hLive
      exact .inl ⟨rfl, hLive, hNot⟩
    · rw [if_neg hCase] at hLive
      exact absurd ⟨hLive, hNot⟩ hBefore
  | unindexed id' =>
    obtain ⟨hDead, hNot⟩ := hAfter
    rw [Redis.statusOf_store] at hDead
    by_cases hCase : id' = id
    · subst hCase
      rw [if_pos rfl, Option.some.injEq] at hDead
      exact .inr ⟨rfl, hDead, hNot⟩
    · rw [if_neg hCase] at hDead
      exact absurd ⟨hDead, hNot⟩ hBefore

theorem Typed.store {expires : Bool} (hTyped : Typed typeOf r) (hType : job.type = typeOf id) :
    Typed typeOf (r.store id job expires) := by
  intro id' stored h
  rcases Table.put_eq_some.mp h with ⟨rfl, rfl⟩ | ⟨-, h⟩
  · exact hType
  · exact hTyped id' stored h

/-- What `GET` replies is of the type of its id. -/
theorem Typed.get (hTyped : Typed typeOf r) (h : (exec (.get id) r).1 = some job) :
    job.type = typeOf id := by
  obtain ⟨stored, hStored, rfl⟩ := Option.map_eq_some_iff.mp h
  exact hTyped id stored hStored

end commands

/-! ### The programs -/

section programs

variable {cfg : Config} {typeOf : JobId → JobType} {Guard : Command → Redis → Prop} {id : JobId}
  {job : Job} {error : String} {α : Type}

/-- The rest of a program after a command that makes no fault. -/
theorem safe_quiet {c : Command} {f : c.Reply → RedisM α}
    (hQuiet : ∀ r, Typed typeOf r → Guard c r → Quiet typeOf c r)
    (hRest : ∀ r, Typed typeOf r → SafeJob typeOf Guard (f (exec c r).1)) :
    SafeJob typeOf Guard (redis c >>= f) :=
  Safe.quiet (fun r hTyped hGuard => hQuiet r hTyped hGuard) fun r hTyped _ => hRest r hTyped

/-- The rest of a program after a command that can only lose one id, which the rest puts back. -/
theorem safe_removal {c : Command} {f : c.Reply → RedisM α}
    (hTyped' : ∀ r, Typed typeOf r → Typed typeOf (exec c r).2)
    (hMade : ∀ r fault, Typed typeOf r → ¬ JobFault.Present typeOf fault r →
      fault.Present typeOf (exec c r).2 → CoversJob typeOf fault (f (exec c r).1))
    (hRest : ∀ r, Typed typeOf r → SafeJob typeOf Guard (f (exec c r).1)) :
    SafeJob typeOf Guard (redis c >>= f) :=
  fun r hTyped _ => ⟨hTyped' r hTyped, hRest r hTyped, fun fault => hMade r fault hTyped⟩

theorem safe_redis {c : Command} (hQuiet : ∀ r, Typed typeOf r → Guard c r → Quiet typeOf c r) :
    SafeJob typeOf Guard (redis c) :=
  Safe.quiet (fun r hTyped hGuard => hQuiet r hTyped hGuard) fun _ _ _ => trivial

theorem safe_clearLease : SafeJob typeOf Guard (clearLease cfg id) := by
  unfold clearLease
  split
  · trivial
  · exact safe_quiet (fun r hTyped _ => quiet_zrem_leases hTyped) fun _ _ => trivial

/-- Clearing the lease gets in the way of no repair. -/
theorem covers_clearLease {fault : JobFault} {rest : RedisM α} (h : CoversJob typeOf fault rest) :
    CoversJob typeOf fault (clearLease cfg id >>= fun _ => rest) := by
  unfold clearLease
  split
  · exact h
  · exact Covers.later fun _ _ _ => h

/-- Taking the job off the list of its worker, where the rest puts it back or ends it. -/
theorem safe_dropProcessing {rest : RedisM α} (hRest : SafeJob typeOf Guard rest)
    (hCovers : CoversJob typeOf (.lost id) rest) :
    SafeJob typeOf Guard (dropProcessing id job >>= fun _ => rest) := by
  unfold dropProcessing
  split
  · exact hRest
  · refine safe_removal (fun _ hTyped => hTyped) (fun r fault _ hBefore hAfter => ?_) fun _ _ => hRest
    rw [made_lrem hBefore hAfter]
    exact hCovers

/-- Taking the job off the list of its worker once its work is done. -/
theorem safe_dropProcessing_ended {workerId : String}
    (hGuard : ∀ r, Guard (.lrem (.processing workerId) id) r → ¬ r.Live id)
    (hWorker : job.workerId = workerId) : SafeJob typeOf Guard (dropProcessing id job) := by
  unfold dropProcessing
  split
  · trivial
  · exact safe_redis fun r hTyped h => by
      rw [hWorker] at h ⊢
      exact quiet_lrem hTyped (hGuard r h)

theorem covers_lpush {fault : JobFault} {type : JobType} {rest : Unit → RedisM α}
    (hFault : fault = .lost id) (hType : type = typeOf id) :
    CoversJob typeOf fault (redis (.lpush (.queue type) id) >>= rest) := by
  subst hFault hType
  exact Covers.now fun r _ hLost => hLost.2 (.inl (by simp [exec]))

theorem covers_requeue (hType : job.type = typeOf id) : CoversJob typeOf (.lost id) (requeue cfg id job) := by
  unfold requeue
  dsimp only
  split
  · refine Covers.later fun r _ _ => Covers.now fun r' _ hLost => hLost.2 (.inr (.inl ?_))
    simp [exec]
  · exact Covers.now fun r _ hLost => hLost.2 (.inl (by simp [exec, hType]))

theorem safe_requeue : SafeJob typeOf Guard (requeue cfg id job) := by
  unfold requeue
  dsimp only
  split
  · exact safe_quiet (fun _ hTyped _ => ⟨hTyped, fun _ h => h⟩) fun _ _ =>
      safe_redis fun _ hTyped _ => quiet_zadd hTyped
  · exact safe_redis fun _ hTyped _ => quiet_lpush hTyped

/-- A job that is marked as pending and put back. -/
theorem safe_setPending {rest : Unit → RedisM α} (hStatus : job.status = .pending)
    (hType : job.type = typeOf id) (hRest : SafeJob typeOf Guard (rest ()))
    (hCovers : CoversJob typeOf (.lost id) (rest ())) :
    SafeJob typeOf Guard (redis (.set id job) >>= rest) := by
  refine safe_removal (fun r hTyped => hTyped.store hType) (fun r fault _ hBefore hAfter => ?_)
    fun _ _ => hRest
  rcases made_store hBefore hAfter with ⟨rfl, -⟩ | ⟨-, hDead, -⟩
  · exact hCovers
  · rw [hStatus] at hDead
    cases hDead

theorem covers_retry (hType : job.type = typeOf id) :
    CoversJob typeOf (.lost id) (retry cfg id job error) :=
  Covers.later fun _ _ _ => covers_requeue hType

theorem safe_retry (hType : job.type = typeOf id) : SafeJob typeOf Guard (retry cfg id job error) :=
  safe_setPending rfl hType safe_requeue (covers_requeue hType)

/-- A job that is marked as dead is not lost. -/
theorem covers_setDead {rest : Unit → RedisM α} (hStatus : job.status = .dead) :
    CoversJob typeOf (.lost id) (redis (.set id job) >>= rest) := by
  refine Covers.now fun r _ hLost => ?_
  have hLive : (r.store id job false).Live id := hLost.1
  unfold Redis.Live at hLive
  rw [Redis.statusOf_store, if_pos rfl, hStatus] at hLive
  rcases hLive with h | h <;> cases h

theorem covers_giveUp : CoversJob typeOf (.lost id) (giveUp id job error) := covers_setDead rfl

theorem safe_giveUp (hType : job.type = typeOf id) : SafeJob typeOf Guard (giveUp id job error) := by
  refine safe_removal (fun r hTyped => hTyped.store hType) (fun r fault _ hBefore hAfter => ?_) fun _ _ => ?_
  · rcases made_store hBefore hAfter with ⟨-, hLive, -⟩ | ⟨rfl, -⟩
    · rcases hLive with h | h <;> cases h
    · exact Covers.later fun _ _ _ => Covers.now fun _ _ h => h.2 List.mem_insert_self
  · exact safe_quiet (fun _ hTyped _ => quiet_lpush hTyped) fun _ _ =>
      safe_redis fun _ hTyped _ => quiet_sadd hTyped

theorem covers_settle (hType : job.type = typeOf id) :
    CoversJob typeOf (.lost id) (settle cfg id job error) := by
  unfold settle
  split
  · exact covers_retry hType
  · exact covers_giveUp

theorem safe_settle (hType : job.type = typeOf id) : SafeJob typeOf Guard (settle cfg id job error) := by
  unfold settle
  split
  · exact safe_retry hType
  · exact safe_giveUp hType

theorem safe_fail : SafeJob typeOf Guard (fail cfg id error) := by
  refine safe_quiet (fun _ hTyped _ => ⟨hTyped, fun _ h => h⟩) fun r hTyped => ?_
  cases hGet : (exec (.get id) r).1 with
  | none => trivial
  | some stored =>
    have hType : stored.type = typeOf id := hTyped.get hGet
    refine safe_dropProcessing (safe_clearLease.bind fun _ => ?_) (covers_clearLease ?_)
    · refine Safe.bind ?_ fun _ => trivial
      exact safe_settle hType
    · refine Covers.bind ?_
      exact covers_settle hType

theorem safe_deadLetter (hGuard : ∀ r job, Guard (.set id job) r → id ∈ r.dlqAll) :
    SafeJob typeOf Guard (deadLetter cfg id error) := by
  refine safe_quiet (fun _ hTyped _ => ⟨hTyped, fun _ h => h⟩) fun r hTyped => ?_
  cases hGet : (exec (.get id) r).1 with
  | none => trivial
  | some job =>
    have hType : job.type = typeOf id := hTyped.get hGet
    refine safe_dropProcessing (safe_clearLease.bind fun _ => ?_) (covers_clearLease ?_)
    · refine safe_quiet (fun _ hTyped _ => quiet_lpush hTyped) fun _ _ =>
        safe_quiet (fun _ hTyped _ => quiet_sadd hTyped) fun _ _ => safe_quiet (fun r hTyped h => ?_)
          fun _ _ => trivial
      refine ⟨hTyped.store hType, fun fault hAfter => Classical.byContradiction fun hBefore => ?_⟩
      rcases made_store hBefore hAfter with ⟨-, hLive, -⟩ | ⟨-, -, hNot⟩
      · rcases hLive with h | h <;> cases h
      · exact hNot (hGuard r _ h)
    · exact Covers.later fun _ _ _ => Covers.later fun _ _ _ => covers_setDead rfl

theorem safe_recoverJob {recovered : Nat} : SafeJob typeOf Guard (recoverJob recovered id) := by
  refine safe_quiet (fun _ hTyped _ => ⟨hTyped, fun _ h => h⟩) fun r hTyped => ?_
  cases hGet : (exec (.get id) r).1 with
  | none => trivial
  | some job =>
    have hType : job.type = typeOf id := hTyped.get hGet
    exact safe_setPending rfl hType (safe_quiet (fun _ hTyped _ => quiet_lpush hTyped) fun _ _ => trivial)
      (covers_lpush rfl hType)

theorem safe_recoverProcessing {workerId : String} (hGuard : ∀ r key, Guard (.del key) r →
      ∀ id ∈ r.lists key, r.Live id → Placed typeOf (r.setList key []) id) :
    SafeJob typeOf Guard (recoverProcessing workerId) := by
  unfold recoverProcessing
  split
  · trivial
  · exact safe_quiet (fun _ hTyped _ => ⟨hTyped, fun _ h => h⟩) fun _ _ =>
      (Safe.foldlM 0 fun _ _ _ => safe_recoverJob).bind fun _ =>
        safe_quiet (fun r hTyped h => quiet_del hTyped (hGuard r _ h)) fun _ _ => trivial

theorem safe_promoteJob {moved : Nat} : SafeJob typeOf Guard (promoteJob moved id) := by
  refine fun r hTyped _ => ⟨hTyped, ?_⟩
  cases hReply : (exec (.zrem .delayed id) r).1 with
  | false =>
    exact ⟨trivial, fun fault hBefore hAfter =>
      absurd ((quiet_zrem_absent hTyped hReply).2 fault hAfter) hBefore⟩
  | true =>
    refine ⟨safe_quiet (fun _ hTyped _ => ⟨hTyped, fun _ h => h⟩) fun r' hTyped' => ?_,
      fun fault hBefore hAfter => ?_⟩
    · cases hGet : (exec (.get id) r').1 with
      | none => trivial
      | some job => exact safe_quiet (fun _ hTyped _ => quiet_lpush hTyped) fun _ _ => trivial
    · rw [made_zrem hBefore hAfter]
      refine Covers.later fun r' hTyped' hLost => ?_
      -- A lost job is stored, so that `GET` finds it.
      cases hGet : (exec (.get id) r').1 with
      | none =>
        have hNone : r'.statusOf id = none := by
          simpa [Redis.statusOf, exec] using hGet
        have hLive : r'.Live id := hLost.1
        unfold Redis.Live at hLive
        rw [hNone] at hLive
        rcases hLive with h | h <;> cases h
      | some job => exact covers_lpush rfl (hTyped'.get hGet)

theorem safe_promoteDueJobs : SafeJob typeOf Guard (promoteDueJobs cfg) := by
  unfold promoteDueJobs
  split
  · trivial
  · exact safe_quiet (fun _ hTyped _ => ⟨hTyped, fun _ h => h⟩) fun _ _ =>
      safe_quiet (fun _ hTyped _ => ⟨hTyped, fun _ h => h⟩) fun _ _ =>
        Safe.foldlM 0 fun _ _ _ => safe_promoteJob

theorem safe_reapExpiredLeases : SafeJob typeOf Guard (reapExpiredLeases cfg) := by
  unfold reapExpiredLeases
  split
  · trivial
  · refine safe_quiet (fun _ hTyped _ => ⟨hTyped, fun _ h => h⟩) fun _ _ =>
      safe_quiet (fun _ hTyped _ => ⟨hTyped, fun _ h => h⟩) fun _ _ =>
        Safe.foldlM 0 fun id _ reaped => safe_quiet (fun _ hTyped _ => quiet_zrem_leases hTyped) fun r _ => ?_
    split
    · refine safe_fail.bind fun result => ?_
      cases result <;> trivial
    · trivial

theorem safe_requeueFromDlq : SafeJob typeOf Guard (requeueFromDlq id) := by
  refine safe_quiet (fun _ hTyped _ => ⟨hTyped, fun _ h => h⟩) fun r hTyped => ?_
  cases hGet : (exec (.get id) r).1 with
  | none => trivial
  | some job =>
    have hType : job.type = typeOf id := hTyped.get hGet
    dsimp only
    split
    · trivial
    · refine safe_quiet (fun _ hTyped _ => quiet_lrem_dlq hTyped) fun _ _ =>
        safe_removal (fun _ hTyped => hTyped) (fun r fault _ hBefore hAfter => ?_) fun _ _ =>
          safe_setPending rfl hType (safe_quiet (fun _ hTyped _ => quiet_lpush hTyped) fun _ _ => trivial)
            (covers_lpush rfl hType)
      rw [made_srem hBefore hAfter]
      refine Covers.now fun r _ hUnindexed => ?_
      have hDead := hUnindexed.1
      simp [exec, Redis.statusOf_store] at hDead

/-- An ended job, stored with an expiry. -/
theorem safe_setex {rest : Unit → RedisM α} (hStatus : job.status = .completed ∨ job.status = .failed)
    (hType : job.type = typeOf id) (hRest : SafeJob typeOf Guard (rest ())) :
    SafeJob typeOf Guard (redis (.setex id job) >>= rest) := by
  refine safe_quiet (fun r hTyped _ => ⟨hTyped.store hType, fun fault hAfter =>
    Classical.byContradiction fun hBefore => ?_⟩) fun _ _ => hRest
  rcases made_store hBefore hAfter with ⟨-, hLive, -⟩ | ⟨-, hDead, -⟩
  · rcases hStatus with h | h <;> rw [h] at hLive <;> rcases hLive with h | h <;> cases h
  · rcases hStatus with h | h <;> rw [h] at hDead <;> cases hDead

theorem safe_complete {result : String} (hGuard : ∀ r key, Guard (.lrem key id) r → ¬ r.Live id) :
    SafeJob typeOf Guard (complete cfg id result) := by
  refine safe_quiet (fun _ hTyped _ => ⟨hTyped, fun _ h => h⟩) fun r hTyped => ?_
  cases hGet : (exec (.get id) r).1 with
  | none => trivial
  | some stored =>
    have hType : stored.type = typeOf id := hTyped.get hGet
    exact safe_setex (.inl rfl) hType
      ((safe_dropProcessing_ended (fun r => hGuard r _) rfl).bind fun _ =>
        safe_clearLease.bind fun _ => trivial)

theorem safe_cancel (hGuard : ∀ r key, Guard (.lrem key id) r → ¬ r.Live id) :
    SafeJob typeOf Guard (cancel cfg id) := by
  refine safe_quiet (fun _ hTyped _ => ⟨hTyped, fun _ h => h⟩) fun r hTyped => ?_
  cases hGet : (exec (.get id) r).1 with
  | none => trivial
  | some stored =>
    have hType : stored.type = typeOf id := hTyped.get hGet
    dsimp only
    split
    · trivial
    · refine safe_setex (.inr rfl) hType
        (safe_quiet (fun r hTyped h => quiet_lrem hTyped (hGuard r _ h)) fun _ _ => ?_)
      split
      · exact (safe_dropProcessing_ended (fun r => hGuard r _) rfl).bind fun _ =>
          safe_clearLease.bind fun _ => trivial
      · exact safe_clearLease.bind fun _ => trivial

theorem safe_submit {type : JobType} {payload : String} {maxRetries : Int} (hType : type = typeOf id) :
    SafeJob typeOf Guard (submit cfg id type payload maxRetries) :=
  safe_setPending rfl hType (safe_quiet (fun _ hTyped _ => quiet_lpush hTyped) fun _ _ => trivial)
    (covers_lpush rfl hType)

theorem safe_claimId {types : List JobType} {workerId : String} :
    SafeJob typeOf Guard (claimId types workerId) := by
  unfold claimId
  split
  · exact safe_redis fun _ hTyped _ => quiet_brpoplpush hTyped
  · refine safe_removal (fun r hTyped => ?_) (fun r fault _ hBefore hAfter => ?_) fun r _ => ?_
    · intro id stored hStored
      rw [exec_brpop_blobs] at hStored
      exact hTyped id stored hStored
    · obtain ⟨type, id, hReply, rfl⟩ := made_brpop hBefore hAfter
      rw [hReply]
      refine Covers.now fun r _ hLost => hLost.2 (.inr (.inr ⟨workerId, ?_⟩))
      simp [exec]
    · cases (exec (.brpop _) r).1 with
      | none => trivial
      | some popped => exact safe_quiet (fun _ hTyped _ => quiet_rpush hTyped) fun _ _ => trivial

theorem safe_claimJob {workerId : String}
    (hGuard : ∀ r job, Guard (.set id job) r → id ∈ r.lists (.processing workerId))
    (hGone : ∀ r key, Guard (.lrem key id) r → ¬ r.Live id) :
    SafeJob typeOf Guard (claimJob cfg workerId id) := by
  refine safe_quiet (fun _ hTyped _ => ⟨hTyped, fun _ h => h⟩) fun r hTyped => ?_
  cases hGet : (exec (.get id) r).1 with
  | none => exact safe_quiet (fun r hTyped h => quiet_lrem hTyped (hGone r _ h)) fun _ _ => trivial
  | some stored =>
    have hType : stored.type = typeOf id := hTyped.get hGet
    refine safe_quiet (fun r hTyped h => ⟨hTyped.store hType, fun fault hAfter =>
      Classical.byContradiction fun hBefore => ?_⟩) fun _ _ => ?_
    · rcases made_store hBefore hAfter with ⟨-, -, hNot⟩ | ⟨-, hDead, -⟩
      · exact hNot (.inr (.inr ⟨workerId, hGuard r _ h⟩))
      · cases hDead
    · split
      · exact safe_quiet (fun _ hTyped _ => ⟨hTyped, fun _ h => h⟩) fun _ _ =>
          safe_quiet (fun _ hTyped _ => quiet_zadd hTyped) fun _ _ => trivial
      · trivial

theorem safe_pick {types : List JobType} {workerId : String}
    (hGuard : ∀ r id job, Guard (.set id job) r → id ∈ r.lists (.processing workerId))
    (hGone : ∀ r key id, Guard (.lrem key id) r → ¬ r.Live id) :
    SafeJob typeOf Guard (pick cfg types workerId) := by
  refine safe_claimId.bind fun claimed => ?_
  cases claimed with
  | none => trivial
  | some id => exact safe_claimJob (fun r => hGuard r id) fun r key => hGone r key id

theorem safe_setTraceId {traceId : String}
    (hGuard : ∀ r job, Guard (.set id job) r → r.statusOf id = some job.status) :
    SafeJob typeOf Guard (setTraceId id traceId) := by
  refine safe_quiet (fun _ hTyped _ => ⟨hTyped, fun _ h => h⟩) fun r hTyped => ?_
  cases hGet : (exec (.get id) r).1 with
  | none => trivial
  | some job =>
    have hType : job.type = typeOf id := hTyped.get hGet
    refine safe_redis fun r hTyped h => ⟨hTyped.store hType, fun fault hAfter =>
      Classical.byContradiction fun hBefore => ?_⟩
    have hStatus : r.statusOf id = some job.status := hGuard r { job with traceId } h
    refine hBefore ?_
    -- The status is the one that was there, so what is amiss was amiss before.
    rcases made_store hBefore hAfter with ⟨rfl, hLive, hNot⟩ | ⟨rfl, hDead, hNot⟩
    · refine ⟨?_, hNot⟩
      unfold Redis.Live
      rw [hStatus, Option.some.injEq, Option.some.injEq]
      exact hLive
    · exact ⟨by rw [hStatus]; exact congrArg some hDead, hNot⟩

/-- Every operation puts back what it takes, where its commands find what they expect. -/
theorem safe_operation {op : Operation} {program : RedisM Unit} (hStarts : Starts typeOf cfg op program) :
    SafeJob typeOf (Undisturbed typeOf op) program := by
  obtain ⟨hType, rfl⟩ := hStarts
  refine Safe.map _ ?_
  cases op with
  | submit id type payload maxRetries => exact (safe_submit (hType _ _ _ _ rfl)).map _
  | pick types workerId => exact (safe_pick (fun _ _ _ h => h) fun _ _ _ h => h).map _
  | complete id result => exact (safe_complete fun _ _ h => h).map _
  | fail id error => exact safe_fail.map _
  | deadLetter id error => exact (safe_deadLetter fun _ _ h => h).map _
  | cancel id => exact (safe_cancel fun _ _ h => h).map _
  | promoteDueJobs => exact safe_promoteDueJobs.map _
  | reapExpiredLeases => exact safe_reapExpiredLeases.map _
  | recoverProcessing workerId => exact (safe_recoverProcessing fun _ _ h => h).map _
  | requeueFromDlq id => exact safe_requeueFromDlq.map _
  | setTraceId id traceId => exact (safe_setTraceId fun _ _ h => h).map _

end programs

/-! ### Any state that the operations reach -/

theorem elapse_quiet {typeOf : JobId → JobType} {r r' : Redis} (hTyped : Typed typeOf r)
    (h : Elapse r r') : Typed typeOf r' ∧ ∀ fault : JobFault, fault.Present typeOf r' → fault.Present typeOf r := by
  cases h with
  | tick now => exact ⟨hTyped, fun fault h => by cases fault <;> exact h⟩
  | expire id stored hStored hExpires =>
    have hStatus : ∀ id' status, Redis.statusOf { r with blobs := r.blobs.drop id } id' = some status →
        r.statusOf id' = some status := by
      intro id' status h
      obtain ⟨found, hFound, hEq⟩ := Option.map_eq_some_iff.mp h
      exact Option.map_eq_some_iff.mpr ⟨found, (Table.drop_eq_some.mp hFound).2, hEq⟩
    refine ⟨fun id' found hFound => hTyped id' found (Table.drop_eq_some.mp hFound).2, fun fault hAfter => ?_⟩
    cases fault with
    | lost id' => exact ⟨hAfter.1.imp (hStatus _ _) (hStatus _ _), hAfter.2⟩
    | unindexed id' => exact ⟨hStatus _ _ hAfter.1, hAfter.2⟩

/-- An operation, running or crashed, whose commands to come put the job where it belongs: it does not
come to its end while that is amiss. -/
def InHand (typeOf : JobId → JobType) (w : JobSystem) (fault : JobFault) : Prop :=
  ∃ n p, w.processes n = some p ∧ CoversJob typeOf fault p.rest

def email : JobType := ⟨"email", by decide⟩

/-- No backoff and no leases. -/
def plainConfig : Config := ⟨3, 0, 0, 0⟩

def Anyhow (_ : Operation) (_ : Command) (_ : Redis) : Prop := True

/-- All that is to be done for an operation. -/
def wholeProgram (op : Operation) : RedisM Unit := (fun _ => ()) <$> op.program plainConfig

/-- The operation starts as process `n` and sends `k` commands. -/
def begun (w : JobSystem) (n : Nat) (op : Operation) (k : Nat) : JobSystem :=
  ⟨(advance exec k (wholeProgram op) w.state).2,
    w.processes.put n ⟨op, (advance exec k (wholeProgram op) w.state).1, false⟩⟩

theorem begun_run {Guard : Operation → Command → Redis → Prop} {w : JobSystem} {n : Nat} {op : Operation}
    (k : Nat) (hFree : w.processes n = none)
    (hType : ∀ id type payload maxRetries, op = .submit id type payload maxRetries → type = email)
    (hAll : ∀ c r, Guard op c r) :
    Run (JobStep (fun _ => email) plainConfig Guard) w (begun w n op k) := by
  have hStart : JobStep (fun _ => email) plainConfig Guard w
      { w with processes := w.processes.put n ⟨op, wholeProgram op, false⟩ } :=
    .start w n op _ hFree ⟨hType, rfl⟩
  have hGoes : Run (JobStep (fun _ => email) plainConfig Guard)
      { w with processes := w.processes.put n ⟨op, wholeProgram op, false⟩ } _ :=
    run_advance k hAll (Table.put_same _ _ _)
  rw [Table.put_put_same] at hGoes
  exact .head hStart hGoes

/-- Job 1 has been submitted. -/
def submitted (maxRetries : Int) : JobSystem := begun (idle 0) 0 (.submit 1 email "" maxRetries) 2

/-- A worker has picked it. -/
def inWork (maxRetries : Int) : JobSystem := begun (submitted maxRetries) 1 (.pick [email] "worker-1") 3

theorem inWork_run (maxRetries : Int) :
    Run (JobStep (fun _ => email) plainConfig Anyhow) (idle 0) (inWork maxRetries) := by
  refine (begun_run 2 rfl (fun id type payload maxRetries h => ?_) fun _ _ => trivial).trans
    (begun_run 3 rfl (fun _ _ _ _ h => ?_) fun _ _ => trivial)
  · cases h
    rfl
  · cases h

/-- Every operation has come to its end or crashed. -/
def AtRest (w : JobSystem) : Prop :=
  ∀ n p, w.processes n = some p → p.rest = .done () ∨ p.crashed = true

/-- Every process other than `n` has come to its end. -/
def EndedBut (n : Nat) (w : JobSystem) : Prop :=
  ∀ n' p, w.processes n' = some p → n' = n ∨ p.rest = .done () ∧ p.crashed = false

theorem EndedBut.put {w : JobSystem} {n m : Nat} {p : Process Operation Command Command.Reply}
    {state : Redis} (h : EndedBut n w) (hNow : m = n ∨ p.rest = .done () ∧ p.crashed = false) :
    EndedBut n ⟨state, w.processes.put m p⟩ := by
  intro n' p' hHere
  rcases Table.put_eq_some.mp hHere with ⟨rfl, rfl⟩ | ⟨-, hHere⟩
  · exact hNow
  · exact h n' p' hHere

theorem inWork_ended (n : Nat) (maxRetries : Int) : EndedBut n (inWork maxRetries) :=
  EndedBut.put (w := submitted maxRetries) (EndedBut.put (w := idle 0) (fun _ _ h => by cases h) (.inr ⟨rfl, rfl⟩))
    (.inr ⟨rfl, rfl⟩)

theorem EndedBut.atRest {w : JobSystem} {n : Nat} {p : Process Operation Command Command.Reply} {state : Redis}
    (h : EndedBut n w) (hNow : p.rest = .done () ∨ p.crashed = true) :
    AtRest ⟨state, w.processes.put n p⟩ := by
  intro n' p' hHere
  rcases Table.put_eq_some.mp hHere with ⟨-, rfl⟩ | ⟨hNe, hHere⟩
  · exact hNow
  · exact .inl ((h n' p' hHere).resolve_left hNe).1

theorem not_placed {r : Redis} (hLists : ∀ key, 1 ∉ r.lists key)
    (hDelayed : (r.sets .delayed).members = []) : ¬ Placed (fun _ => email) r 1 := by
  rintro (h | h | ⟨workerId, h⟩)
  · exact hLists _ h
  · rw [hDelayed] at h
    cases h
  · exact hLists _ h

/-- The lists after job 1 has gone through its queue to the worker and off its processing list. -/
def goneLists : ListKey → List JobId :=
  Function.update (Function.update (Function.update (Function.update (fun _ => []) (.queue email) [1])
    (.queue email) []) (.processing "worker-1") [1]) (.processing "worker-1") []

theorem goneLists_eq (key : ListKey) : goneLists key = [] := by
  unfold goneLists
  by_cases hWorker : key = .processing "worker-1"
  · rw [hWorker, Function.update_self]
  · rw [Function.update_of_ne hWorker, Function.update_of_ne hWorker]
    by_cases hQueue : key = .queue email
    · rw [hQueue, Function.update_self]
    · rw [Function.update_of_ne hQueue, Function.update_of_ne hQueue]

theorem begun_processes (w : JobSystem) (n : Nat) (op : Operation) (k : Nat) :
    (begun w n op k).processes =
      w.processes.put n ⟨op, (advance exec k (wholeProgram op) w.state).1, false⟩ := rfl

/-- An operator cancels the job while its worker fails it: the cancellation has been stored, and its
removals come after the job has been put back on its queue. -/
def cancelling : JobSystem := begun (inWork 3) 2 (.cancel 1) 2

def overtaken : JobSystem := begun cancelling 3 (.fail 1 "timeout") 4

theorem overtaken_run : Run (JobStep (fun _ => email) plainConfig Anyhow) (idle 0) overtaken := by
  refine ((inWork_run 3).trans (begun_run 2 rfl (fun _ _ _ _ h => ?_) fun _ _ => trivial)).trans
    (begun_run 4 rfl (fun _ _ _ _ h => ?_) fun _ _ => trivial) <;> cases h

end CyberAccountant.Jobs
