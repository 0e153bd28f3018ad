import CyberAccountant.Jobs.Atomic

/-! A job that has been completed or cancelled.  Its status is final, and its id is handed out no more,
as long as `complete` and `cancel` find the id where they look for it and no job that has ended is
failed or completed anew. -/

namespace CyberAccountant.Jobs

open CyberAccountant.Library CyberAccountant.Library.Program

/-- The id stands nowhere that an operation takes ids from. -/
structure Withdrawn (cfg : Config) (id : JobId) (r : Redis) : Prop where
  queue : ∀ type, id ∉ r.lists (.queue type)
  delayed : id ∉ (r.sets .delayed).members
  processing : ∀ workerId, id ∉ r.lists (.processing workerId)
  lease : 0 < cfg.visibilityTimeoutMs → id ∉ (r.sets .leases).members

/-- The queues, delayed sets and processing lists that `complete` does not look at are without the id. -/
structure CompleteFinds (id : JobId) (job : Job) (r : Redis) : Prop where
  queue : ∀ type, id ∉ r.lists (.queue type)
  delayed : id ∉ (r.sets .delayed).members
  processing : ∀ workerId, id ∈ r.lists (.processing workerId) → workerId ≠ "" ∧ workerId = job.workerId

/-- The queues, delayed sets and processing lists that `cancel` does not look at are without the id. -/
structure CancelFinds (id : JobId) (job : Job) (r : Redis) : Prop where
  queue : ∀ type, id ∈ r.lists (.queue type) → type = job.type
  delayed : id ∉ (r.sets .delayed).members
  processing : ∀ workerId, id ∈ r.lists (.processing workerId) →
    job.status = .processing ∧ workerId ≠ "" ∧ workerId = job.workerId

/-- Operations that end a job find its id where they look for it, and leave a job that has ended. -/
def EndsCleanly (op : Operation) (w : QueueWorld) : Prop :=
  Proper op w ∧
    match op with
    | .complete id _ => ∀ stored, w.redis.blobs id = some stored →
      stored.job.status ≠ .failed ∧ CompleteFinds id stored.job w.redis
    | .cancel id => ∀ stored, w.redis.blobs id = some stored → ¬ Ended stored.job.status →
      CancelFinds id stored.job w.redis
    | .fail id _ | .deadLetter id _ =>
      w.redis.statusOf id ≠ some .completed ∧ w.redis.statusOf id ≠ some .failed
    | _ => True

/-- The job has ended with the status, and may have expired since. -/
structure Finished (cfg : Config) (id : JobId) (status : JobStatus) (w : QueueWorld) : Prop where
  withdrawn : Withdrawn cfg id w.redis
  status : w.redis.statusOf id = some status ∨ w.redis.statusOf id = none
  drawn : id ∈ w.drawn

section

variable {cfg : Config} {id : JobId} {job : Job} {status : JobStatus} {r r' : Redis} {w w' : QueueWorld}

namespace Withdrawn

theorem not_finds (h : Withdrawn cfg id r) {op : Operation} : ¬ op.Finds cfg id r := by
  cases op with
  | pick types workerId =>
    rintro ⟨type, -, hMem⟩
    exact h.queue type hMem
  | promoteDueJobs => exact h.delayed
  | reapExpiredLeases => exact fun hFinds => h.lease hFinds.1 hFinds.2
  | recoverProcessing workerId => exact h.processing workerId
  | _ => exact not_false

theorem shrunk (h : Withdrawn cfg id r) (hShrunk : Shrunk id r r') : Withdrawn cfg id r' where
  queue type hMem := h.queue type (hShrunk.mem_list (by simp) hMem)
  delayed hMem := h.delayed (hShrunk.mem_sorted hMem)
  processing workerId hMem := h.processing workerId (hShrunk.mem_list (by simp) hMem)
  lease hOn hMem := h.lease hOn (hShrunk.mem_sorted hMem)

end Withdrawn

/-- `complete` leaves the id nowhere. -/
theorem complete_finishes {result : String} {stored : Stored} (hStored : r.blobs id = some stored)
    (hFinds : CompleteFinds id stored.job r) :
    ((complete cfg id result).run exec r).2.statusOf id = some .completed ∧
      Withdrawn cfg id ((complete cfg id result).run exec r).2 := by
  have hShrunk : Shrunk id r ((complete cfg id result).run exec r).2 := .of_calls complete_removes r
  have hRun : (complete cfg id result).run exec r = _ := run_complete hStored
  constructor
  · exact statusOf_complete hStored
  · refine ⟨fun type hMem => hFinds.queue type (hShrunk.mem_list (by simp) hMem),
      fun hMem => hFinds.delayed (hShrunk.mem_sorted hMem), fun workerId hMem => ?_, fun hOn => ?_⟩
    · obtain ⟨hSome, rfl⟩ := hFinds.processing workerId (hShrunk.mem_list (by simp) hMem)
      rw [hRun, clearLease_lists] at hMem
      exact not_mem_dropProcessing hSome hMem
    · rw [hRun]
      exact not_mem_clearLease hOn

/-- `cancel` leaves the id of a job that has not ended nowhere. -/
theorem cancel_finishes {stored : Stored} (hStored : r.blobs id = some stored)
    (hLive : ¬ Ended stored.job.status) (hFinds : CancelFinds id stored.job r) :
    ((cancel cfg id).run exec r).2.statusOf id = some .failed ∧
      Withdrawn cfg id ((cancel cfg id).run exec r).2 := by
  have hShrunk : Shrunk id r ((cancel cfg id).run exec r).2 := .of_calls cancel_removes r
  have hRun : (cancel cfg id).run exec r = _ := run_cancel hStored hLive
  have hDrop : ∀ s, Shrunk id s ((if stored.job.status = .processing then dropProcessing id stored.job
      else pure ()).run exec s).2 := by
    intro s
    split
    · exact .of_calls dropProcessing_removes s
    · exact .refl s
  constructor
  · exact statusOf_cancel hStored hLive
  · refine ⟨fun type hMem => ?_, fun hMem => hFinds.delayed (hShrunk.mem_sorted hMem),
      fun workerId hMem => ?_, fun hOn => ?_⟩
    · obtain rfl := hFinds.queue type (hShrunk.mem_list (by simp) hMem)
      rw [hRun, clearLease_lists] at hMem
      have hLeft := (hDrop _).mem_list (by simp) hMem
      rw [Redis.setList_same] at hLeft
      simp at hLeft
    · obtain ⟨hProcessing, hSome, rfl⟩ := hFinds.processing workerId (hShrunk.mem_list (by simp) hMem)
      rw [hRun, clearLease_lists, if_pos hProcessing] at hMem
      exact not_mem_dropProcessing hSome hMem
    · rw [hRun]
      exact not_mem_clearLease hOn

/-- The operations that end a job for good. -/
def Ends (cfg : Config) (id : JobId) (op : Operation) (w : QueueWorld) : Prop :=
  op = .cancel id ∧ w.outcome cfg op = .answered true ∨
    ∃ result, op = .complete id result ∧ w.outcome cfg op = .reported (.ok ())

/-- A job that `complete` or `cancel` has ended is finished. -/
theorem finished_of_ends {op : Operation} (hUnknown : Unknown w) (hClean : EndsCleanly op w)
    (hEnds : Ends cfg id op w) :
    ∃ status, (status = .completed ∨ status = .failed) ∧
      (w.after cfg op).redis.statusOf id = some status ∧ Finished cfg id status (w.after cfg op) := by
  rcases hEnds with ⟨rfl, hOutcome⟩ | ⟨result, rfl, hOutcome⟩
  · rw [QueueWorld.outcome_eq rfl] at hOutcome
    cases hBlob : w.redis.blobs id with
    | none =>
      rw [cancel, run_get_none hBlob] at hOutcome
      cases hOutcome
    | some stored =>
      by_cases hEnded : Ended stored.job.status
      · rw [run_cancel_ended hBlob hEnded] at hOutcome
        cases hOutcome
      · have hAfter : (w.after cfg (.cancel id)).redis = ((cancel cfg id).run exec w.redis).2 :=
          QueueWorld.after_redis rfl
        obtain ⟨hStatus, hWithdrawn⟩ := cancel_finishes hBlob hEnded (hClean.2 stored hBlob hEnded)
        rw [← hAfter] at hStatus hWithdrawn
        exact ⟨.failed, .inr rfl, hStatus, hWithdrawn, .inl hStatus, hUnknown.mem_drawn hBlob⟩
  · rw [QueueWorld.outcome_eq rfl] at hOutcome
    cases hBlob : w.redis.blobs id with
    | none =>
      rw [complete, run_get_none hBlob] at hOutcome
      cases hOutcome
    | some stored =>
      have hAfter : (w.after cfg (.complete id result)).redis = ((complete cfg id result).run exec w.redis).2 :=
        QueueWorld.after_redis rfl
      obtain ⟨hStatus, hWithdrawn⟩ := complete_finishes hBlob (hClean.2 stored hBlob).2
      rw [← hAfter] at hStatus hWithdrawn
      exact ⟨.completed, .inl rfl, hStatus, hWithdrawn, .inl hStatus, hUnknown.mem_drawn hBlob⟩

/-- An operation that is called for a finished job keeps its status and puts its id nowhere. -/
theorem Finished.subject {op : Operation} {stored : Stored} (h : Finished cfg id status w)
    (hStatus : status = .completed ∨ status = .failed) (hClean : EndsCleanly op w)
    (hSubject : op.subject = some id) (hBlob : w.redis.blobs id = some stored) :
    (w.after cfg op).redis.statusOf id = w.redis.statusOf id ∧ Shrunk id w.redis (w.after cfg op).redis := by
  have hBefore : w.redis.statusOf id = some stored.job.status := by
    rw [Redis.statusOf, hBlob]
    rfl
  have hNow : stored.job.status = status := by
    rcases h.status with hSome | hNone
    · exact Option.some.inj (hBefore.symm.trans hSome)
    · cases hBefore.symm.trans hNone
  cases op with
  | submit id' type payload maxRetries =>
    obtain rfl := Option.some.inj hSubject
    exact absurd h.drawn hClean.1
  | complete id' result =>
    obtain rfl := Option.some.inj hSubject
    rw [QueueWorld.after_redis rfl]
    refine ⟨?_, .of_calls complete_removes _⟩
    have hCompleted : status = .completed :=
      hStatus.resolve_right fun hFailed => (hClean.2 stored hBlob).1 (hNow.trans hFailed)
    rw [statusOf_complete hBlob, hBefore, hNow, hCompleted]
  | fail id' error | deadLetter id' error =>
    obtain rfl := Option.some.inj hSubject
    obtain ⟨hNotCompleted, hNotFailed⟩ := hClean.2
    rw [hBefore, hNow] at hNotCompleted hNotFailed
    rcases hStatus with rfl | rfl
    · exact absurd rfl hNotCompleted
    · exact absurd rfl hNotFailed
  | cancel id' =>
    obtain rfl := Option.some.inj hSubject
    have hEnded : Ended stored.job.status := by
      rw [hNow]
      exact hStatus.imp_right .inr
    rw [QueueWorld.after_redis rfl, run_cancel_ended hBlob hEnded]
    exact ⟨rfl, .refl _⟩
  | requeueFromDlq id' =>
    obtain rfl := Option.some.inj hSubject
    have hAlive : stored.job.status ≠ .dead := by
      rw [hNow]
      rcases hStatus with rfl | rfl <;> simp
    rw [QueueWorld.after_redis rfl, run_requeueFromDlq_alive hBlob hAlive]
    exact ⟨rfl, .refl _⟩
  | setTraceId id' traceId =>
    obtain rfl := Option.some.inj hSubject
    rw [QueueWorld.after_redis rfl]
    refine ⟨?_, .of_calls setTraceId_removes _⟩
    rw [run_setTraceId hBlob, Redis.statusOf_store, if_pos rfl, hBefore]
  | pick _ _ | promoteDueJobs | reapExpiredLeases | recoverProcessing _ => cases hSubject

/-- No operation changes a finished job's status or puts its id anywhere. -/
theorem Finished.operation {op : Operation} (h : Finished cfg id status w)
    (hStatus : status = .completed ∨ status = .failed) (hClean : EndsCleanly op w) :
    (w.after cfg op).redis.statusOf id = w.redis.statusOf id ∧ Shrunk id w.redis (w.after cfg op).redis := by
  by_cases hSubject : op.subject = some id
  · cases hBlob : w.redis.blobs id with
    | none =>
      have hSubmit : ∀ type payload maxRetries, op ≠ .submit id type payload maxRetries := by
        rintro type payload maxRetries rfl
        exact hClean.1 h.drawn
      have hSame : (w.after cfg op).redis = w.redis := run_of_missing hSubject hSubmit hBlob
      rw [hSame]
      exact ⟨rfl, .refl _⟩
    | some stored => exact h.subject hStatus hClean hSubject hBlob
  · have hSame : SameFor id w.redis (w.after cfg op).redis :=
      sameFor_of_not_finds hSubject h.withdrawn.not_finds
    exact ⟨hSame.statusOf, hSame.shrunk⟩

theorem Finished.step (h : Finished cfg id status w) (hStatus : status = .completed ∨ status = .failed)
    (hStep : AtomicStep cfg EndsCleanly w w') : Finished cfg id status w' := by
  cases hStep with
  | operation op hClean =>
    have ⟨hKept, hShrunk⟩ := h.operation hStatus hClean
    refine ⟨h.withdrawn.shrunk hShrunk, hKept ▸ h.status, ?_⟩
    · cases op with
      | submit id' _ _ _ => exact List.mem_cons_of_mem _ h.drawn
      | _ => exact h.drawn
  | elapse r hElapse =>
    have hShrunk : Shrunk id w.redis r :=
      ⟨fun key _ => by rw [hElapse.lists], fun key => by rw [hElapse.sets]⟩
    refine ⟨h.withdrawn.shrunk hShrunk, ?_, h.drawn⟩
    rcases hElapse.statusOf id with hSame | hNone
    · exact hSame ▸ h.status
    · exact .inr hNone

/-- Once `cancel` has answered that it cancelled a job, or `complete` has returned, the job's status is
that for ever, until it expires, and no `pick` hands the job out. -/
theorem terminal_final {now : Int} {op : Operation}
    (hRun : Run (AtomicStep cfg EndsCleanly) (.start now) w) (hClean : EndsCleanly op w)
    (hEnds : Ends cfg id op w) (hLater : Run (AtomicStep cfg EndsCleanly) (w.after cfg op) w') :
    (w'.redis.statusOf id = (w.after cfg op).redis.statusOf id ∨ w'.redis.statusOf id = none) ∧
      ∀ later, EndsCleanly later w' →
        (w'.after cfg later).redis.statusOf id = w'.redis.statusOf id ∧
          (w'.outcome cfg later).handedOut ≠ some id := by
  obtain ⟨status, hStatus, hNow, hFinished⟩ := finished_of_ends (Unknown.run hRun) hClean hEnds
  have hKeeps : ∀ a b, Finished cfg id status a → AtomicStep cfg EndsCleanly a b → Finished cfg id status b :=
    fun _ _ h hStep => h.step hStatus hStep
  have hThen : Finished cfg id status w' := Run.invariant hKeeps hLater hFinished
  refine ⟨?_, fun later hLaterClean => ⟨(hThen.operation hStatus hLaterClean).1, fun hOut => ?_⟩⟩
  · rw [hNow]
    exact hThen.status
  · exact hThen.withdrawn.not_finds (finds_of_handedOut hOut)

end

/-! ### Runs on one job -/

/-- `cancel` finds job 1 in its queue, and nowhere else. -/
theorem reminded_clean : EndsCleanly (.cancel 1) reminded := by
  refine ⟨trivial, fun stored hStored _ => ?_⟩
  obtain rfl := Option.some.inj hStored
  have hLists : reminded.redis.lists = Function.update (fun _ => []) (.queue reminder) [1] := rfl
  have hQueue : ∀ key, 1 ∈ reminded.redis.lists key → key = .queue reminder := by
    intro key hMem
    by_contra hNe
    rw [hLists, Function.update_of_ne hNe] at hMem
    cases hMem
  exact ⟨fun type hMem => ListKey.queue.inj (hQueue _ hMem), List.not_mem_nil,
    fun workerId hMem => by cases hQueue _ hMem⟩

/-- A worker that polls the queue after the cancellation gets nothing. -/
theorem terminal_final_reminded :
    (reminded.after usualConfig (.cancel 1)).redis.statusOf 1 = some .failed ∧
      ((reminded.after usualConfig (.cancel 1)).after usualConfig (.pick [reminder] "worker-1")).redis.statusOf 1 =
        some .failed ∧
      ((reminded.after usualConfig (.cancel 1)).outcome usualConfig (.pick [reminder] "worker-1")).handedOut ≠
        some 1 := by
  have hSubmit : AtomicStep usualConfig EndsCleanly (.start 0) reminded :=
    .operation _ _ ⟨List.not_mem_nil, trivial⟩
  have hFinal := terminal_final (.single hSubmit) reminded_clean (.inl ⟨rfl, rfl⟩) .refl
  have hLater := hFinal.2 (.pick [reminder] "worker-1") ⟨trivial, trivial⟩
  exact ⟨rfl, hLater.1, hLater.2⟩

/-- A job that waits for its retry is cancelled, promoted when it is due and handed out; and a job that
is cancelled in work is completed by its worker. -/
theorem cancelled_goes_on :
    (∃ w w', Run (AtomicStep usualConfig Proper) (.start 0) w ∧ Ends usualConfig 1 (.cancel 1) w ∧
      Run (AtomicStep usualConfig Proper) (w.after usualConfig (.cancel 1)) w' ∧
      (w'.outcome usualConfig (.pick [reminder] "worker-2")).handedOut = some 1) ∧
    ∃ w w', Run (AtomicStep usualConfig Proper) (.start 0) w ∧ Ends usualConfig 1 (.cancel 1) w ∧
      Run (AtomicStep usualConfig Proper) (w.after usualConfig (.cancel 1)) w' ∧
      (w.after usualConfig (.cancel 1)).redis.statusOf 1 = some .failed ∧
      w'.redis.statusOf 1 = some .completed := by
  have hPicked : 1 ∈ remindedInWork.picked := List.mem_cons_self
  constructor
  · let failed := remindedInWork.after usualConfig (.fail 1 "timeout")
    let cancelled := failed.after usualConfig (.cancel 1)
    let due : QueueWorld := { cancelled with redis := { cancelled.redis with now := 1000 } }
    have hTick : AtomicStep usualConfig Proper cancelled due := .elapse _ _ (.tick _ 1000)
    have hPromote : AtomicStep usualConfig Proper due (due.after usualConfig .promoteDueJobs) :=
      .operation _ _ trivial
    have hOut : ((due.after usualConfig .promoteDueJobs).outcome usualConfig
        (.pick [reminder] "worker-2")).handedOut = some 1 := by decide +kernel
    exact ⟨failed, _, remindedInWork_run.tail (.operation _ _ hPicked), .inl ⟨rfl, rfl⟩,
      (Relation.ReflTransGen.single hTick).tail hPromote, hOut⟩
  · have hComplete : AtomicStep usualConfig Proper (remindedInWork.after usualConfig (.cancel 1))
        ((remindedInWork.after usualConfig (.cancel 1)).after usualConfig (.complete 1 "sent")) :=
      .operation _ _ hPicked
    exact ⟨remindedInWork, _, remindedInWork_run, .inl ⟨rfl, rfl⟩, .single hComplete, rfl, rfl⟩

end CyberAccountant.Jobs
