import CyberAccountant.Jobs.Atomic

/-! Where the ids of jobs stand.  An id occurs once among the queues, the delayed set and the processing
lists, and a dead job's id in none of them, as long as only jobs are failed whose ids are in the
processing list of the worker that their blob names. -/

namespace CyberAccountant.Jobs

open CyberAccountant.Library CyberAccountant.Library.Program

/-- What holds the ids of jobs that are to be done or under way. -/
inductive Place where
  | queue (type : JobType)
  | delayed
  | processing (workerId : String)
  deriving DecidableEq

/-- The list that a place is. -/
def Place.key : Place → Option ListKey
  | .queue type => some (.queue type)
  | .delayed => none
  | .processing workerId => some (.processing workerId)

/-- The ids that stand in a place. -/
def Redis.idsAt (r : Redis) : Place → List JobId
  | .queue type => r.lists (.queue type)
  | .delayed => (r.sets .delayed).members
  | .processing workerId => r.lists (.processing workerId)

/-- The id occurs at most once in all, and nowhere if its job is dead. -/
structure WellPlaced (id : JobId) (r : Redis) : Prop where
  once : ∀ place, (r.idsAt place).count id ≤ 1
  alone : ∀ place place', id ∈ r.idsAt place → id ∈ r.idsAt place' → place = place'
  dead : r.statusOf id = some .dead → ∀ place, id ∉ r.idsAt place

/-- If the job is stored, its id stands in the processing list of the worker that it names, or nowhere. -/
def Held (id : JobId) (r : Redis) : Prop :=
  ∀ stored, r.blobs id = some stored → ∀ place, id ∈ r.idsAt place →
    place = .processing stored.job.workerId ∧ stored.job.workerId ≠ ""

/-- Ids are drawn once, and only jobs that stand with their worker are failed. -/
def FailsHeld (op : Operation) (w : QueueWorld) : Prop :=
  match op with
  | .submit id _ _ _ => id ∉ w.drawn
  | .fail id _ | .deadLetter id _ => Held id w.redis
  | .reapExpiredLeases => ∀ id ∈ (w.redis.sets .leases).upTo w.redis.now, Held id w.redis
  | _ => True

section

variable {cfg : Config} {id : JobId} {job : Job} {r r' : Redis} {place : Place}

theorem idsAt_setList (key : ListKey) (ids : List JobId) (place : Place) :
    (r.setList key ids).idsAt place = if place.key = some key then ids else r.idsAt place := by
  have hList : ∀ key', (r.setList key ids).lists key' =
      if some key' = some key then ids else r.lists key' := by
    intro key'
    by_cases hCase : key' = key
    · rw [hCase, Redis.setList_same, if_pos rfl]
    · rw [Redis.setList_ne hCase, if_neg (by simpa using hCase)]
  cases place with
  | queue type => exact hList _
  | delayed => rfl
  | processing workerId => exact hList _

theorem idsAt_setDelayed (z : SortedSet) (place : Place) :
    (r.setSorted .delayed z).idsAt place = if place = .delayed then z.members else r.idsAt place := by
  cases place with
  | delayed => exact congrArg SortedSet.members Redis.setSorted_same
  | _ => rfl

theorem SameFor.count_idsAt (h : SameFor id r r') (place : Place) :
    (r'.idsAt place).count id = (r.idsAt place).count id := by
  cases place with
  | queue type => exact h.list _
  | delayed => exact h.sorted _
  | processing workerId => exact h.list _

theorem SameFor.mem_idsAt (h : SameFor id r r') : id ∈ r'.idsAt place ↔ id ∈ r.idsAt place := by
  rw [← List.count_pos_iff, ← List.count_pos_iff, h.count_idsAt]

theorem Shrunk.count_idsAt (h : Shrunk id r r') (place : Place) :
    (r'.idsAt place).count id ≤ (r.idsAt place).count id := by
  cases place with
  | queue type => exact h.list _ (by simp)
  | delayed => exact h.sorted _
  | processing workerId => exact h.list _ (by simp)

theorem Shrunk.mem_idsAt (h : Shrunk id r r') (hMem : id ∈ r'.idsAt place) : id ∈ r.idsAt place :=
  List.count_pos_iff.mp (Nat.lt_of_lt_of_le (List.count_pos_iff.mpr hMem) (h.count_idsAt place))

theorem mem_idsAt_of_removes {c : Command} (hMem : id ∈ (exec c r).2.idsAt place) (hC : Removes c) :
    id ∈ r.idsAt place := (Shrunk.of_removes hC).mem_idsAt hMem

theorem idsAt_setLeases (z : SortedSet) (place : Place) :
    (r.setSorted .leases z).idsAt place = r.idsAt place := by
  cases place <;> rfl

theorem SameFor.held (h : SameFor id r r') (hHeld : Held id r) : Held id r' := by
  intro stored hStored place hMem
  exact hHeld stored (h.blob.symm.trans hStored) place (h.mem_idsAt.mp hMem)

namespace WellPlaced

theorem sameFor (h : WellPlaced id r) (hSame : SameFor id r r') : WellPlaced id r' where
  once place := by
    rw [hSame.count_idsAt]
    exact h.once place
  alone place place' hMem hMem' := h.alone place place' (hSame.mem_idsAt.mp hMem) (hSame.mem_idsAt.mp hMem')
  dead hDead place hMem := h.dead (hSame.statusOf.symm.trans hDead) place (hSame.mem_idsAt.mp hMem)

theorem shrunk (h : WellPlaced id r) (hShrunk : Shrunk id r r')
    (hDead : r'.statusOf id = some .dead → r.statusOf id = some .dead) : WellPlaced id r' where
  once place := Nat.le_trans (hShrunk.count_idsAt place) (h.once place)
  alone place place' hMem hMem' := h.alone place place' (hShrunk.mem_idsAt hMem) (hShrunk.mem_idsAt hMem')
  dead hNow place hMem := h.dead (hDead hNow) place (hShrunk.mem_idsAt hMem)

theorem leases {z : SortedSet} (h : WellPlaced id r) : WellPlaced id (r.setSorted .leases z) where
  once place := by
    rw [idsAt_setLeases]
    exact h.once place
  alone place place' := by
    rw [idsAt_setLeases, idsAt_setLeases]
    exact h.alone place place'
  dead hDead place := by
    rw [idsAt_setLeases]
    exact h.dead hDead place

theorem of_nowhere (h : ∀ place, id ∉ r.idsAt place) : WellPlaced id r where
  once place := by
    rw [List.count_eq_zero.mpr (h place)]
    exact Nat.zero_le 1
  alone place _ hMem := absurd hMem (h place)
  dead _ := h

/-- The id stands in one place only, once, and its job is not dead. -/
theorem of_only (place : Place) (hOnly : ∀ place', id ∈ r.idsAt place' → place' = place)
    (hOnce : (r.idsAt place).count id ≤ 1) (hAlive : r.statusOf id ≠ some .dead) : WellPlaced id r where
  once place' := by
    by_cases hCase : place' = place
    · rw [hCase]
      exact hOnce
    · have hNone : id ∉ r.idsAt place' := fun hMem => hCase (hOnly place' hMem)
      rw [List.count_eq_zero.mpr hNone]
      exact Nat.zero_le 1
  alone place₁ place₂ hMem₁ hMem₂ := (hOnly place₁ hMem₁).trans (hOnly place₂ hMem₂).symm
  dead hDead := absurd hDead hAlive

/-- An id that stands nowhere is put on a queue. -/
theorem queued {type : JobType} (hNowhere : ∀ place, id ∉ r.idsAt place)
    (hAlive : r.statusOf id ≠ some .dead) :
    WellPlaced id (r.setList (.queue type) (id :: r.lists (.queue type))) := by
  refine of_only (.queue type) (fun place hMem => ?_) ?_ hAlive
  · rw [idsAt_setList] at hMem
    split at hMem
    · rename_i hKey
      cases place <;> cases hKey
      rfl
    · exact absurd hMem (hNowhere place)
  · have hNone : (r.lists (.queue type)).count id = 0 := List.count_eq_zero.mpr (hNowhere (.queue type))
    have hKey : (Place.queue type).key = some (.queue type) := rfl
    rw [idsAt_setList, if_pos hKey, List.count_cons_self, hNone]

/-- An id that stands nowhere is put into the delayed set. -/
theorem delayed {score : Int} (hNowhere : ∀ place, id ∉ r.idsAt place)
    (hAlive : r.statusOf id ≠ some .dead) :
    WellPlaced id (r.setSorted .delayed ((r.sets .delayed).add id score)) := by
  refine of_only .delayed (fun place hMem => ?_) ?_ hAlive
  · rw [idsAt_setDelayed] at hMem
    split at hMem
    · assumption
    · exact absurd hMem (hNowhere place)
  · rw [idsAt_setDelayed, if_pos rfl, SortedSet.count_add_same]

end WellPlaced

/-! ### Single operations -/

/-- Once the worker's list and the lease are cleared, a held job's id stands nowhere. -/
theorem Held.dropped {stored : Stored} (h : Held id r) (hStored : r.blobs id = some stored) (hSame : job.workerId = stored.job.workerId) :
    ∀ place, id ∉ ((clearLease cfg id).run exec ((dropProcessing id job).run exec r).2).2.idsAt place := by
  intro place hMem
  have hShrunk : Shrunk id r ((clearLease cfg id).run exec ((dropProcessing id job).run exec r).2).2 :=
    (Shrunk.of_calls dropProcessing_removes r).trans (.of_calls clearLease_removes _)
  obtain ⟨rfl, hWorker⟩ := h stored hStored place (hShrunk.mem_idsAt hMem)
  rw [Redis.idsAt, clearLease_lists, ← hSame] at hMem
  exact not_mem_dropProcessing (hSame ▸ hWorker) hMem

/-- A job that fails while its worker holds it goes to one place, or to none. -/
theorem settle_wellPlaced {error : String} (hNowhere : ∀ place, id ∉ r.idsAt place) :
    WellPlaced id ((settle cfg id job error).run exec r).2 := by
  unfold settle
  split
  · unfold retry requeue
    dsimp only
    have hPending : (r.store id { job with status := .pending, error } false).statusOf id ≠ some .dead := by
      rw [Redis.statusOf_store, if_pos rfl]
      simp
    rw [run_redis_bind]
    split
    · exact WellPlaced.delayed hNowhere hPending
    · exact WellPlaced.queued hNowhere hPending
  · refine WellPlaced.of_nowhere fun place hMem => hNowhere place ?_
    have hCalls : (giveUp id job error).Calls Removes :=
      ⟨trivial, fun _ => ⟨trivial, fun _ => ⟨trivial, fun _ => trivial⟩⟩⟩
    exact (Shrunk.of_calls hCalls r).mem_idsAt hMem

theorem fail_wellPlaced {error : String} (h : WellPlaced id r) (hHeld : Held id r) :
    WellPlaced id ((fail cfg id error).run exec r).2 := by
  unfold fail
  cases hStored : r.blobs id with
  | none =>
    rw [run_get_none hStored]
    exact h
  | some stored =>
    rw [run_get_some hStored]
    dsimp only
    rw [run_bind, run_bind, run_bind]
    exact settle_wellPlaced (hHeld.dropped hStored rfl)

theorem deadLetter_wellPlaced {error : String} (h : WellPlaced id r) (hHeld : Held id r) :
    WellPlaced id ((deadLetter cfg id error).run exec r).2 := by
  unfold deadLetter
  cases hStored : r.blobs id with
  | none =>
    rw [run_get_none hStored]
    exact h
  | some stored =>
    rw [run_get_some hStored]
    dsimp only
    rw [run_bind, run_bind]
    have hCalls : (redis (.lpush (.dlq stored.job.type) id) >>= fun _ => redis (.saddDlqAll id) >>= fun _ =>
        redis (.set id { stored.job with status := .dead, error }) >>= fun _ =>
          (pure (.ok ()) : RedisM (Except QueueError Unit))).Calls Removes :=
      ⟨trivial, fun _ => ⟨trivial, fun _ => ⟨trivial, fun _ => trivial⟩⟩⟩
    refine WellPlaced.of_nowhere fun place hMem => ?_
    have hBefore := (Shrunk.of_calls hCalls _).mem_idsAt hMem
    exact hHeld.dropped hStored rfl place hBefore

theorem requeueFromDlq_wellPlaced (h : WellPlaced id r) :
    WellPlaced id ((requeueFromDlq id).run exec r).2 := by
  unfold requeueFromDlq
  cases hStored : r.blobs id with
  | none =>
    rw [run_get_none hStored]
    exact h
  | some stored =>
    rw [run_get_some hStored]
    dsimp only
    split
    · exact h
    · rename_i hDead
      have hStatus : r.statusOf id = some .dead := by
        rw [Redis.statusOf, hStored, Option.map_some, not_not.mp hDead]
      rw [run_redis_bind, run_redis_bind, run_redis_bind]
      refine WellPlaced.queued (fun place hMem => h.dead hStatus place ?_) ?_
      · exact mem_idsAt_of_removes (mem_idsAt_of_removes (mem_idsAt_of_removes hMem trivial) trivial) trivial
      · change (Redis.store _ id _ false).statusOf id ≠ _
        rw [Redis.statusOf_store, if_pos rfl]
        simp

/-- A job is taken off the delayed set and put on its queue. -/
theorem promoteJob_wellPlaced {moved : Nat} (h : WellPlaced id r) :
    WellPlaced id ((promoteJob moved id).run exec r).2 := by
  unfold promoteJob
  rw [run_redis_bind]
  have hShrunk : Shrunk id r (exec (.zrem .delayed id) r).2 := Shrunk.of_removes trivial
  have hKept : WellPlaced id (exec (.zrem .delayed id) r).2 := h.shrunk hShrunk fun hDead => hDead
  by_cases hThere : id ∈ (r.sets .delayed).members
  · have hReply : (exec (.zrem .delayed id) r).1 = true := decide_eq_true hThere
    rw [hReply, if_pos rfl]
    cases hStored : (exec (.zrem .delayed id) r).2.blobs id with
    | none =>
      rw [run_get_none hStored]
      exact hKept
    | some stored =>
      rw [run_get_some hStored]
      refine WellPlaced.queued (fun place hMem => ?_) fun hDead => h.dead hDead .delayed hThere
      obtain rfl := h.alone place .delayed (hShrunk.mem_idsAt hMem) hThere
      have hGone : id ∉ SortedSet.members ((r.sets .delayed).remove id) := by simp
      change id ∈ (r.setSorted .delayed ((r.sets .delayed).remove id)).idsAt .delayed at hMem
      rw [idsAt_setDelayed, if_pos rfl] at hMem
      exact hGone hMem
  · have hReply : (exec (.zrem .delayed id) r).1 = false := decide_eq_false hThere
    rw [hReply]
    exact hKept

/-- A worker takes the id of a queue to its processing list. -/
theorem claimed_wellPlaced {type : JobType} {workerId : String} {ids : List JobId} (h : WellPlaced id r)
    (hIds : r.lists (.queue type) = (r.lists (.queue type)).dropLast ++ [id])
    (hPerm : ids.Perm (id :: r.lists (.processing workerId))) :
    WellPlaced id ((r.setList (.queue type) (r.lists (.queue type)).dropLast).setList
      (.processing workerId) ids) := by
  have hThere : id ∈ r.idsAt (.queue type) := by
    change id ∈ r.lists (.queue type)
    rw [hIds]
    simp
  have hQueue : (r.lists (.queue type)).dropLast.count id = 0 := by
    have hOnce := h.once (.queue type)
    rw [Redis.idsAt, hIds, List.count_append, List.count_singleton_self] at hOnce
    omega
  have hProcessing : id ∉ r.lists (.processing workerId) := fun hMem => by
    cases h.alone (.queue type) (.processing workerId) hThere hMem
  have hKey : (Place.processing workerId).key = some (.processing workerId) := rfl
  refine WellPlaced.of_only (.processing workerId) (fun place hMem => ?_) ?_ fun hDead =>
    h.dead hDead (.queue type) hThere
  · rw [idsAt_setList] at hMem
    split at hMem
    · rename_i hPlace
      cases place <;> cases hPlace
      rfl
    · rw [idsAt_setList] at hMem
      split at hMem
      · exact absurd hMem (List.count_eq_zero.mp hQueue)
      · rename_i hNe
        obtain rfl := h.alone place (.queue type) hMem hThere
        exact absurd rfl hNe
  · rw [idsAt_setList, if_pos hKey, hPerm.count_eq, List.count_cons_self, List.count_eq_zero.mpr hProcessing]

theorem claimJob_wellPlaced {workerId : String} (h : WellPlaced id r) :
    WellPlaced id ((claimJob cfg workerId id).run exec r).2 := by
  unfold claimJob
  cases hStored : r.blobs id with
  | none =>
    rw [run_get_none hStored]
    exact h.shrunk (Shrunk.of_removes trivial) fun hDead => hDead
  | some stored =>
    rw [run_get_some hStored]
    dsimp only
    rw [run_redis_bind]
    have hProcessing : WellPlaced id (r.store id { stored.job with status := .processing, workerId } false) := by
      refine h.shrunk ⟨fun _ _ => Nat.le_refl _, fun _ => Nat.le_refl _⟩ fun hDead => ?_
      rw [Redis.statusOf_store, if_pos rfl] at hDead
      cases hDead
    split
    · rw [run_redis_bind, run_redis_bind]
      exact hProcessing.leases
    · exact hProcessing

/-! ### Loops -/

def AllPlaced (r : Redis) : Prop := ∀ id, WellPlaced id r

theorem promoteDueJobs_wellPlaced (h : AllPlaced r) : AllPlaced ((promoteDueJobs cfg).run exec r).2 := by
  rcases run_promoteDueJobs cfg r with hRun | hRun
  · rw [hRun]
    exact h
  · rw [hRun]
    refine run_foldlM exec h fun id' _ moved s hs id => ?_
    by_cases hCase : id = id'
    · exact hCase ▸ promoteJob_wellPlaced (hs id)
    · exact (hs id).sameFor (.of_calls hCase promoteJob_concerns s)

/-- The command neither leases a job nor takes one from a queue. -/
def LeasesNone : Command → Prop
  | .zadd .leases _ _ | .brpoplpush _ _ | .brpop _ => False
  | _ => True

theorem mem_leases_of_exec {c : Command} (hC : LeasesNone c)
    (hMem : id ∈ ((exec c r).2.sets .leases).members) : id ∈ (r.sets .leases).members := by
  cases c with
  | zadd key id' score =>
    cases key with
    | leases => exact hC.elim
    | delayed =>
      change id ∈ ((r.setSorted .delayed _).sets .leases).members at hMem
      rwa [Redis.setSorted_ne (by simp)] at hMem
  | zrem key id' =>
    by_cases hKey : SetKey.leases = key
    · subst hKey
      change id ∈ ((r.setSorted .leases _).sets .leases).members at hMem
      rw [Redis.setSorted_same] at hMem
      exact (SortedSet.mem_members_remove.mp hMem).2
    · change id ∈ ((r.setSorted key _).sets .leases).members at hMem
      rwa [Redis.setSorted_ne hKey] at hMem
  | brpoplpush _ _ | brpop _ => exact hC.elim
  | _ => exact hMem

theorem fail_leasesNone {error : String} : (fail cfg id error).Calls LeasesNone := by
  refine get_calls trivial trivial fun stored => ?_
  have hDrop : (dropProcessing id { stored with retryCount := stored.retryCount + 1 }).Calls LeasesNone := by
    unfold dropProcessing
    split
    · trivial
    · exact ⟨trivial, fun _ => trivial⟩
  have hClear : (clearLease cfg id).Calls LeasesNone := by
    unfold clearLease
    split
    · trivial
    · exact ⟨trivial, fun _ => trivial⟩
  refine hDrop.bind fun _ => hClear.bind fun _ => Calls.bind ?_ fun _ => trivial
  unfold settle
  split
  · refine ⟨trivial, fun _ => ?_⟩
    unfold requeue
    dsimp only
    split
    · exact ⟨trivial, fun _ => ⟨trivial, fun _ => trivial⟩⟩
    · exact ⟨trivial, fun _ => trivial⟩
  · exact ⟨trivial, fun _ => ⟨trivial, fun _ => ⟨trivial, fun _ => trivial⟩⟩⟩

/-- The ids are well placed, and those of `ids` that are leased still are held. -/
def ReapsHeld (ids : List JobId) (r : Redis) : Prop :=
  AllPlaced r ∧ ∀ id ∈ ids, id ∈ (r.sets .leases).members → Held id r

theorem reapLease_keeps {ids : List JobId} {reaped : Nat} (hMem : id ∈ ids) (h : ReapsHeld ids r) :
    ReapsHeld ids ((reapLease cfg reaped id).run exec r).2 := by
  have hOthers : ∀ id', id' ≠ id → SameFor id' r ((reapLease cfg reaped id).run exec r).2 :=
    fun id' hNe => .of_calls hNe reapLease_concerns r
  have hSelf : WellPlaced id ((reapLease cfg reaped id).run exec r).2 ∧
      id ∉ (((reapLease cfg reaped id).run exec r).2.sets .leases).members := by
    unfold reapLease
    rw [run_redis_bind]
    have hTaken : WellPlaced id (exec (.zrem .leases id) r).2 := (h.1 id).leases
    have hGone : id ∉ ((exec (.zrem .leases id) r).2.sets .leases).members := by
      change id ∉ ((r.setSorted .leases _).sets .leases).members
      rw [Redis.setSorted_same]
      simp
    by_cases hThere : id ∈ (r.sets .leases).members
    · have hReply : (exec (.zrem .leases id) r).1 = true := decide_eq_true hThere
      have hHeld : Held id (exec (.zrem .leases id) r).2 := fun stored hStored place hPlace =>
        h.2 id hMem hThere stored hStored place (mem_idsAt_of_removes hPlace trivial)
      rw [hReply, if_pos rfl, run_bind]
      have hFailed : WellPlaced id ((fail cfg id "visibility timeout exceeded").run exec
          (exec (.zrem .leases id) r).2).2 := fail_wellPlaced hTaken hHeld
      have hLeft : ∀ c s, LeasesNone c → id ∈ ((exec c s).2.sets .leases).members →
          id ∈ (s.sets .leases).members := fun _ _ hC => mem_leases_of_exec hC
      have hLeases : ∀ s, id ∈ (((fail cfg id "visibility timeout exceeded").run exec s).2.sets .leases).members →
          id ∈ (s.sets .leases).members :=
        Calls.run (R := fun s s' : Redis => id ∈ (s'.sets .leases).members → id ∈ (s.sets .leases).members)
          (fun _ h => h) (fun _ _ _ hAB hBC h => hAB (hBC h)) hLeft fail_leasesNone
      cases hResult : ((fail cfg id "visibility timeout exceeded").run exec (exec (.zrem .leases id) r).2).1 with
      | error _ => exact ⟨hFailed, fun hIn => hGone (hLeases _ hIn)⟩
      | ok _ => exact ⟨hFailed, fun hIn => hGone (hLeases _ hIn)⟩
    · have hReply : (exec (.zrem .leases id) r).1 = false := decide_eq_false hThere
      rw [hReply]
      exact ⟨hTaken, hGone⟩
  constructor
  · intro id'
    by_cases hCase : id' = id
    · exact hCase ▸ hSelf.1
    · exact (h.1 id').sameFor (hOthers id' hCase)
  · intro id' hMem' hLeased
    by_cases hCase : id' = id
    · exact absurd (hCase ▸ hLeased) hSelf.2
    · have hSame := hOthers id' hCase
      exact hSame.held (h.2 id' hMem' (hSame.mem_sorted.mp hLeased))

theorem reapExpiredLeases_wellPlaced (h : AllPlaced r)
    (hHeld : ∀ id ∈ (r.sets .leases).upTo r.now, Held id r) :
    AllPlaced ((reapExpiredLeases cfg).run exec r).2 := by
  rcases run_reapExpiredLeases cfg r with ⟨hRun, -⟩ | ⟨-, hRun⟩
  · rw [hRun]
    exact h
  · rw [hRun]
    have hStart : ReapsHeld ((r.sets .leases).upTo r.now) r := ⟨h, fun id hMem _ => hHeld id hMem⟩
    have hEnd : ReapsHeld ((r.sets .leases).upTo r.now)
        ((((r.sets .leases).upTo r.now).foldlM (reapLease cfg) 0).run exec r).2 :=
      run_foldlM exec hStart fun id hMem _ _ hs => reapLease_keeps hMem hs
    exact hEnd.1

/-- A loop over the job's id and others comes to it once, and leaves it otherwise. -/
theorem foldlM_once {β : Type} {body : β → JobId → RedisM β} {ids : List JobId} {b : β} (hMem : id ∈ ids)
    (hOnce : ids.count id ≤ 1) (hBody : ∀ b id', (body b id').Calls (Concerns id')) :
    ∃ b' s, SameFor id r s ∧ SameFor id ((body b' id).run exec s).2 ((ids.foldlM body b).run exec r).2 := by
  obtain ⟨before, rest, rfl, hBefore⟩ := List.eq_append_cons_of_mem hMem
  have hRest : id ∉ rest := by
    rw [List.count_append, List.count_cons_self] at hOnce
    exact List.count_eq_zero.mp (by omega)
  rw [List.foldlM_append, run_bind, List.foldlM_cons, run_bind]
  exact ⟨_, _, SameFor.foldlM hBefore hBody, SameFor.foldlM hRest hBody⟩

/-- What stands in the list goes back to its queue, and the list is deleted. -/
theorem recoverProcessing_wellPlaced {workerId : String} (h : WellPlaced id r)
    (hThere : id ∈ r.lists (.processing workerId)) :
    WellPlaced id ((recoverProcessing workerId).run exec r).2 := by
  rcases run_recoverProcessing workerId r with ⟨hRun, -⟩ | ⟨-, hRun⟩
  · rw [hRun]
    exact h
  obtain ⟨recovered, s, hBefore, hAfter⟩ :
      ∃ recovered s, SameFor id r s ∧ SameFor id ((recoverJob recovered id).run exec s).2
        (((r.lists (.processing workerId)).foldlM recoverJob 0).run exec r).2 :=
    foldlM_once hThere (h.once (.processing workerId)) fun _ _ => recoverJob_concerns
  have hOnly : ∀ place, id ∈ s.idsAt place → place = .processing workerId := fun place hMem =>
    h.alone place (.processing workerId) (hBefore.mem_idsAt.mp hMem) hThere
  -- The list of the worker is left out: it is deleted in the end.
  have hOthers : ∀ place, place ≠ .processing workerId →
      ((recoverProcessing workerId).run exec r).2.idsAt place =
        (((r.lists (.processing workerId)).foldlM recoverJob 0).run exec r).2.idsAt place := by
    intro place hNe
    rw [hRun, idsAt_setList, if_neg]
    intro hKey
    cases place <;> cases hKey
    exact hNe rfl
  have hGone : id ∉ ((recoverProcessing workerId).run exec r).2.idsAt (.processing workerId) := by
    have hKey : (Place.processing workerId).key = some (.processing workerId) := rfl
    rw [hRun, idsAt_setList, if_pos hKey]
    exact List.not_mem_nil
  have hCount : ∀ place, place ≠ .processing workerId →
      (((recoverProcessing workerId).run exec r).2.idsAt place).count id =
        (((recoverJob recovered id).run exec s).2.idsAt place).count id := fun place hNe => by
    rw [hOthers place hNe, hAfter.count_idsAt]
  cases hStored : s.blobs id with
  | none =>
    have hSame : ((recoverJob recovered id).run exec s).2 = s := congrArg Prod.snd (run_get_none hStored)
    refine WellPlaced.of_nowhere fun place hMem => ?_
    by_cases hPlace : place = .processing workerId
    · exact hGone (hPlace ▸ hMem)
    · rw [← List.count_pos_iff, hCount place hPlace, hSame, List.count_pos_iff] at hMem
      exact hPlace (hOnly place hMem)
  | some stored =>
    have hBack : ((recoverJob recovered id).run exec s).2 =
        (s.store id { stored.job with status := .pending, workerId := "" } false).setList
          (.queue stored.job.type) (id :: s.lists (.queue stored.job.type)) :=
      congrArg Prod.snd (run_get_some hStored)
    refine WellPlaced.of_only (.queue stored.job.type) (fun place hMem => ?_) ?_ ?_
    · by_cases hPlace : place = .processing workerId
      · exact absurd (hPlace ▸ hMem) hGone
      · rw [← List.count_pos_iff, hCount place hPlace, hBack, List.count_pos_iff, idsAt_setList] at hMem
        split at hMem
        · rename_i hKey
          cases place <;> cases hKey
          rfl
        · exact absurd (hOnly place hMem) hPlace
    · have hNone : (s.lists (.queue stored.job.type)).count id = 0 :=
        List.count_eq_zero.mpr fun hMem => by cases hOnly (.queue stored.job.type) hMem
      have hKey : (Place.queue stored.job.type).key = some (.queue stored.job.type) := rfl
      rw [hCount _ (by simp), hBack, idsAt_setList, if_pos hKey, List.count_cons_self, hNone]
    · have hStatus : ((recoverProcessing workerId).run exec r).2.statusOf id =
          ((recoverJob recovered id).run exec s).2.statusOf id := by
        rw [hRun, ← hAfter.statusOf]
        rfl
      rw [hStatus, hBack]
      change (Redis.store _ id _ false).statusOf id ≠ _
      rw [Redis.statusOf_store, if_pos rfl]
      simp

/-! ### Runs -/

variable {w w' : QueueWorld}

/-- An operation that is called for a job puts its id nowhere else than it should stand. -/
theorem subject_wellPlaced {op : Operation} (hUnknown : Unknown w) (h : WellPlaced id w.redis)
    (hSubject : op.subject = some id) (hHeld : FailsHeld op w) : WellPlaced id (w.after cfg op).redis := by
  cases op with
  | submit id' type payload maxRetries =>
    obtain rfl := Option.some.inj hSubject
    have hSame := hUnknown id' hHeld
    rw [QueueWorld.after_redis rfl, submit, run_redis_bind, run_redis_bind]
    refine WellPlaced.queued (fun place hMem => ?_) ?_
    · have hEmpty : id' ∉ (Redis.empty 0).idsAt place := by cases place <;> exact List.not_mem_nil
      exact hEmpty (hSame.mem_idsAt.mp (mem_idsAt_of_removes hMem trivial))
    · change (Redis.store _ id' _ false).statusOf id' ≠ _
      rw [Redis.statusOf_store, if_pos rfl]
      simp
  | complete id' result =>
    obtain rfl := Option.some.inj hSubject
    rw [QueueWorld.after_redis rfl]
    refine h.shrunk (.of_calls complete_removes _) fun hDead => ?_
    cases hStored : w.redis.blobs id' with
    | none => rwa [complete, run_get_none hStored] at hDead
    | some stored =>
      rw [statusOf_complete hStored] at hDead
      cases hDead
  | cancel id' =>
    obtain rfl := Option.some.inj hSubject
    rw [QueueWorld.after_redis rfl]
    refine h.shrunk (.of_calls cancel_removes _) fun hDead => ?_
    cases hStored : w.redis.blobs id' with
    | none => rwa [cancel, run_get_none hStored] at hDead
    | some stored =>
      by_cases hEnded : Ended stored.job.status
      · rwa [run_cancel_ended hStored hEnded] at hDead
      · rw [statusOf_cancel hStored hEnded] at hDead
        cases hDead
  | fail id' error =>
    obtain rfl := Option.some.inj hSubject
    rw [QueueWorld.after_redis rfl]
    exact fail_wellPlaced h hHeld
  | deadLetter id' error =>
    obtain rfl := Option.some.inj hSubject
    rw [QueueWorld.after_redis rfl]
    exact deadLetter_wellPlaced h hHeld
  | requeueFromDlq id' =>
    obtain rfl := Option.some.inj hSubject
    rw [QueueWorld.after_redis rfl]
    exact requeueFromDlq_wellPlaced h
  | setTraceId id' traceId =>
    obtain rfl := Option.some.inj hSubject
    rw [QueueWorld.after_redis rfl]
    refine h.shrunk (.of_calls setTraceId_removes _) fun hDead => ?_
    cases hStored : w.redis.blobs id' with
    | none => rwa [setTraceId, run_get_none hStored] at hDead
    | some stored =>
      rw [run_setTraceId hStored, Redis.statusOf_store, if_pos rfl] at hDead
      rw [Redis.statusOf, hStored]
      exact hDead
  | pick _ _ | promoteDueJobs | reapExpiredLeases | recoverProcessing _ => cases hSubject

theorem pick_wellPlaced {types : List JobType} {workerId : String} (h : AllPlaced r) :
    AllPlaced ((pick cfg types workerId).run exec r).2 := by
  intro id
  rcases run_pick types workerId r with hRun | ⟨type, id', ids, -, hIds, hPerm, hRun⟩
  · rw [hRun]
    exact h id
  · rw [hRun]
    by_cases hCase : id = id'
    · subst hCase
      exact claimJob_wellPlaced (claimed_wellPlaced (h id) hIds hPerm)
    · exact ((h id).sameFor (.claimed hCase hIds hPerm)).sameFor (.of_calls hCase claimJob_concerns _)

theorem operation_wellPlaced {op : Operation} (hUnknown : Unknown w) (h : AllPlaced w.redis)
    (hHeld : FailsHeld op w) : AllPlaced (w.after cfg op).redis := by
  intro id
  by_cases hSubject : op.subject = some id
  · exact subject_wellPlaced hUnknown (h id) hSubject hHeld
  · by_cases hFinds : op.Finds cfg id w.redis
    · cases op with
      | pick types workerId =>
        rw [QueueWorld.after_redis rfl]
        exact pick_wellPlaced h id
      | promoteDueJobs =>
        rw [QueueWorld.after_redis rfl]
        exact promoteDueJobs_wellPlaced h id
      | reapExpiredLeases =>
        rw [QueueWorld.after_redis rfl]
        exact reapExpiredLeases_wellPlaced h hHeld id
      | recoverProcessing workerId =>
        rw [QueueWorld.after_redis rfl]
        exact recoverProcessing_wellPlaced (h id) hFinds
      | _ => exact hFinds.elim
    · exact (h id).sameFor (sameFor_of_not_finds hSubject hFinds)

theorem step_wellPlaced (h : Unknown w ∧ AllPlaced w.redis) (hStep : AtomicStep cfg FailsHeld w w') :
    Unknown w' ∧ AllPlaced w'.redis := by
  refine ⟨h.1.step hStep, ?_⟩
  cases hStep with
  | operation op hHeld => exact operation_wellPlaced h.1 h.2 hHeld
  | elapse r hElapse =>
    intro id
    have hShrunk : Shrunk id w.redis r :=
      ⟨fun key _ => by rw [hElapse.lists], fun key => by rw [hElapse.sets]⟩
    refine (h.2 id).shrunk hShrunk fun hDead => ?_
    rcases hElapse.statusOf id with hSame | hNone
    · exact hSame.symm.trans hDead
    · cases hNone.symm.trans hDead

/-- Every id stands once at most, and a dead job's nowhere; so two workers never have one job. -/
theorem single_placement {now : Int} (hRun : Run (AtomicStep cfg FailsHeld) (.start now) w) (id : JobId) :
    WellPlaced id w.redis ∧
      ∀ workerId workerId', id ∈ w.redis.lists (.processing workerId) →
        id ∈ w.redis.lists (.processing workerId') → workerId = workerId' := by
  have hStep : ∀ a b, Unknown a ∧ AllPlaced a.redis → AtomicStep cfg FailsHeld a b →
      Unknown b ∧ AllPlaced b.redis := fun _ _ h hStep => step_wellPlaced h hStep
  have hStart : Unknown (.start now) ∧ AllPlaced (QueueWorld.start now).redis := by
    refine ⟨.start now, fun id => .of_nowhere fun place => ?_⟩
    cases place <;> exact List.not_mem_nil
  have hPlaced : WellPlaced id w.redis := (Run.invariant hStep hRun hStart).2 id
  exact ⟨hPlaced, fun workerId workerId' hMem hMem' =>
    Place.processing.inj (hPlaced.alone (.processing workerId) (.processing workerId') hMem hMem')⟩

end

/-! ### A run on one job -/

theorem single_placement_reminded :
    WellPlaced 1 remindedInWork.redis ∧
      ∀ workerId workerId', 1 ∈ remindedInWork.redis.lists (.processing workerId) →
        1 ∈ remindedInWork.redis.lists (.processing workerId') → workerId = workerId' := by
  have hSubmit : AtomicStep usualConfig FailsHeld (.start 0) reminded := .operation _ _ List.not_mem_nil
  have hPick : AtomicStep usualConfig FailsHeld reminded remindedInWork := .operation _ _ trivial
  exact single_placement ((Relation.ReflTransGen.single hSubmit).tail hPick) 1

/-- The worker restarts and its job goes back to the queue. -/
def restarted : QueueWorld := remindedInWork.after usualConfig (.recoverProcessing "worker-1")

/-- The lease of the job, which no worker has any more, expires. -/
def leaseExpired : QueueWorld := { restarted with redis := { restarted.redis with now := 60000 } }

def reaped : QueueWorld := leaseExpired.after usualConfig .reapExpiredLeases

/-- A worker picks the job off the queue while it waits for its retry too. -/
def retryDue : QueueWorld :=
  let picked := reaped.after usualConfig (.pick [reminder] "worker-2")
  { picked with redis := { picked.redis with now := 61000 } }

/-- Another picks it after the retry is due. -/
def pickedTwice : QueueWorld :=
  (retryDue.after usualConfig .promoteDueJobs).after usualConfig (.pick [reminder] "worker-3")

theorem reaped_run : Run (AtomicStep usualConfig Proper) (.start 0) reaped := by
  have hRecover : AtomicStep usualConfig Proper remindedInWork restarted := .operation _ _ trivial
  have hTick : AtomicStep usualConfig Proper restarted leaseExpired := .elapse _ _ (.tick _ 60000)
  have hReap : AtomicStep usualConfig Proper leaseExpired reaped := .operation _ _ trivial
  exact ((remindedInWork_run.tail hRecover).tail hTick).tail hReap

/-- A job that its worker's restart has recovered is reaped when its lease expires: it stands in its queue
and in the delayed set, and two workers get it. -/
theorem placed_twice :
    (∃ w, Run (AtomicStep usualConfig Proper) (.start 0) w ∧ 1 ∈ w.redis.idsAt (.queue reminder) ∧
      1 ∈ w.redis.idsAt .delayed) ∧
    ∃ w, Run (AtomicStep usualConfig Proper) (.start 0) w ∧
      1 ∈ w.redis.lists (.processing "worker-2") ∧ 1 ∈ w.redis.lists (.processing "worker-3") := by
  constructor
  · exact ⟨reaped, reaped_run, by decide +kernel, by decide +kernel⟩
  · have hPick : AtomicStep usualConfig Proper reaped (reaped.after usualConfig (.pick [reminder] "worker-2")) :=
      .operation _ _ trivial
    have hTick : AtomicStep usualConfig Proper (reaped.after usualConfig (.pick [reminder] "worker-2")) retryDue :=
      .elapse _ _ (.tick _ 61000)
    have hPromote : AtomicStep usualConfig Proper retryDue (retryDue.after usualConfig .promoteDueJobs) :=
      .operation _ _ trivial
    have hPickAgain : AtomicStep usualConfig Proper (retryDue.after usualConfig .promoteDueJobs) pickedTwice :=
      .operation _ _ trivial
    exact ⟨pickedTwice, (((reaped_run.tail hPick).tail hTick).tail hPromote).tail hPickAgain,
      by decide +kernel, by decide +kernel⟩

end CyberAccountant.Jobs
