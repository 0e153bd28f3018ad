import CyberAccountant.Security.SingleExecution

/-! The idempotency hooks while Redis fails.  Every call to it may fail; the caller then goes on with a
default reply, which it cannot tell from a real one. -/

namespace CyberAccountant.Security.Idempotency

open CyberAccountant.Library CyberAccountant.Library.Program

/-- How a call to Redis ends.  One that fails may have taken effect before its reply was lost. -/
inductive Outcome where
  | succeeds
  | fails (tookEffect : Bool)
  deriving DecidableEq

/-- What the hooks go on with when the call fails: the default of `CacheManager`, which swallows the
errors of Redis, or that of the `catch` around the call. -/
def CacheCommand.fallback : (c : CacheCommand) → c.Reply
  | .get _ => none
  | .setNx _ _ => false
  | .del _ | .set _ _ | .compareAndDelete _ _ | .handle _ | .answer _ => ()

def CacheCommand.toRedis : CacheCommand → Bool
  | .handle _ | .answer _ => false
  | _ => true

/-- The cache, and how each call to it will end. -/
structure FaultyCache where
  cache : Cache
  outcomes : Nat → Outcome
  calls : Nat

def execFaulty (c : CacheCommand) (s : FaultyCache) : c.Reply × FaultyCache :=
  if c.toRedis then
    match s.outcomes s.calls with
    | .succeeds => ((exec c s.cache).1, { s with cache := (exec c s.cache).2, calls := s.calls + 1 })
    | .fails tookEffect =>
      (c.fallback, { s with cache := if tookEffect then (exec c s.cache).2 else s.cache, calls := s.calls + 1 })
  else ((exec c s.cache).1, { s with cache := (exec c s.cache).2 })

/-- The status of what `pre_handle` answers instead of the handler. -/
def Verdict.status? : Verdict → Option Int
  | .respond (.replayed stored) => some stored.status
  | .respond served => served.error?.map ErrorBody.status
  | .proceed _ => none

def Verdict.LetsThrough (v : Verdict) : Prop := ∃ attributes, v = .proceed attributes

/-- The request passes the checks before the one of its body's size. -/
structure Watched (setup : Setup) (cfg : Config) (req : Request) : Prop where
  config : setup.config = some cfg
  enabled : cfg.enabled = true
  mutating : isMutating req.method = true
  key : req.idempotencyKey ≠ ""
  cacheInitialized : setup.cacheInitialized = true

section

variable {sha256Hex : ByteArray → String} {setup : Setup} {cfg : Config} {req : Request}

theorem preHandle_unwatched (h : ∀ cfg, ¬ Watched setup cfg req) :
    preHandle sha256Hex setup req = pure (.proceed none) := by
  unfold preHandle
  split
  · rfl
  rename_i cfg hConfig
  repeat' split
  all_goals try rfl
  all_goals
    rename_i hEnabled hMutating hKey hInitialized _
    exact absurd ⟨hConfig, not_not.mp hEnabled, not_not.mp hMutating, hKey, not_not.mp hInitialized⟩ (h cfg)

theorem Watched.preHandle (h : Watched setup cfg req) :
    preHandle sha256Hex setup req =
      if cfg.maxBodyBytes < req.body.size then pure (.respond .tooLarge) else track sha256Hex cfg req := by
  unfold Idempotency.preHandle
  rw [h.config]
  simp [h.enabled, h.mutating, h.key, h.cacheInitialized]

theorem Watched.unique {cfg' : Config} (h : Watched setup cfg req) (h' : Watched setup cfg' req) : cfg' = cfg :=
  Option.some.inj (h'.config.symm.trans h.config)

/-- No stored response is found where there is none, whether the look at it fails or not. -/
theorem readStoredEntry_faulty {ck : String} {s : FaultyCache} (hNone : s.cache.values ck = none) :
    (readStoredEntry ck).run execFaulty s = (none, { s with calls := s.calls + 1 }) := by
  have hGet : execFaulty (.get ck) s = (none, { s with calls := s.calls + 1 }) := by
    simp only [execFaulty, CacheCommand.toRedis, if_true]
    cases s.outcomes s.calls with
    | succeeds => simp only [exec, hNone]
    | fails tookEffect => cases tookEffect <;> rfl
  simp only [readStoredEntry, cache, perform, run_bind, run_call, run_done, hGet, run_pure]

/-- Where nobody else is, the lock is got by a call that succeeds, and by no other. -/
theorem setNx_faulty {key : String} (value : String) {s : FaultyCache} (hFree : s.cache.values key = none) :
    (execFaulty (.setNx key value) s).1 = decide (s.outcomes s.calls = .succeeds) := by
  simp only [execFaulty, CacheCommand.toRedis, if_true]
  cases hOutcome : s.outcomes s.calls with
  | succeeds => simp [exec, hFree]
  | fails tookEffect => simp [CacheCommand.fallback]

theorem setNx_faulty_entry {ck : String} (value : String) {s : FaultyCache} (hNone : s.cache.values ck = none) :
    (execFaulty (.setNx (lockKey ck) value) s).2.cache.values ck = none := by
  have hExec : (exec (.setNx (lockKey ck) value) s.cache).2.values ck = none := by
    simp only [exec]
    split
    · exact hNone
    · exact (put_ck _).trans hNone
  simp only [execFaulty, CacheCommand.toRedis, if_true]
  cases s.outcomes s.calls with
  | succeeds => exact hExec
  | fails tookEffect =>
    cases tookEffect with
    | false => exact hNone
    | true => exact hExec

/-- The whole of `track` for a request that is alone: the second call decides. -/
theorem track_faulty {s : FaultyCache} (hNone : s.cache.values (req.cacheKey sha256Hex) = none)
    (hFree : s.cache.values (lockKey (req.cacheKey sha256Hex)) = none) :
    ((track sha256Hex cfg req).run execFaulty s).1 =
      if s.outcomes (s.calls + 1) = .succeeds then
        .proceed (some ⟨req.cacheKey sha256Hex, sha256Hex req.body, lockKey (req.cacheKey sha256Hex)⟩)
      else .respond (.inProgress cfg.lockTtlSec) := by
  have hGot := setNx_faulty (sha256Hex req.body) (s := { s with calls := s.calls + 1 }) hFree
  have hStill := setNx_faulty_entry (sha256Hex req.body) (s := { s with calls := s.calls + 1 }) hNone
  by_cases hOutcome : s.outcomes (s.calls + 1) = .succeeds
  · simp only [hOutcome, decide_true] at hGot
    simp only [track, run_bind, readStoredEntry_faulty hNone, cache, perform, run_call, run_done, hGot,
      hOutcome, if_true, run_pure]
  · simp only [hOutcome, decide_false] at hGot
    simp only [track, run_bind, readStoredEntry_faulty hNone, cache, perform, run_call, run_done, hGot,
      hOutcome, Bool.false_eq_true, if_false, readStoredEntry_faulty hStill, run_pure]

/-- No call to Redis sends an answer, however it ends. -/
theorem execFaulty_answers {c : CacheCommand} (h : c.toRedis = true) (s : FaultyCache) :
    (execFaulty c s).2.cache.answers = s.cache.answers := by
  have hExec : (exec c s.cache).2.answers = s.cache.answers := by
    cases c with
    | get _ | del _ | set _ _ => rfl
    | setNx _ _ =>
      simp only [exec]
      split <;> rfl
    | compareAndDelete _ _ =>
      simp only [exec]
      split
      · split <;> rfl
      · rfl
    | handle _ | answer _ => cases h
  simp only [execFaulty, h, if_true]
  rcases s.outcomes s.calls with _ | ⟨_ | _⟩
  · exact hExec
  · rfl
  · exact hExec

theorem answers_kept {α : Type} {p : CacheM α} (h : p.Calls fun c => c.toRedis = true) (s : FaultyCache) :
    (p.run execFaulty s).2.cache.answers = s.cache.answers := by
  have hTrans : ∀ a b c : FaultyCache, b.cache.answers = a.cache.answers → c.cache.answers = b.cache.answers →
      c.cache.answers = a.cache.answers := fun _ _ _ hAB hBC => hBC.trans hAB
  exact Calls.run (R := fun s s' : FaultyCache => s'.cache.answers = s.cache.answers) (fun _ => rfl) hTrans
    (fun c s h => execFaulty_answers h s) h s

theorem readStoredEntry_calls (ck : String) : (readStoredEntry ck).Calls fun c => c.toRedis = true := by
  refine ⟨rfl, fun reply => ?_⟩
  rcases reply with _ | ⟨_ | _⟩
  · trivial
  · trivial
  · exact ⟨rfl, fun _ => trivial⟩

theorem preHandle_calls : (preHandle sha256Hex setup req).Calls fun c => c.toRedis = true := by
  have hTrack : ∀ cfg, (track sha256Hex cfg req).Calls fun c => c.toRedis = true := by
    intro cfg
    refine (readStoredEntry_calls _).bind fun stored => ?_
    cases stored with
    | some stored => trivial
    | none =>
      refine ⟨rfl, fun got => ?_⟩
      cases got with
      | true => trivial
      | false =>
        refine (readStoredEntry_calls _).bind fun stored => ?_
        cases stored <;> trivial
  unfold preHandle
  repeat' split
  all_goals first | trivial | exact hTrack _

theorem postHandle_calls (attributes : Option Attributes) (resp : Response) :
    (postHandle setup attributes resp).Calls fun c => c.toRedis = true := by
  unfold postHandle
  split
  · repeat' split
    · trivial
    · trivial
    refine Calls.bind ?_ fun _ => ⟨rfl, fun _ => trivial⟩
    unfold store
    repeat' split
    all_goals first | trivial | exact ⟨rfl, fun _ => trivial⟩
  · trivial

/-- What is let through is answered with what its handler gives. -/
theorem serve_answers {resp : Response} {s : FaultyCache}
    (h : ((preHandle sha256Hex setup req).run execFaulty s).1.LetsThrough) :
    ((serve sha256Hex setup req resp).run execFaulty s).2.cache.answers = .executed resp :: s.cache.answers := by
  obtain ⟨attributes, hVerdict⟩ := h
  have hHandled : ∀ s, (execFaulty (.handle resp) s).2.cache.answers = s.cache.answers := fun _ => rfl
  have hAnswered : ∀ s, (execFaulty (.answer (.executed resp)) s).2.cache.answers =
      .executed resp :: s.cache.answers := fun _ => rfl
  simp only [serve, run_bind, hVerdict, cache, perform, run_call, run_done]
  rw [hAnswered, answers_kept (postHandle_calls _ _), hHandled, answers_kept preHandle_calls]

/-- What `pre_handle` makes of a request that it looks after and that is alone. -/
theorem Watched.verdict (h : Watched setup cfg req) {s : FaultyCache}
    (hNone : s.cache.values (req.cacheKey sha256Hex) = none)
    (hFree : s.cache.values (lockKey (req.cacheKey sha256Hex)) = none) :
    ((Idempotency.preHandle sha256Hex setup req).run execFaulty s).1 =
      if cfg.maxBodyBytes < req.body.size then .respond .tooLarge
      else if s.outcomes (s.calls + 1) = .succeeds then
        .proceed (some ⟨req.cacheKey sha256Hex, sha256Hex req.body, lockKey (req.cacheKey sha256Hex)⟩)
      else .respond (.inProgress cfg.lockTtlSec) := by
  rw [h.preHandle]
  split
  · rfl
  · exact track_faulty hNone hFree

/-- `pre_handle` lets a request that is alone through, and keeps from refusing it for another's sake,
exactly when the call for the lock does not fail; a body that is too large is refused before any call.
A response is never altered. -/
theorem preHandle_fails_open_iff (setup : Setup) (req : Request) (resp : Response) (s : FaultyCache)
    (hNone : s.cache.values (req.cacheKey sha256Hex) = none)
    (hFree : s.cache.values (lockKey (req.cacheKey sha256Hex)) = none) :
    (((preHandle sha256Hex setup req).run execFaulty s).1.LetsThrough ↔
      ∀ cfg, Watched setup cfg req →
        req.body.size ≤ cfg.maxBodyBytes ∧ s.outcomes (s.calls + 1) = .succeeds) ∧
    ((∀ status, ((preHandle sha256Hex setup req).run execFaulty s).1.status? = some status →
        status ≠ 409 ∧ status ≠ 422 ∧ status < 500) ↔
      ∀ cfg, Watched setup cfg req →
        cfg.maxBodyBytes < req.body.size ∨ s.outcomes (s.calls + 1) = .succeeds) ∧
    (((preHandle sha256Hex setup req).run execFaulty s).1.LetsThrough →
      ((serve sha256Hex setup req resp).run execFaulty s).2.cache.answers =
        .executed resp :: s.cache.answers) := by
  rw [← and_assoc]
  refine ⟨?_, serve_answers⟩
  by_cases hWatched : ∃ cfg, Watched setup cfg req
  · obtain ⟨cfg, hWatched⟩ := hWatched
    have hOnly : ∀ {P : Config → Prop}, (∀ cfg, Watched setup cfg req → P cfg) ↔ P cfg := fun {P} =>
      ⟨fun h => h cfg hWatched, fun h _ h' => hWatched.unique h' ▸ h⟩
    rw [hOnly, hOnly, hWatched.verdict hNone hFree]
    by_cases hLarge : cfg.maxBodyBytes < req.body.size
    · simp [hLarge, Nat.not_le.mpr hLarge, Verdict.LetsThrough, Verdict.status?, Served.error?]
    by_cases hOutcome : s.outcomes (s.calls + 1) = .succeeds
    · simp [hLarge, hOutcome, Verdict.LetsThrough, Verdict.status?, Nat.le_of_not_lt hLarge]
    · simp [hLarge, hOutcome, Verdict.LetsThrough, Verdict.status?, Served.error?]
  · have hUnwatched := not_exists.mp hWatched
    rw [preHandle_unwatched hUnwatched]
    exact ⟨⟨fun _ cfg h => absurd h (hUnwatched cfg), fun _ => ⟨none, rfl⟩⟩,
      ⟨fun _ cfg h => absurd h (hUnwatched cfg), fun _ status h => by cases h⟩⟩

end

/-! ### A request during an outage -/

/-- Nothing is stored and nobody else is there; the first call succeeds and the others fail. -/
def outage : FaultyCache where
  cache := ⟨fun _ => none, [], []⟩
  outcomes := fun n => if n = 0 then .succeeds else .fails false
  calls := 0

def calm : FaultyCache := { outage with outcomes := fun _ => .succeeds }

theorem preHandle_calm :
    ((preHandle invoiceSha256 usualSetup invoiceRequest).run execFaulty calm).1.LetsThrough :=
  (preHandle_fails_open_iff usualSetup invoiceRequest created calm rfl rfl).1.mpr fun cfg h => by
    have hConfig : cfg = usualConfig := (Option.some.inj h.config).symm
    subst hConfig
    exact ⟨by decide, rfl⟩

/-- Another request is said to be in progress. -/
theorem outage_refused : outage.cache.values (invoiceRequest.cacheKey invoiceSha256) = none ∧
    outage.cache.values (lockKey (invoiceRequest.cacheKey invoiceSha256)) = none ∧
    ((preHandle invoiceSha256 usualSetup invoiceRequest).run execFaulty outage).1 = .respond (.inProgress 30) ∧
    ((preHandle invoiceSha256 usualSetup invoiceRequest).run execFaulty outage).1.status? = some 409 := by
  have hVerdict : ((preHandle invoiceSha256 usualSetup invoiceRequest).run execFaulty outage).1 =
      .respond (.inProgress 30) := rfl
  exact ⟨rfl, rfl, hVerdict, by rw [hVerdict]; rfl⟩

end CyberAccountant.Security.Idempotency
