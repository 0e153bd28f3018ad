import CyberAccountant.Security.Idempotency
import CyberAccountant.Library.Turns

/-! Requests with one idempotency key, served at once by any number of processes.  The lock lets one
handler run at a time, and the response that is stored before the lock is given back keeps the handler
from running again, unless a request that has found no response takes the lock only then. -/

namespace CyberAccountant.Security.Idempotency

open CyberAccountant.Library CyberAccountant.Library.Program

section

variable (sha256Hex : ByteArray → String)

/-- The responses of handlers that were successful. -/
def Cache.successes (s : Cache) : List Response := s.handled.filter (·.Successful)

/-- An answer that does not come from a second successful handler: the stored response, a 409, or what
the request's own handler has given. -/
def AnswerOk (bodyHash ck : String) (s : Cache) : Served → Prop
  | .executed resp => resp ∈ s.handled
  | .replayed stored =>
    s.values ck = some (.entry stored) ∧ ∃ resp, s.successes = [resp] ∧ stored = entryOf bodyHash resp
  | .inProgress _ => True
  | .conflict | .tooLarge => False

/-- The stored entry is the response of the one successful handler, and while the lock is free and there
is no entry, there has been none. -/
structure Consistent (bodyHash ck : String) (s : Cache) : Prop where
  entry : ∀ value, s.values ck = some value → ∃ resp, value = .entry (entryOf bodyHash resp) ∧ s.successes = [resp]
  free : s.values ck = none → s.values (lockKey ck) = none → s.successes = []
  once : s.successes.length ≤ 1
  answers : ∀ served ∈ s.answers, AnswerOk bodyHash ck s served

/-- What a request relies on: an entry stays and so do the responses of handlers; and for the holder
of the lock there are no new ones. -/
structure Relies (ck : String) (mine : Bool) (s s' : Cache) : Prop where
  entry : ∀ value, s.values ck = some value → s'.values ck = some value
  handled : ∀ resp ∈ s.handled, resp ∈ s'.handled
  guarded : mine = true → s'.values ck = s.values ck ∧ s'.successes = s.successes

/-- Who has the lock after a command. -/
def turnAfter (ck : String) (mine : Bool) : (c : CacheCommand) → c.Reply → Bool
  | .setNx key _, got => if key = lockKey ck then mine || got else mine
  | .compareAndDelete key _, _ => if key = lockKey ck then false else mine
  | _, _ => mine

/-- No request takes the lock after a response has been stored. -/
def LocksInTime (ck : String) : CacheCommand → Cache → Prop
  | .setNx _ _, s => s.values (lockKey ck) = none → s.values ck = none
  | _, _ => True

theorem lockKey_ne (ck : String) : lockKey ck ≠ ck := by
  intro h
  have hLength := congrArg String.length h
  rw [lockKey, String.length_append] at hLength
  have : ":lock".length = 5 := by decide
  omega

namespace Relies

variable {ck : String} {mine : Bool}

theorem refl (s : Cache) : Relies ck mine s s := ⟨fun _ h => h, fun _ h => h, fun _ => ⟨rfl, rfl⟩⟩

theorem trans {a b c : Cache} (hAB : Relies ck mine a b) (hBC : Relies ck mine b c) : Relies ck mine a c :=
  ⟨fun value h => hBC.entry value (hAB.entry value h), fun resp h => hBC.handled resp (hAB.handled resp h),
    fun hMine => ⟨(hBC.guarded hMine).1.trans (hAB.guarded hMine).1,
      (hBC.guarded hMine).2.trans (hAB.guarded hMine).2⟩⟩

/-- A command that touches neither the entry nor the log of the handlers. -/
theorem of_same {s s' : Cache} (hEntry : s'.values ck = s.values ck) (hHandled : s'.handled = s.handled) :
    Relies ck mine s s' :=
  ⟨fun value h => hEntry.trans h, fun resp h => hHandled.symm ▸ h, fun _ =>
    ⟨hEntry, by rw [Cache.successes, hHandled]; rfl⟩⟩

end Relies

theorem AnswerOk.same {bodyHash ck : String} {s s' : Cache} {served : Served} (h : AnswerOk bodyHash ck s served)
    (hEntry : s'.values ck = s.values ck) (hHandled : s'.handled = s.handled) : AnswerOk bodyHash ck s' served := by
  cases served with
  | executed resp =>
    change resp ∈ s'.handled
    rw [hHandled]
    exact h
  | replayed stored =>
    refine ⟨hEntry.trans h.1, ?_⟩
    rw [Cache.successes, hHandled]
    exact h.2
  | inProgress _ => trivial
  | conflict | tooLarge => exact h.elim

theorem AnswerOk.relies {bodyHash ck : String} {s s' : Cache} {served : Served} (hRelies : Relies ck false s s')
    (hInv : Consistent bodyHash ck s') (h : AnswerOk bodyHash ck s served) : AnswerOk bodyHash ck s' served := by
  cases served with
  | executed resp => exact hRelies.handled resp h
  | replayed stored =>
    have hEntry := hRelies.entry _ h.1
    obtain ⟨resp, hValue, hSuccesses⟩ := hInv.entry _ hEntry
    exact ⟨hEntry, resp, hSuccesses, Value.entry.inj hValue⟩
  | inProgress _ => trivial
  | conflict | tooLarge => exact h.elim

variable {sha256Hex}

/-- `Sound` for requests whose entry is at `ck`. -/
abbrev SoundServe {α : Type} (bodyHash ck : String) (mine : Bool) (p : CacheM α) (s : Cache) : Prop :=
  Sound exec (Consistent bodyHash ck) (fun s => s.values (lockKey ck) ≠ none) (Relies ck) (turnAfter ck)
    (LocksInTime ck) mine p s

section

variable {bodyHash ck : String} {s : Cache}

theorem Consistent.answered {served : Served} (h : Consistent bodyHash ck s) (hOk : AnswerOk bodyHash ck s served) :
    Consistent bodyHash ck { s with answers := served :: s.answers } where
  entry := h.entry
  free := h.free
  once := h.once
  answers served' hMem := by
    have hSame : AnswerOk bodyHash ck s served' := by
      rcases List.mem_cons.mp hMem with rfl | hMem
      · exact hOk
      · exact h.answers served' hMem
    cases served' <;> exact hSame

/-- An answer that is right may be sent. -/
theorem sound_answer {served : Served} (hOk : AnswerOk bodyHash ck s served) :
    SoundServe bodyHash ck false (cache (.answer served)) s := by
  intro s' hRely hInv _ _
  refine ⟨hInv.answered (hOk.relies hRely hInv), .of_same rfl rfl, fun _ _ => ⟨.of_same rfl rfl, fun h => h⟩,
    fun hTurn => (by cases hTurn), trivial⟩

/-- A look at the stored entry. -/
theorem sound_readStoredEntry {f : Option Entry → CacheM Unit}
    (hSome : ∀ s stored resp, s.values ck = some (.entry stored) → stored = entryOf bodyHash resp →
      s.successes = [resp] → SoundServe bodyHash ck false (f (some stored)) s)
    (hNone : ∀ s, SoundServe bodyHash ck false (f none) s) :
    SoundServe bodyHash ck false (readStoredEntry ck >>= f) s := by
  intro s' _ hInv _ _
  refine ⟨hInv, .refl _, fun _ _ => ⟨.refl _, fun h => h⟩, fun hTurn => (by cases hTurn), ?_⟩
  cases hValue : s'.values ck with
  | none =>
    have hReply : (exec (.get ck) s').1 = none := hValue
    rw [hReply]
    exact hNone s'
  | some value =>
    obtain ⟨resp, rfl, hSuccesses⟩ := hInv.entry value hValue
    have hReply : (exec (.get ck) s').1 = some (.entry (entryOf bodyHash resp)) := hValue
    rw [hReply]
    exact hSome s' _ resp hValue rfl hSuccesses

theorem put_ck (value : Option Value) : (s.put (lockKey ck) value).values ck = s.values ck :=
  Function.update_of_ne (lockKey_ne ck).symm ..

theorem put_lockKey (value : Option Value) : (s.put ck value).values (lockKey ck) = s.values (lockKey ck) :=
  Function.update_of_ne (lockKey_ne ck) ..

/-- The lock may be given back when there is an entry, or no handler has been successful. -/
theorem Consistent.released (h : Consistent bodyHash ck s) (hDone : s.values ck = none → s.successes = []) :
    Consistent bodyHash ck (s.put (lockKey ck) none) where
  entry value hValue := h.entry value ((put_ck none).symm.trans hValue)
  free hNone _ := hDone ((put_ck none).symm.trans hNone)
  once := h.once
  answers served hMem := (h.answers served hMem).same (put_ck none) rfl

/-- The holder gives the lock back and answers. -/
theorem sound_release {resp : Response} (hHandled : resp ∈ s.handled)
    (hDone : s.values ck = none → s.successes = []) :
    SoundServe bodyHash ck true (cache (.compareAndDelete (lockKey ck) bodyHash) >>= fun _ =>
      cache (.answer (.executed resp))) s := by
  intro s' hRely hInv hTaken _
  obtain ⟨hEntry, hSuccesses⟩ := hRely.guarded rfl
  have hDone' : s'.values ck = none → s'.successes = [] := fun hNone => by
    rw [hSuccesses]
    exact hDone (hEntry.symm.trans hNone)
  have hTurn : ∀ reply, turnAfter ck true (.compareAndDelete (lockKey ck) bodyHash) reply = false :=
    fun _ => if_pos rfl
  have hAfter : (exec (.compareAndDelete (lockKey ck) bodyHash) s').2 = s' ∨
      (exec (.compareAndDelete (lockKey ck) bodyHash) s').2 = s'.put (lockKey ck) none := by
    simp only [exec]
    split
    · split
      · exact .inr rfl
      · exact .inl rfl
    · exact .inl rfl
  have hAnswer : ∀ s'', s''.handled = s'.handled →
      SoundServe bodyHash ck false (cache (.answer (.executed resp))) s'' := fun s'' hSame =>
    sound_answer (show resp ∈ s''.handled from hSame.symm ▸ hRely.handled resp hHandled)
  rw [hTurn]
  refine ⟨?_, ?_, fun hMine => (by cases hMine), fun hMine => (by cases hMine), ?_⟩
  all_goals rcases hAfter with hAfter | hAfter <;> rw [hAfter]
  · exact hInv
  · exact hInv.released hDone'
  · exact .refl s'
  · exact .of_same (put_ck none) rfl
  · exact hAnswer s' rfl
  · exact hAnswer _ rfl

/-- A response that is stored when it is successful. -/
def Cachable (cfg : Config) (resp : Response) : Prop :=
  resp.Successful → resp.body.size ≤ cfg.maxResponseBytes ∧ resp.body.validateUTF8 = true

/-- The holder stores the response of its handler, gives the lock back and answers. -/
theorem sound_store {cfg : Config} {resp : Response} (hCachable : Cachable cfg resp) (hHandled : resp ∈ s.handled)
    (hNone : s.values ck = none) (hSuccesses : s.successes = if resp.Successful then [resp] else []) :
    SoundServe bodyHash ck true (store cfg ⟨ck, bodyHash, lockKey ck⟩ resp >>= fun _ =>
      cache (.compareAndDelete (lockKey ck) bodyHash) >>= fun _ => cache (.answer (.executed resp))) s := by
  unfold store
  by_cases hSuccessful : resp.Successful
  · obtain ⟨hSize, hUtf8⟩ := hCachable hSuccessful
    have hDump : (entryOf bodyHash resp).dump = some (.entry (entryOf bodyHash resp)) := if_pos hUtf8
    rw [if_neg (not_not.mpr hSuccessful), if_neg (Nat.not_lt.mpr hSize), hDump]
    rw [if_pos hSuccessful] at hSuccesses
    intro s' hRely hInv hTaken _
    obtain ⟨hEntry, hSame⟩ := hRely.guarded rfl
    have hStored : (s'.put ck (some (.entry (entryOf bodyHash resp)))).values ck =
        some (.entry (entryOf bodyHash resp)) := Function.update_self ..
    have hLock : (s'.put ck (some (.entry (entryOf bodyHash resp)))).values (lockKey ck) ≠ none := by
      rw [put_lockKey]
      exact hTaken rfl
    have hRelies : Relies ck false s' (s'.put ck (some (.entry (entryOf bodyHash resp)))) := by
      refine ⟨fun value h => ?_, fun _ h => h, fun hMine => by cases hMine⟩
      rw [hEntry, hNone] at h
      cases h
    have hInv' : Consistent bodyHash ck (s'.put ck (some (.entry (entryOf bodyHash resp)))) := by
      refine ⟨fun value h => ?_, fun h => ?_, hInv.once, fun served hMem => ?_⟩
      · obtain rfl := Option.some.inj (hStored.symm.trans h)
        exact ⟨resp, rfl, hSame.trans hSuccesses⟩
      · cases hStored.symm.trans h
      · have hOk := hInv.answers served hMem
        cases served with
        | executed _ | inProgress _ => exact hOk
        | replayed stored => cases (hEntry.trans hNone).symm.trans hOk.1
        | conflict | tooLarge => exact hOk.elim
    refine ⟨hInv', hRelies, fun hMine => (by cases hMine), fun _ => ⟨hLock, fun hMine => (by cases hMine)⟩, ?_⟩
    exact sound_release (hRely.handled resp hHandled) fun h => by cases hStored.symm.trans h
  · rw [if_pos hSuccessful]
    rw [if_neg hSuccessful] at hSuccesses
    exact sound_release hHandled fun _ => hSuccesses

/-- The holder of the lock, who has found no entry and no successful handler, runs its own. -/
theorem sound_handle {cfg : Config} {resp : Response} (hCachable : Cachable cfg resp) (hNone : s.values ck = none)
    (hSuccesses : s.successes = []) :
    SoundServe bodyHash ck true (cache (.handle resp) >>= fun _ => store cfg ⟨ck, bodyHash, lockKey ck⟩ resp >>= fun _ =>
      cache (.compareAndDelete (lockKey ck) bodyHash) >>= fun _ => cache (.answer (.executed resp))) s := by
  intro s' hRely hInv hTaken _
  obtain ⟨hEntry, hSame⟩ := hRely.guarded rfl
  have hNone' : s'.values ck = none := hEntry.trans hNone
  have hNow : ({ s' with handled := resp :: s'.handled } : Cache).successes =
      if resp.Successful then [resp] else [] := by
    have hBefore : s'.handled.filter (·.Successful) = [] := hSame.trans hSuccesses
    rw [Cache.successes, List.filter_cons, hBefore]
    by_cases h : resp.Successful <;> simp [h]
  have hInv' : Consistent bodyHash ck { s' with handled := resp :: s'.handled } := by
    refine ⟨fun value h => ?_, fun _ hFree => absurd hFree (hTaken rfl), ?_, fun served hMem => ?_⟩
    · cases hNone'.symm.trans h
    · rw [hNow]
      split <;> simp
    · have hOk := hInv.answers served hMem
      cases served with
      | executed _ => exact List.mem_cons_of_mem _ hOk
      | replayed stored => cases hNone'.symm.trans hOk.1
      | inProgress _ => trivial
      | conflict | tooLarge => exact hOk.elim
  have hRelies : Relies ck false s' { s' with handled := resp :: s'.handled } :=
    ⟨fun _ h => h, fun _ h => List.mem_cons_of_mem _ h, fun hMine => by cases hMine⟩
  refine ⟨hInv', hRelies, fun hMine => (by cases hMine), fun _ => ⟨hTaken rfl, fun hMine => (by cases hMine)⟩, ?_⟩
  exact sound_store hCachable List.mem_cons_self hNone' hNow

/-- What `pre_handle` answers from a stored response. -/
theorem answerFrom_ok {stored : Entry} {resp : Response} (hEntry : s.values ck = some (.entry stored))
    (hStored : stored = entryOf bodyHash resp) (hSuccesses : s.successes = [resp]) :
    AnswerOk bodyHash ck s (answerFrom stored bodyHash) := by
  have hHash : ¬ stored.reqHash ≠ bodyHash := by
    rw [hStored]
    exact not_not.mpr rfl
  rw [answerFrom, if_neg hHash]
  exact ⟨hEntry, resp, hSuccesses, hStored⟩

/-- A request that has found no stored response asks for the lock. -/
theorem sound_lock {next : Bool → CacheM Unit}
    (hGot : ∀ s, s.values ck = none → s.successes = [] → SoundServe bodyHash ck true (next true) s)
    (hRefused : ∀ s, SoundServe bodyHash ck false (next false) s) :
    SoundServe bodyHash ck false (cache (.setNx (lockKey ck) bodyHash) >>= next) s := by
  intro s' hRely hInv _ hGuard
  cases hFree : s'.values (lockKey ck) with
  | none =>
    have hNone : s'.values ck = none := hGuard hFree
    have hExec : exec (.setNx (lockKey ck) bodyHash) s' = (true, s'.put (lockKey ck) (some (.text bodyHash))) := by
      simp only [exec, hFree]
      rfl
    have hTurn : turnAfter ck false (.setNx (lockKey ck) bodyHash) true = true := if_pos rfl
    have hHeld : (s'.put (lockKey ck) (some (.text bodyHash))).values (lockKey ck) = some (.text bodyHash) :=
      Function.update_self ..
    have hLock : (s'.put (lockKey ck) (some (.text bodyHash))).values (lockKey ck) ≠ none := by
      rw [hHeld]
      simp
    have hInv' : Consistent bodyHash ck (s'.put (lockKey ck) (some (.text bodyHash))) :=
      ⟨fun value h => hInv.entry value ((put_ck _).symm.trans h), fun _ h => absurd h hLock, hInv.once,
        fun served hMem => (hInv.answers served hMem).same (put_ck _) rfl⟩
    rw [hExec]
    dsimp only
    rw [hTurn]
    refine ⟨hInv', .of_same (put_ck _) rfl, fun _ hTurn => (by cases hTurn), fun _ => ⟨hLock, fun _ => not_not.mpr hFree⟩, ?_⟩
    exact hGot _ ((put_ck _).trans hNone) (hInv.free hNone hFree)
  | some value =>
    have hExec : exec (.setNx (lockKey ck) bodyHash) s' = (false, s') := by
      simp only [exec, hFree]
      rfl
    have hTurn : turnAfter ck false (.setNx (lockKey ck) bodyHash) false = false := if_pos rfl
    rw [hExec]
    dsimp only
    rw [hTurn]
    refine ⟨hInv, .refl s', fun _ _ => ⟨.refl s', fun h => h⟩, fun hTurn => (by cases hTurn), ?_⟩
    exact hRefused s'

end

/-- What a request is that the hooks keep to one handler. -/
structure Tracked (setup : Setup) (cfg : Config) (req : Request) : Prop where
  config : setup.config = some cfg
  cacheInitialized : setup.cacheInitialized = true
  enabled : cfg.enabled = true
  mutating : isMutating req.method = true
  key : req.idempotencyKey ≠ ""
  body : req.body.size ≤ cfg.maxBodyBytes

variable {setup : Setup} {cfg : Config} {req : Request}

theorem Tracked.preHandle (h : Tracked setup cfg req) :
    preHandle sha256Hex setup req = track sha256Hex cfg req := by
  unfold Idempotency.preHandle
  rw [h.config]
  simp [h.enabled, h.mutating, h.key, h.cacheInitialized, Nat.not_lt.mpr h.body]

theorem Tracked.postHandle (h : Tracked setup cfg req) (a : Attributes) (resp : Response) :
    postHandle setup (some a) resp =
      store cfg a resp >>= fun _ => cache (.compareAndDelete a.lockKey a.bodyHash) := by
  unfold Idempotency.postHandle
  rw [h.config]
  simp [h.enabled, h.cacheInitialized]

/-- A request is sound from its arrival. -/
theorem sound_serve {resp : Response} (h : Tracked setup cfg req) (hCachable : Cachable cfg resp) (s : Cache) :
    SoundServe (sha256Hex req.body) (req.cacheKey sha256Hex) false (serve sha256Hex setup req resp) s := by
  unfold serve
  rw [h.preHandle]
  unfold track
  rw [bind_assoc]
  refine sound_readStoredEntry (fun s stored resp hEntry hStored hSuccesses => ?_) fun s => ?_
  · exact sound_answer (answerFrom_ok hEntry hStored hSuccesses)
  · dsimp only
    rw [bind_assoc]
    refine sound_lock (fun s hNone hSuccesses => ?_) fun s => ?_
    · rw [if_pos rfl, pure_bind]
      dsimp only
      rw [h.postHandle]
      simp only [bind_assoc]
      exact sound_handle hCachable hNone hSuccesses
    · rw [if_neg (by simp), bind_assoc]
      refine sound_readStoredEntry (fun s stored resp hEntry hStored hSuccesses => ?_) fun s => ?_
      · exact sound_answer (answerFrom_ok hEntry hStored hSuccesses)
      · exact sound_answer trivial

/-- Requests like `req` arrive, and their handlers give responses that `Admits` admits. -/
def Arrives (sha256Hex : ByteArray → String) (setup : Setup) (req : Request) (Admits : Response → Prop)
    (resp : Response) (program : CacheM Unit) : Prop :=
  Admits resp ∧ program = serve sha256Hex setup req resp

/-- What requests with other keys may do meanwhile. -/
structure Elsewhere (ck : String) (s s' : Cache) : Prop where
  entry : s'.values ck = s.values ck
  lock : s'.values (lockKey ck) = s.values (lockKey ck)
  handled : s'.handled = s.handled
  answers : s'.answers = s.answers

abbrev ServerStep (sha256Hex : ByteArray → String) (setup : Setup) (req : Request) (Admits : Response → Prop)
    (Guard : CacheCommand → Cache → Prop) :
    System Response CacheCommand CacheCommand.Reply Cache →
      System Response CacheCommand CacheCommand.Reply Cache → Prop :=
  SystemStep exec (Arrives sha256Hex setup req Admits) (fun _ => Guard) (Elsewhere (req.cacheKey sha256Hex))

/-- Before the first request. -/
def idle (values : String → Option Value) : System Response CacheCommand CacheCommand.Reply Cache :=
  ⟨⟨values, [], []⟩, Table.empty⟩

theorem elsewhere_ok {s s' : Cache} {bodyHash ck : String} (hInv : Consistent bodyHash ck s)
    (h : Elsewhere ck s s') : Consistent bodyHash ck s' ∧
      (s.values (lockKey ck) ≠ none → s'.values (lockKey ck) ≠ none) ∧ ∀ mine, Relies ck mine s s' := by
  have hSuccesses : s'.successes = s.successes := by
    rw [Cache.successes, h.handled]
    rfl
  refine ⟨⟨fun value hValue => ?_, fun hNone hFree => ?_, ?_, fun served hMem => ?_⟩, ?_, fun mine =>
    .of_same h.entry h.handled⟩
  · rw [hSuccesses]
    exact hInv.entry value (h.entry.symm.trans hValue)
  · rw [hSuccesses]
    exact hInv.free (h.entry.symm.trans hNone) (h.lock.symm.trans hFree)
  · rw [hSuccesses]
    exact hInv.once
  · exact (hInv.answers served (h.answers ▸ hMem)).same h.entry h.handled
  · rw [h.lock]
    exact fun hTaken => hTaken

end

/-! ### Runs of one request -/

def invoiceRequest : Request where
  method := .post
  path := "/api/v1/invoices"
  idempotencyKey := "k-1"
  body := ⟨#[123, 125]⟩
  subject := some "user-7"
  peerIp := "10.0.0.1"

/-- The SHA-256 of the path and of the body of the request. -/
def invoiceSha256 (bytes : ByteArray) : String :=
  if bytes.size = 2 then "44136fa355b3678a1146ad16f7e8649e94fb4fc21fe77e8310c060f61caaff8a"
  else "7ae2c955eb08a130a11eb088e4386f96ff2ef89b652371d300238f1f9ca99368"

def usualConfig : Config := ⟨true, 1048576, 1024, 30⟩

def usualSetup : Setup := ⟨some usualConfig, true⟩

def created : Response := ⟨201, "application/json", [], ⟨#[123, 125]⟩⟩

theorem invoiceTracked : Tracked usualSetup usualConfig invoiceRequest :=
  ⟨rfl, rfl, rfl, rfl, by decide, by decide⟩

theorem created_cachable : Cachable usualConfig created := fun _ => ⟨by decide, by decide⟩

/-- A response that is not stored. -/
def large : Response := ⟨200, "application/pdf", [], ⟨Array.replicate 1025 37⟩⟩

abbrev AnyStep (Admits : Response → Prop) :=
  ServerStep invoiceSha256 usualSetup invoiceRequest Admits fun _ _ => True

def served (w : System Response CacheCommand CacheCommand.Reply Cache) (n : Nat) (resp : Response) (k : Nat) :
    System Response CacheCommand CacheCommand.Reply Cache :=
  w.launch exec n resp (serve invoiceSha256 usualSetup invoiceRequest resp) k

theorem served_run {Admits : Response → Prop} {w : System Response CacheCommand CacheCommand.Reply Cache} {n : Nat}
    {resp : Response} (k : Nat) (hFree : w.processes n = none) (hAdmits : Admits resp) :
    Run (AnyStep Admits) w (served w n resp k) :=
  run_launch k hFree ⟨hAdmits, rfl⟩ fun _ _ => trivial

end CyberAccountant.Security.Idempotency
