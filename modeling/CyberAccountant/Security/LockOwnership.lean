import CyberAccountant.Security.IdempotencyKeys

/-! Requests of any keys, served at once, with locks and entries that may expire at any time.  The text of
a lock is the hash of its request's body, so a lock says whose body it is of and not whose request: who
has acquired it is known only here, beside the cache. -/

namespace CyberAccountant.Security.Idempotency

open CyberAccountant.Library CyberAccountant.Library.Program

/-- A request that has arrived, with what is left of it. -/
structure Flight where
  request : Request
  rest : CacheM Unit
  /-- The key and the text of the lock that it has taken and not yet given back. -/
  lock : Option (String × String)

structure World where
  cache : Cache
  /-- Which request has acquired the lock that stands under a key. -/
  owner : String → Option Nat
  flights : Table Nat Flight
  /-- Which request has deleted a lock of which other. -/
  stolen : List (Nat × Nat)

inductive Event where
  | arrive (n : Nat) (request : Request) (response : Response)
  /-- The request goes on by one command. -/
  | call (n : Nat)
  | expire (key : String)
  | crash (n : Nat)

/-- The command removes a lock. -/
def Cache.deletes (s : Cache) : CacheCommand → Option String
  | .compareAndDelete key owner =>
    match s.values key with
    | some (.text value) => if value = owner then some key else none
    | _ => none
  | _ => none

/-- The lock that a request holds after a command. -/
def holds (lock : Option (String × String)) : (c : CacheCommand) → c.Reply → Option (String × String)
  | .setNx key value, got => if got then some (key, value) else lock
  | .compareAndDelete _ _, _ => none
  | .get _, _ | .del _, _ | .set _ _, _ | .handle _, _ | .answer _, _ => lock

/-- Who owns which lock after a command of the request `n`. -/
def ownerAfter (owner : String → Option Nat) (s : Cache) (n : Nat) : CacheCommand → String → Option Nat
  | .setNx key value => if (exec (.setNx key value) s).1 then Function.update owner key (some n) else owner
  | .set key _ => Function.update owner key none
  | .del key => Function.update owner key none
  | .compareAndDelete key text =>
    if s.deletes (.compareAndDelete key text) = some key then Function.update owner key none else owner
  | .get _ | .handle _ | .answer _ => owner

/-- The lock of another that the command deletes. -/
def theft (w : World) (n : Nat) (c : CacheCommand) : List (Nat × Nat) :=
  match (w.cache.deletes c).bind w.owner with
  | some m => if m = n then [] else [(n, m)]
  | none => []

section

variable (sha256Hex : ByteArray → String) (setup : Setup)

def World.step (w : World) : Event → World
  | .arrive n request response =>
    match w.flights n with
    | some _ => w
    | none => { w with flights := w.flights.put n ⟨request, serve sha256Hex setup request response, none⟩ }
  | .call n =>
    match w.flights n with
    | some ⟨request, .call c next, lock⟩ =>
      { cache := (exec c w.cache).2
        owner := ownerAfter w.owner w.cache n c
        flights := w.flights.put n ⟨request, next (exec c w.cache).1, holds lock c (exec c w.cache).1⟩
        stolen := theft w n c ++ w.stolen }
    | _ => w
  | .expire key =>
    { w with
      cache := w.cache.put key none
      owner := Function.update w.owner key none }
  | .crash n =>
    match w.flights n with
    | some f => { w with flights := w.flights.put n { f with rest := .done (), lock := none } }
    | none => w

def World.run (w : World) (events : List Event) : World := events.foldl (World.step sha256Hex setup) w

/-- The requests that the hooks look after and that have arrived as another than `n`. -/
def World.Others (w : World) (n : Nat) (req : Request) : Prop :=
  ∃ m f cfg, m ≠ n ∧ w.flights m = some f ∧ f.request = req ∧ Tracked setup cfg req

/-- The step is none by which a lock or a key comes to be taken for another: a request that arrives
has keys apart from those of the others, and no request takes a lock, with the hash of its body, that
another with a body of that hash has lost and not yet tried to give back. -/
def Orderly (w : World) : Event → Prop
  | .arrive n request _ => ∀ cfg req, Tracked setup cfg request → w.Others setup n req → Apart sha256Hex request req
  | .call n => ∀ request key value next lock, w.flights n = some ⟨request, .call (.setNx key value) next, lock⟩ →
    w.cache.values key = none → ∀ m f, m ≠ n → w.flights m = some f → f.lock ≠ some (key, value)
  | .expire _ | .crash _ => True

/-- Every step of the run is orderly. -/
def OrderlyRun (w : World) : List Event → Prop
  | [] => True
  | e :: events => Orderly sha256Hex setup w e ∧ OrderlyRun (w.step sha256Hex setup e) events

/-- No lock of another has been deleted, and the keys of any two requests are separate. -/
structure OwnLocks (w : World) : Prop where
  own : w.stolen = []
  keys : ∀ n m f g cfg cfg', n ≠ m → w.flights n = some f → w.flights m = some g →
    Tracked setup cfg f.request → Tracked setup cfg' g.request → KeysSeparate sha256Hex f.request g.request

/-- Before the first request. -/
def World.start (values : String → Option Value) : World := ⟨⟨values, [], []⟩, fun _ => none, Table.empty, []⟩

end

/-! ### What a request gives back -/

/-- A request takes a lock only when it has none, and deletes none but the one it has taken. -/
def Allowed (lock : Option (String × String)) : CacheCommand → Prop
  | .setNx _ _ => lock = none
  | .compareAndDelete key text => lock = some (key, text)
  | _ => True

abbrev Honest {α : Type} (p : CacheM α) (ends : α → Option (String × String) → Prop) :
    Option (String × String) → Prop :=
  p.Follows Allowed holds ends

section

variable {sha256Hex : ByteArray → String} {setup : Setup}

theorem readStoredEntry_honest (ck : String) (lock : Option (String × String)) :
    Honest (readStoredEntry ck) (fun _ lock' => lock' = lock) lock := by
  refine ⟨trivial, fun reply => ?_⟩
  rcases reply with _ | ⟨_ | _⟩
  · rfl
  · rfl
  · exact ⟨trivial, fun _ => rfl⟩

/-- The attributes that `pre_handle` leaves say which lock it has taken. -/
def Leaves (verdict : Verdict) (lock : Option (String × String)) : Prop :=
  match verdict with
  | .proceed (some a) => lock = some (a.lockKey, a.bodyHash)
  | _ => True

theorem preHandle_honest (req : Request) : Honest (preHandle sha256Hex setup req) Leaves none := by
  have hTrack : ∀ cfg, Honest (track sha256Hex cfg req) Leaves none := by
    intro cfg
    refine (readStoredEntry_honest _ none).bind fun stored lock hLock => ?_
    subst hLock
    cases stored with
    | some stored => trivial
    | none =>
      refine ⟨rfl, fun got => ?_⟩
      cases got with
      | true => rfl
      | false =>
        refine (readStoredEntry_honest _ none).bind fun stored _ _ => ?_
        cases stored <;> trivial
  unfold preHandle
  repeat' split
  all_goals first | trivial | exact hTrack _

theorem postHandle_honest {attributes : Option Attributes} {resp : Response} {lock : Option (String × String)}
    (h : ∀ a, attributes = some a → lock = some (a.lockKey, a.bodyHash)) :
    Honest (postHandle setup attributes resp) (fun _ _ => True) lock := by
  unfold postHandle
  split
  · rename_i cfg a _
    repeat' split
    · trivial
    · trivial
    have hStore : Honest (store cfg a resp) (fun _ lock' => lock' = lock) lock := by
      unfold store
      repeat' split
      all_goals first | rfl | exact ⟨trivial, fun _ => rfl⟩
    refine hStore.bind fun _ lock' hLock => ?_
    rw [hLock]
    exact ⟨h a rfl, fun _ => trivial⟩
  · trivial

theorem serve_honest (req : Request) (resp : Response) :
    Honest (serve sha256Hex setup req resp) (fun _ _ => True) none := by
  refine (preHandle_honest req).bind fun verdict lock hLeaves => ?_
  cases verdict with
  | respond served => exact ⟨trivial, fun _ => trivial⟩
  | proceed attributes =>
    refine ⟨trivial, fun _ => ?_⟩
    have hPost : Honest (postHandle setup attributes resp) (fun _ _ => True) lock :=
      postHandle_honest fun a hSome => by
        subst hSome
        exact hLeaves
    exact hPost.bind fun _ _ _ => ⟨trivial, fun _ => trivial⟩

/-! ### Orderly runs -/

/-- Whoever still holds the lock that stands under a key, by its text, is the one who acquired it; and each
request goes on to give back none but the lock that it holds. -/
structure LocksOk (w : World) : Prop where
  owner : ∀ key n text, w.owner key = some n → w.cache.values key = some (.text text) →
    ∀ m f, w.flights m = some f → f.lock = some (key, text) → m = n
  honest : ∀ n f, w.flights n = some f → Honest f.rest (fun _ _ => True) f.lock

theorem deletes_eq_some {s : Cache} {c : CacheCommand} {key : String} (h : s.deletes c = some key) :
    ∃ text, c = .compareAndDelete key text ∧ s.values key = some (.text text) := by
  cases c with
  | compareAndDelete key' text =>
    simp only [Cache.deletes] at h
    split at h
    · rename_i value hValue
      split at h
      · rename_i hText
        obtain rfl := Option.some.inj h
        exact ⟨text, rfl, hText ▸ hValue⟩
      · cases h
    · cases h
  | _ => cases h

/-- A request that gives back what it holds deletes no lock of another. -/
theorem LocksOk.no_theft {w : World} (h : LocksOk w) {n : Nat} {f : Flight} {c : CacheCommand}
    (hHere : w.flights n = some f) (hAllowed : Allowed f.lock c) : theft w n c = [] := by
  unfold theft
  cases hDeletes : w.cache.deletes c with
  | none => rfl
  | some key =>
    obtain ⟨text, rfl, hText⟩ := deletes_eq_some hDeletes
    cases hOwner : w.owner key with
    | none => simp [hOwner]
    | some m => simp [hOwner, h.owner key m text hOwner hText n f hHere hAllowed]

theorem Cache.put_same (s : Cache) (key : String) (value : Option Value) : (s.put key value).values key = value :=
  Function.update_self ..

theorem Cache.put_ne (s : Cache) {key key' : String} (value : Option Value) (h : key ≠ key') :
    (s.put key' value).values key = s.values key :=
  Function.update_of_ne h ..

theorem setNx_reply {s : Cache} {key value : String} : (exec (.setNx key value) s).1 = true ↔ s.values key = none := by
  simp only [exec]
  split
  · rename_i hSome
    simp [Option.isSome_iff_ne_none.mp hSome]
  · rename_i hNone
    simpa using hNone

/-- What stands under a key with an owner after a command of `n`: it has just been put there by `n`, or it
stood there before with that owner. -/
theorem owner_cases {s : Cache} {owner : String → Option Nat} {n m : Nat} {c : CacheCommand} {key text : String}
    (hOwner : ownerAfter owner s n c key = some m) (hText : (exec c s).2.values key = some (.text text)) :
    (m = n ∧ c = .setNx key text ∧ s.values key = none) ∨
      (owner key = some m ∧ s.values key = some (.text text)) := by
  cases c with
  | get key' => exact .inr ⟨hOwner, hText⟩
  | handle response => exact .inr ⟨hOwner, hText⟩
  | answer served => exact .inr ⟨hOwner, hText⟩
  | del key' | set key' _ =>
    by_cases hKey : key = key'
    · subst hKey
      simp [ownerAfter] at hOwner
    · simp only [ownerAfter, exec, Function.update_of_ne hKey, Cache.put_ne _ _ hKey] at hOwner hText
      exact .inr ⟨hOwner, hText⟩
  | setNx key' value =>
    by_cases hFree : s.values key' = none
    · have hExec : (exec (.setNx key' value) s).2 = s.put key' (some (.text value)) := by simp [exec, hFree]
      rw [ownerAfter, if_pos (setNx_reply.mpr hFree)] at hOwner
      rw [hExec] at hText
      by_cases hKey : key = key'
      · subst hKey
        rw [Function.update_self] at hOwner
        rw [Cache.put_same] at hText
        obtain rfl : value = text := by simpa using hText
        exact .inl ⟨(Option.some.inj hOwner).symm, rfl, hFree⟩
      · rw [Function.update_of_ne hKey] at hOwner
        exact .inr ⟨hOwner, (Cache.put_ne s _ hKey).symm.trans hText⟩
    · have hExec : (exec (.setNx key' value) s).2 = s := by
        simp [exec, Option.isSome_iff_ne_none.mpr hFree]
      rw [ownerAfter, if_neg (fun h => hFree (setNx_reply.mp h))] at hOwner
      exact .inr ⟨hOwner, hExec ▸ hText⟩
  | compareAndDelete key' owner' =>
    by_cases hDeletes : s.deletes (.compareAndDelete key' owner') = some key'
    · obtain ⟨_, hSame, hValue⟩ := deletes_eq_some hDeletes
      obtain ⟨-, rfl⟩ := CacheCommand.compareAndDelete.inj hSame
      have hExec : (exec (.compareAndDelete key' owner') s).2 = s.put key' none := by simp [exec, hValue]
      rw [ownerAfter, if_pos hDeletes] at hOwner
      rw [hExec] at hText
      by_cases hKey : key = key'
      · subst hKey
        simp at hOwner
      · rw [Function.update_of_ne hKey] at hOwner
        exact .inr ⟨hOwner, (Cache.put_ne s _ hKey).symm.trans hText⟩
    · have hExec : (exec (.compareAndDelete key' owner') s).2 = s := by
        simp only [exec]
        split
        · rename_i value hValue
          split
          · rename_i hText
            exact absurd (by simp [Cache.deletes, hValue, hText]) hDeletes
          · rfl
        · rfl
      rw [ownerAfter, if_neg hDeletes] at hOwner
      exact .inr ⟨hOwner, hExec ▸ hText⟩

/-- The lock that a request holds after a command is the one that it has just taken, or the one it held. -/
theorem holds_cases {s : Cache} {lock : Option (String × String)} {c : CacheCommand} {key text : String}
    (h : holds lock c (exec c s).1 = some (key, text)) :
    lock = some (key, text) ∨ (c = .setNx key text ∧ s.values key = none) := by
  cases c with
  | setNx key' value =>
    simp only [holds] at h
    split at h
    · rename_i hGot
      obtain ⟨rfl, rfl⟩ := Prod.mk.inj (Option.some.inj h)
      exact .inr ⟨rfl, setNx_reply.mp hGot⟩
    · exact .inl h
  | compareAndDelete _ _ => cases h
  | get _ | del _ | set _ _ | handle _ | answer _ => exact .inl h

theorem LocksOk.call {w : World} (h : LocksOk w) {n : Nat} {request : Request} {c : CacheCommand}
    {next : c.Reply → CacheM Unit} {lock : Option (String × String)}
    (hHere : w.flights n = some ⟨request, .call c next, lock⟩) (hOrderly : Orderly sha256Hex setup w (.call n)) :
    LocksOk (w.step sha256Hex setup (.call n)) := by
  have hStep : w.step sha256Hex setup (.call n) =
      { cache := (exec c w.cache).2
        owner := ownerAfter w.owner w.cache n c
        flights := w.flights.put n ⟨request, next (exec c w.cache).1, holds lock c (exec c w.cache).1⟩
        stolen := theft w n c ++ w.stolen } := by
    simp only [World.step, hHere]
  rw [hStep]
  refine ⟨fun key m text hOwner hText m' f hFlight hLock => ?_, fun m f hFlight => ?_⟩
  · rcases owner_cases hOwner hText with ⟨rfl, rfl, hFree⟩ | ⟨hOwner', hText'⟩
    · -- The lock has just been taken: by then nobody else held one of this text.
      rcases Table.put_eq_some.mp hFlight with ⟨rfl, -⟩ | ⟨hNe, hFlight⟩
      · rfl
      · exact absurd hLock (hOrderly request key text next lock hHere hFree m' f hNe hFlight)
    · have hOld := h.owner key m text hOwner' hText'
      rcases Table.put_eq_some.mp hFlight with ⟨rfl, rfl⟩ | ⟨-, hFlight⟩
      · rcases holds_cases hLock with hHeld | ⟨-, hFree⟩
        · exact hOld m' _ hHere hHeld
        · cases hFree.symm.trans hText'
      · exact hOld m' f hFlight hLock
  · rcases Table.put_eq_some.mp hFlight with ⟨rfl, rfl⟩ | ⟨-, hFlight⟩
    · exact (h.honest m _ hHere).2 _
    · exact h.honest m f hFlight

theorem LocksOk.step {w : World} {e : Event} (h : LocksOk w) (hOrderly : Orderly sha256Hex setup w e) :
    LocksOk (w.step sha256Hex setup e) := by
  cases e with
  | arrive n request response =>
    simp only [World.step]
    split
    · exact h
    refine ⟨fun key m text hOwner hText m' f hFlight hLock => ?_, fun m f hFlight => ?_⟩
    · rcases Table.put_eq_some.mp hFlight with ⟨rfl, rfl⟩ | ⟨-, hFlight⟩
      · cases hLock
      · exact h.owner key m text hOwner hText m' f hFlight hLock
    · rcases Table.put_eq_some.mp hFlight with ⟨rfl, rfl⟩ | ⟨-, hFlight⟩
      · exact serve_honest request response
      · exact h.honest m f hFlight
  | call n =>
    rcases hHere : w.flights n with _ | ⟨request, _ | ⟨c, next⟩, lock⟩
    · simpa only [World.step, hHere] using h
    · simpa only [World.step, hHere] using h
    · exact h.call hHere hOrderly
  | expire key' =>
    refine ⟨fun key m text hOwner hText m' f hFlight hLock => ?_, h.honest⟩
    by_cases hKey : key = key'
    · subst hKey
      simp [World.step] at hOwner
    · simp only [World.step, Function.update_of_ne hKey, Cache.put_ne _ _ hKey] at hOwner hText
      exact h.owner key m text hOwner hText m' f hFlight hLock
  | crash n =>
    simp only [World.step]
    split
    · refine ⟨fun key m text hOwner hText m' f hFlight hLock => ?_, fun m f hFlight => ?_⟩
      · rcases Table.put_eq_some.mp hFlight with ⟨rfl, rfl⟩ | ⟨-, hFlight⟩
        · cases hLock
        · exact h.owner key m text hOwner hText m' f hFlight hLock
      · rcases Table.put_eq_some.mp hFlight with ⟨rfl, rfl⟩ | ⟨-, hFlight⟩
        · trivial
        · exact h.honest m f hFlight
    · exact h

theorem KeysSeparate.symm {req req' : Request} (h : KeysSeparate sha256Hex req req') :
    KeysSeparate sha256Hex req' req where
  entries hDiffers hKey := h.entries (fun hSame => hDiffers ⟨hSame.1.symm, hSame.2.1.symm, hSame.2.2.1.symm,
    hSame.2.2.2.symm⟩) hKey.symm
  locks hDiffers hKey := h.locks (fun hSame => hDiffers ⟨hSame.1.symm, hSame.2.1.symm, hSame.2.2.1.symm,
    hSame.2.2.2.symm⟩) hKey.symm
  entryLock := h.lockEntry
  lockEntry := h.entryLock

/-- A step that leaves each flight with its request leaves the keys as they are. -/
theorem OwnLocks.same_requests {w w' : World} (h : OwnLocks sha256Hex setup w) (hOwn : w'.stolen = [])
    (hSame : ∀ n f', w'.flights n = some f' → ∃ f, w.flights n = some f ∧ f.request = f'.request) :
    OwnLocks sha256Hex setup w' := by
  refine ⟨hOwn, fun n m f' g' cfg cfg' hNe hF hG hTracked hTracked' => ?_⟩
  obtain ⟨f, hF, hRequest⟩ := hSame n f' hF
  obtain ⟨g, hG, hRequest'⟩ := hSame m g' hG
  rw [← hRequest] at hTracked ⊢
  rw [← hRequest'] at hTracked' ⊢
  exact h.keys n m f g cfg cfg' hNe hF hG hTracked hTracked'

/-- Replacing a flight by another of the same request. -/
theorem put_same_request {w : World} {n : Nat} {f f' : Flight} (hHere : w.flights n = some f)
    (hRequest : f.request = f'.request) :
    ∀ m g', w.flights.put n f' m = some g' → ∃ g, w.flights m = some g ∧ g.request = g'.request := by
  intro m g' hFlight
  rcases Table.put_eq_some.mp hFlight with ⟨rfl, rfl⟩ | ⟨-, hFlight⟩
  · exact ⟨f, hHere, hRequest⟩
  · exact ⟨g', hFlight, rfl⟩

theorem OwnLocks.arrive {w : World} (hHex : HexDigest sha256Hex) (h : OwnLocks sha256Hex setup w) {n : Nat}
    {request : Request} {response : Response}
    (hOrderly : Orderly sha256Hex setup w (.arrive n request response)) :
    OwnLocks sha256Hex setup (w.step sha256Hex setup (.arrive n request response)) := by
  simp only [World.step]
  split
  · exact h
  have hNew : ∀ m g cfg cfg', m ≠ n → w.flights m = some g → Tracked setup cfg request →
      Tracked setup cfg' g.request → KeysSeparate sha256Hex request g.request :=
    fun m g cfg cfg' hNe hG hTracked hTracked' =>
      (keysSeparate_iff hHex _ _).mpr (hOrderly cfg g.request hTracked ⟨m, g, cfg', hNe, hG, rfl, hTracked'⟩)
  refine ⟨h.own, fun m m' f g cfg cfg' hNe hF hG hTracked hTracked' => ?_⟩
  rcases Table.put_eq_some.mp hF with ⟨rfl, rfl⟩ | ⟨hNeF, hOldF⟩
  · rcases Table.put_eq_some.mp hG with ⟨rfl, rfl⟩ | ⟨hNeG, hOldG⟩
    · exact absurd rfl hNe
    · exact hNew m' g cfg cfg' hNeG hOldG hTracked hTracked'
  · rcases Table.put_eq_some.mp hG with ⟨rfl, rfl⟩ | ⟨hNeG, hOldG⟩
    · exact (hNew m f cfg' cfg hNeF hOldF hTracked' hTracked).symm
    · exact h.keys m m' f g cfg cfg' hNe hOldF hOldG hTracked hTracked'

theorem OwnLocks.step {w : World} {e : Event} (hHex : HexDigest sha256Hex) (hLocks : LocksOk w)
    (h : OwnLocks sha256Hex setup w) (hOrderly : Orderly sha256Hex setup w e) :
    OwnLocks sha256Hex setup (w.step sha256Hex setup e) := by
  cases e with
  | arrive n request response => exact h.arrive hHex hOrderly
  | call n =>
    rcases hHere : w.flights n with _ | ⟨request, _ | ⟨c, next⟩, lock⟩
    · simpa only [World.step, hHere] using h
    · simpa only [World.step, hHere] using h
    · have hTheft : theft w n c = [] := hLocks.no_theft hHere (hLocks.honest n _ hHere).1
      simp only [World.step, hHere]
      refine h.same_requests ?_ (put_same_request hHere rfl)
      rw [hTheft, h.own]
      rfl
  | expire key => exact h.same_requests h.own fun n f' hFlight => ⟨f', hFlight, rfl⟩
  | crash n =>
    simp only [World.step]
    split
    · rename_i f hHere
      exact h.same_requests h.own (put_same_request hHere rfl)
    · exact h

/-- After an orderly run nobody's lock has been deleted by another, and no two requests share a key; and it
is orderly requests alone whose keys are separate. -/
theorem ownLocks_of_orderlyRun (hHex : HexDigest sha256Hex) (values : String → Option Value) (events : List Event)
    (hRun : OrderlyRun sha256Hex setup (World.start values) events) :
    OwnLocks sha256Hex setup ((World.start values).run sha256Hex setup events) ∧
      ∀ req req', KeysSeparate sha256Hex req req' ↔ Apart sha256Hex req req' := by
  refine ⟨?_, keysSeparate_iff hHex⟩
  have hStart : LocksOk (World.start values) :=
    ⟨fun key n text hOwner => (by cases hOwner), fun n f hFlight => (by cases hFlight)⟩
  have hNone : OwnLocks sha256Hex setup (World.start values) :=
    ⟨rfl, fun n m f g cfg cfg' _ hFlight => (by cases hFlight)⟩
  generalize World.start values = w at hRun hStart hNone
  induction events generalizing w with
  | nil => exact hNone
  | cons e events ih => exact ih (w.step sha256Hex setup e) hRun.2 (hStart.step hRun.1) (hNone.step hHex hStart hRun.1)

end

/-! ### A handler that outlives its lock -/

def invoiceKey : String := invoiceRequest.cacheKey invoiceSha256

theorem invoiceSha256_hex : HexDigest invoiceSha256 := by
  constructor <;> intro bytes <;> unfold invoiceSha256 <;> split <;> decide +kernel

/-- Only the request `n` has arrived. -/
def World.Alone (w : World) (n : Nat) : Prop := ∀ m f, w.flights m = some f → m = n

theorem World.Alone.orderly {w : World} {n : Nat} (h : w.Alone n) : Orderly invoiceSha256 usualSetup w (.call n) :=
  fun _ _ _ _ _ _ _ m f hNe hFlight => absurd (h m f hFlight) hNe

theorem World.Alone.call {w : World} {n : Nat} (h : w.Alone n) :
    (w.step invoiceSha256 usualSetup (.call n)).Alone n := by
  intro m f hFlight
  simp only [World.step] at hFlight
  split at hFlight
  · rcases Table.put_eq_some.mp hFlight with ⟨rfl, -⟩ | ⟨-, hFlight⟩
    · rfl
    · exact h m f hFlight
  · exact h m f hFlight

/-- One request has looked for a stored response, taken the lock and lost it to its TTL. -/
theorem ownLocks_expired : OwnLocks invoiceSha256 usualSetup ((World.start fun _ => none).run invoiceSha256 usualSetup
    [.arrive 0 invoiceRequest created, .call 0, .call 0, .expire (lockKey invoiceKey)]) := by
  have hAlone : ((World.start fun _ => none).step invoiceSha256 usualSetup
      (.arrive 0 invoiceRequest created)).Alone 0 := by
    intro m f hFlight
    rcases Table.put_eq_some.mp hFlight with ⟨rfl, -⟩ | ⟨-, hFlight⟩
    · rfl
    · cases hFlight
  have hArrive : Orderly invoiceSha256 usualSetup (World.start fun _ => none) (.arrive 0 invoiceRequest created) := by
    rintro cfg req - ⟨m, f, _, -, hFlight, -⟩
    cases hFlight
  have hRun : OrderlyRun invoiceSha256 usualSetup (World.start fun _ => none)
      [.arrive 0 invoiceRequest created, .call 0, .call 0, .expire (lockKey invoiceKey)] :=
    ⟨hArrive, hAlone.orderly, hAlone.call.orderly, trivial, trivial⟩
  exact (ownLocks_of_orderlyRun invoiceSha256_hex _ _ hRun).1

/-- While a handler is still running its lock expires, and a retry of the same request takes the lock. -/
def outlived : List Event :=
  [.arrive 0 invoiceRequest created, .call 0, .call 0, .expire (lockKey invoiceKey),
    .arrive 1 invoiceRequest created, .call 1, .call 1, .call 0, .call 0, .call 0]

/-- The key of one request followed by `:lock`. -/
def lockSuffixed : Request := { invoiceRequest with idempotencyKey := "k-1:lock" }

/-- A principal that goes on with the parts of another's key. -/
def swallowing : Request :=
  { invoiceRequest with
    subject := some ("user-7:POST:" ++ invoiceSha256 invoiceRequest.path.toUTF8 ++ ":k")
    idempotencyKey := "1" }

def swallowed : Request :=
  { invoiceRequest with
    idempotencyKey := "k:POST:" ++ invoiceSha256 invoiceRequest.path.toUTF8 ++ ":1" }

theorem lock_stolen :
    ((World.start fun _ => none).run invoiceSha256 usualSetup outlived).stolen = [(0, 1)] ∧
    lockSuffixed.cacheKey invoiceSha256 = lockKey (invoiceRequest.cacheKey invoiceSha256) ∧
    swallowing.Differs swallowed ∧ swallowing.cacheKey invoiceSha256 = swallowed.cacheKey invoiceSha256 := by
  have hKeys : swallowing.idempotencyKey ≠ swallowed.idempotencyKey := by decide +kernel
  exact ⟨by decide +kernel, by decide +kernel, fun hSame => hKeys hSame.2.2.2, by decide +kernel⟩

end CyberAccountant.Security.Idempotency
