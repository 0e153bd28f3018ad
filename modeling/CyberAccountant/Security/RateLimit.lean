import CyberAccountant.Library.Transition
import CyberAccountant.Library.Window
import Mathlib.Data.Int.Order.Basic
import Mathlib.Algebra.Order.Group.Int
import Mathlib.Logic.Function.Basic

/-! The sliding-window rate limiter.  A bucket is a sorted set in Redis with one member for each check it
has allowed; a check prunes it, counts it and adds to it in one script.  A member is the text of the time
and of a counter that each API process keeps for itself. -/

namespace CyberAccountant.Security

open CyberAccountant.Library

/-! ### The sorted set -/

/-- A sorted set under a key: its members with their scores, and when the key expires. -/
structure Bucket where
  entries : List (String × Int)
  expireAt : Option Int

namespace Bucket

def empty : Bucket := ⟨[], none⟩

/-- The bucket that a command finds at `now`. -/
def seenAt (now : Int) (b : Bucket) : Bucket :=
  if b.expireAt.any (· < now) then empty else b

def zremrangebyscore (b : Bucket) (low high : Int) : Bucket :=
  { b with entries := b.entries.filter fun e => ¬(low ≤ e.2 ∧ e.2 ≤ high) }

def zcard (b : Bucket) : Nat := b.entries.length

/-- The score of the first member, `ZRANGE key 0 0 WITHSCORES`. -/
def oldestScore (b : Bucket) : Option Int := (b.entries.map Prod.snd).min?

/-- A member that is there already gets the score and is not added again. -/
def zadd (b : Bucket) (score : Int) (member : String) : Bucket :=
  { b with entries := b.entries.filter (·.1 ≠ member) ++ [(member, score)] }

def pexpireAt (b : Bucket) (at_ : Int) : Bucket := { b with expireAt := some at_ }

end Bucket

structure Reply where
  allowed : Bool
  countAfter : Int
  retryAfterMs : Int

/-- `kSlidingWindowLua`. -/
def slidingWindow (now window limit : Int) (member : String) (bucket : Bucket) : Reply × Bucket :=
  let cutoff := now - window
  let bucket := (bucket.seenAt now).zremrangebyscore 0 cutoff
  let count : Int := bucket.zcard
  if limit ≤ count then
    let oldestScore := bucket.oldestScore.getD now
    let retryAfterMs := oldestScore + window - now
    (⟨false, count, if retryAfterMs < 1 then 1 else retryAfterMs⟩, bucket)
  else
    (⟨true, count + 1, 0⟩, (bucket.zadd now member).pexpireAt (now + (window + 1000)))

/-! ### The limiter -/

structure RateConfig where
  requests : Int
  windowSec : Int
  protectedRequests : Int
  protectedWindowSec : Int

/-- `check` and `check_protected`. -/
inductive Tier where
  | general
  | authSurface
  deriving DecidableEq

namespace Tier

def limit (cfg : RateConfig) : Tier → Int
  | general => cfg.requests
  | authSurface => cfg.protectedRequests

def windowMs (cfg : RateConfig) : Tier → Int
  | general => cfg.windowSec * 1000
  | authSurface => cfg.protectedWindowSec * 1000

def keyPrefix : Tier → String
  | general => "rl:sw:"
  | authSurface => "rl:auth:"

def key (tier : Tier) (identity : String) : String := tier.keyPrefix ++ identity

end Tier

structure Decision where
  allowed : Bool
  remaining : Int
  retryAfterSec : Int

/-- What `check_window` makes of the script's reply. -/
def Reply.decision (reply : Reply) (requests : Int) : Decision where
  allowed := reply.allowed
  remaining := max 0 (requests - reply.countAfter)
  retryAfterSec := if reply.allowed then 0 else max 1 ((reply.retryAfterMs + 999).tdiv 1000)

def member (nowMs : Int) (counter : Nat) : String := toString nowMs ++ ":" ++ toString counter

abbrev Process := Nat

structure Checked where
  key : String
  nowMs : Int
  decision : Decision

/-- The API processes and their Redis. -/
structure Limiters where
  store : String → Bucket
  /-- The `counter` of each process. -/
  counters : Process → Nat
  /-- Values drawn by checks whose script has not run. -/
  drawn : List (Process × Nat)
  now : Int
  /-- The checks answered, oldest first. -/
  answered : List Checked

namespace Limiters

/-- `counter.fetch_add(1)` in a check of process `p`. -/
def draw (s : Limiters) (p : Process) : Limiters :=
  { s with
    counters := Function.update s.counters p (s.counters p + 1)
    drawn := s.drawn ++ [(p, s.counters p)] }

/-- `check_window` past its switch and its whitelist, with the value it has drawn. -/
def check (cfg : RateConfig) (s : Limiters) (p : Process) (counter : Nat) (tier : Tier)
    (identity : String) (now : Int) : Limiters :=
  let key := tier.key identity
  let (reply, bucket) :=
    slidingWindow now (tier.windowMs cfg) (tier.limit cfg) (member now counter) (s.store key)
  { s with
    store := Function.update s.store key bucket
    drawn := s.drawn.erase (p, counter)
    now
    answered := s.answered ++ [⟨key, now, reply.decision (tier.limit cfg)⟩] }

def start : Limiters := ⟨fun _ => .empty, fun _ => 0, [], 0, []⟩

end Limiters

def Bucket.pruned (b : Bucket) (now window : Int) : Bucket :=
  (b.seenAt now).zremrangebyscore 0 (now - window)

/-- If the bucket still has room, the member that a check adds to it is not in it. -/
def FreshMember (cfg : RateConfig) (tier : Tier) (bucket : Bucket) (now : Int) (counter : Nat) : Prop :=
  (bucket.pruned now (tier.windowMs cfg)).zcard < tier.limit cfg →
    ∀ e ∈ (bucket.pruned now (tier.windowMs cfg)).entries, e.1 ≠ member now counter

/-- A step of the limiters; `May` restricts the checks of a bucket. -/
inductive LimiterStep (cfg : RateConfig) (May : Tier → String → Bucket → Int → Nat → Prop) :
    Limiters → Limiters → Prop where
  | draw (s : Limiters) (p : Process) : LimiterStep cfg May s (s.draw p)
  | check (s : Limiters) (p : Process) (counter : Nat) (tier : Tier) (identity : String) (now : Int)
      (hDrawn : (p, counter) ∈ s.drawn) (hNow : s.now ≤ now)
      (hMay : May tier identity (s.store (tier.key identity)) now counter) :
      LimiterStep cfg May s (s.check cfg p counter tier identity now)

/-- Checks of one bucket add only members that it does not hold; those of the others are free. -/
def FreshFor (cfg : RateConfig) (tier : Tier) (identity : String) :
    Tier → String → Bucket → Int → Nat → Prop :=
  fun tier' identity' bucket now counter =>
    tier'.key identity' = tier.key identity → FreshMember cfg tier bucket now counter

/-! ### What a bucket knows -/

/-- The times of the allowed checks of a bucket, oldest first. -/
def allowedTimes (key : String) (answered : List Checked) : List Int :=
  (answered.filter fun c => c.key = key && c.decision.allowed).map Checked.nowMs

/-- Of the allowed checks that are younger than the window, the bucket holds no more than there were,
and it does not expire before the window has passed over the last. -/
structure Tracks (window : Int) (b : Bucket) (times : List Int) (now : Int) : Prop where
  past : ∀ x ∈ times, x ≤ now
  scores : ∀ e ∈ b.entries, 0 ≤ e.2
  expiry : ∀ at_ ∈ b.expireAt, ∀ x ∈ times, x + (window + 1000) ≤ at_
  atMost : ∀ cut, now - window ≤ cut → b.entries.countP (cut < ·.2) ≤ times.countP (cut < ·)

/-- It holds all of them. -/
def TracksAll (window : Int) (b : Bucket) (times : List Int) (now : Int) : Prop :=
  ∀ cut, now - window ≤ cut → times.countP (cut < ·) ≤ b.entries.countP (cut < ·.2)

section Script

variable {window now now' : Int} {b : Bucket} {times : List Int}

/-- The script denies and leaves the pruned bucket, or allows and adds its member. -/
theorem slidingWindow_cases (now window limit : Int) (m : String) (b : Bucket) :
    (limit ≤ (b.pruned now window).zcard ∧ (slidingWindow now window limit m b).1.allowed = false ∧
        (slidingWindow now window limit m b).2 = b.pruned now window) ∨
      ((b.pruned now window).zcard < limit ∧ (slidingWindow now window limit m b).1.allowed = true ∧
        (slidingWindow now window limit m b).2 =
          ((b.pruned now window).zadd now m).pexpireAt (now + (window + 1000))) := by
  unfold slidingWindow Bucket.pruned
  by_cases hFull : limit ≤ ((b.seenAt now).zremrangebyscore 0 (now - window)).zcard
  · left
    simp [hFull]
  · right
    simp only [hFull, if_false]
    exact ⟨by omega, trivial, trivial⟩

theorem Tracks.later (h : Tracks window b times now) (hNow : now ≤ now') :
    Tracks window b times now' where
  past x hx := Int.le_trans (h.past x hx) hNow
  scores := h.scores
  expiry := h.expiry
  atMost cut hCut := h.atMost cut (by omega)

theorem TracksAll.later (h : TracksAll window b times now) (hNow : now ≤ now') :
    TracksAll window b times now' :=
  fun cut hCut => h cut (by omega)

/-- When the key has expired, the window has passed over all that it held. -/
theorem Tracks.seenAt (h : Tracks window b times now) : Tracks window (b.seenAt now) times now := by
  unfold Bucket.seenAt
  split
  · exact ⟨h.past, by simp [Bucket.empty], by simp [Bucket.empty], by simp [Bucket.empty]⟩
  · exact h

theorem TracksAll.seenAt (h : TracksAll window b times now) (hTracks : Tracks window b times now) :
    TracksAll window (b.seenAt now) times now := by
  unfold Bucket.seenAt
  split
  · rename_i hExpired
    intro cut hCut
    have hNone : times.countP (cut < ·) = 0 := by
      rw [List.countP_eq_zero]
      intro x hx
      cases hAt : b.expireAt with
      | none => simp [hAt] at hExpired
      | some at_ =>
        have hExpiry := hTracks.expiry at_ hAt x hx
        simp only [hAt, Option.any_some, decide_eq_true_eq] at hExpired ⊢
        omega
    omega
  · exact h

/-- Pruning takes away what the window has passed over. -/
theorem countP_zremrangebyscore (hScores : ∀ e ∈ b.entries, 0 ≤ e.2) {cut : Int}
    (hCut : now - window ≤ cut) :
    (b.zremrangebyscore 0 (now - window)).entries.countP (cut < ·.2) =
      b.entries.countP (cut < ·.2) := by
  unfold Bucket.zremrangebyscore
  rw [List.countP_filter]
  apply List.countP_congr
  intro e he
  have hScore := hScores e he
  simp only [Bool.and_eq_true, decide_eq_true_eq]
  omega

theorem Tracks.pruned (h : Tracks window b times now) : Tracks window (b.pruned now window) times now where
  past := h.past
  scores e he := h.seenAt.scores e (List.mem_filter.mp he).1
  expiry := h.seenAt.expiry
  atMost cut hCut := by
    unfold Bucket.pruned
    rw [countP_zremrangebyscore h.seenAt.scores hCut]
    exact h.seenAt.atMost cut hCut

theorem TracksAll.pruned (h : TracksAll window b times now) (hTracks : Tracks window b times now) :
    TracksAll window (b.pruned now window) times now := by
  intro cut hCut
  unfold Bucket.pruned
  rw [countP_zremrangebyscore hTracks.seenAt.scores hCut]
  exact h.seenAt hTracks cut hCut

/-- All that is left after pruning lies in the window. -/
theorem zcard_pruned (h : Tracks window b times now) :
    (b.pruned now window).zcard = (b.pruned now window).entries.countP (now - window < ·.2) := by
  symm
  apply List.countP_eq_length.mpr
  intro e he
  obtain ⟨hMem, hKept⟩ := List.mem_filter.mp he
  have hScore := h.seenAt.scores e hMem
  simp only [decide_eq_true_eq] at hKept ⊢
  omega

/-- A new member counts once more, one that is there already at most once more. -/
theorem countP_zadd_le (b : Bucket) (now : Int) (m : String) (cut : Int) :
    (b.zadd now m).entries.countP (cut < ·.2) ≤
      b.entries.countP (cut < ·.2) + if cut < now then 1 else 0 := by
  have hFilter := List.Sublist.countP_le (p := fun e => decide (cut < e.2))
    (List.filter_sublist (p := fun e => decide (e.1 ≠ m)) (l := b.entries))
  simp only [Bucket.zadd, List.countP_append, List.countP_cons, List.countP_nil, Nat.zero_add,
    decide_eq_true_eq]
  omega

theorem countP_zadd_fresh (now : Int) {m : String} (hFresh : ∀ e ∈ b.entries, e.1 ≠ m) (cut : Int) :
    (b.zadd now m).entries.countP (cut < ·.2) =
      b.entries.countP (cut < ·.2) + if cut < now then 1 else 0 := by
  have hFilter : b.entries.filter (·.1 ≠ m) = b.entries := by
    rw [List.filter_eq_self]
    intro e he
    simpa using hFresh e he
  show (b.entries.filter (·.1 ≠ m) ++ [(m, now)]).countP (cut < ·.2) = _
  rw [hFilter]
  simp [List.countP_append, List.countP_cons]

theorem countP_snoc (times : List Int) (cut : Int) :
    (times ++ [now]).countP (cut < ·) = times.countP (cut < ·) + if cut < now then 1 else 0 := by
  simp [List.countP_append, List.countP_cons]

theorem Tracks.added (h : Tracks window b times now) (hNow : 0 ≤ now) (m : String) :
    Tracks window ((b.zadd now m).pexpireAt (now + (window + 1000))) (times ++ [now]) now where
  past x hx := by
    rcases List.mem_append.mp hx with hOld | hNew
    · exact h.past x hOld
    · exact Int.le_of_eq (List.mem_singleton.mp hNew)
  scores e he := by
    rcases List.mem_append.mp he with hOld | hNew
    · exact h.scores e (List.mem_filter.mp hOld).1
    · obtain rfl := List.mem_singleton.mp hNew
      exact hNow
  expiry at_ hAt x hx := by
    obtain rfl : now + (window + 1000) = at_ := by simpa [Bucket.pexpireAt] using hAt
    have hPast : x ≤ now := by
      rcases List.mem_append.mp hx with hOld | hNew
      · exact h.past x hOld
      · exact Int.le_of_eq (List.mem_singleton.mp hNew)
    omega
  atMost cut hCut := by
    rw [countP_snoc]
    have hOld := h.atMost cut hCut
    have hNew := countP_zadd_le b now m cut
    show (b.zadd now m).entries.countP (cut < ·.2) ≤ _
    omega

theorem TracksAll.added (h : TracksAll window b times now) {m : String}
    (hFresh : ∀ e ∈ b.entries, e.1 ≠ m) :
    TracksAll window ((b.zadd now m).pexpireAt (now + (window + 1000))) (times ++ [now]) now := by
  intro cut hCut
  rw [countP_snoc]
  have hOld := h cut hCut
  have hNew := countP_zadd_fresh now hFresh cut
  show _ ≤ (b.zadd now m).entries.countP (cut < ·.2)
  omega

end Script

/-! ### Runs -/

section Runs

variable {cfg : RateConfig} {May : Tier → String → Bucket → Int → Nat → Prop}

theorem key_tier {tier tier' : Tier} {identity identity' : String}
    (h : tier.key identity = tier'.key identity') : tier = tier' := by
  have hChars := congrArg String.toList h
  simp only [Tier.key, String.toList_append] at hChars
  cases tier <;> cases tier' <;> first | rfl | simp [Tier.keyPrefix] at hChars

variable (cfg) (tier : Tier) (identity : String)

/-- A denied check had at least the limit of earlier allowed ones in its window. -/
def DeniedWhenFull (answered : List Checked) : Prop :=
  ∀ before after c, answered = before ++ c :: after → c.key = tier.key identity →
    c.decision.allowed = false →
    tier.limit cfg ≤ countIn (c.nowMs - tier.windowMs cfg) c.nowMs (allowedTimes (tier.key identity) before)

/-- No window holds more allowed checks than the limit. -/
def WithinLimit (answered : List Checked) : Prop :=
  ∀ t, countIn t (t + tier.windowMs cfg) (allowedTimes (tier.key identity) answered) ≤ tier.limit cfg

/-- What holds of one bucket in every run. -/
structure LimiterOk (s : Limiters) : Prop where
  nonneg : 0 ≤ s.now
  tracks : Tracks (tier.windowMs cfg) (s.store (tier.key identity))
    (allowedTimes (tier.key identity) s.answered) s.now
  denied : DeniedWhenFull cfg tier identity s.answered

/-- What holds of it besides when no member is added twice. -/
structure LimiterExact (s : Limiters) : Prop where
  all : TracksAll (tier.windowMs cfg) (s.store (tier.key identity))
    (allowedTimes (tier.key identity) s.answered) s.now
  within : WithinLimit cfg tier identity s.answered

variable {cfg tier identity} {s s' : Limiters}

theorem allowedTimes_snoc (key : String) (answered : List Checked) (c : Checked) :
    allowedTimes key (answered ++ [c]) =
      if c.key = key ∧ c.decision.allowed = true then allowedTimes key answered ++ [c.nowMs]
      else allowedTimes key answered := by
  unfold allowedTimes
  rw [List.filter_append, List.map_append]
  split
  · rename_i hAllowed
    simp [hAllowed]
  · rename_i hNot
    have hFilter : [c].filter (fun c => c.key = key && c.decision.allowed) = [] := by
      simpa using hNot
    rw [hFilter, List.map_nil, List.append_nil]

/-- An answer that is no denial of the bucket leaves the denials as they are. -/
theorem DeniedWhenFull.snoc {answered : List Checked} (h : DeniedWhenFull cfg tier identity answered)
    {c : Checked} (hNew : c.key = tier.key identity → c.decision.allowed = false →
      tier.limit cfg ≤
        countIn (c.nowMs - tier.windowMs cfg) c.nowMs (allowedTimes (tier.key identity) answered)) :
    DeniedWhenFull cfg tier identity (answered ++ [c]) := by
  intro before after d hSplit hKey hDenied
  rcases List.eq_nil_or_concat after with rfl | ⟨rest, last, rfl⟩
  · obtain ⟨rfl, hLast⟩ := List.append_inj' hSplit rfl
    obtain rfl : c = d := by simpa using hLast
    exact hNew hKey hDenied
  · rw [List.concat_eq_append, ← List.cons_append, ← List.append_assoc] at hSplit
    obtain ⟨hBefore, -⟩ := List.append_inj' hSplit rfl
    exact h before rest d hBefore hKey hDenied

theorem Tracks.zcard_le {window now : Int} {b : Bucket} {times : List Int}
    (h : Tracks window b times now) : (b.pruned now window).zcard ≤ countIn (now - window) now times := by
  rw [zcard_pruned h, countIn_of_le h.past]
  exact h.pruned.atMost _ (Int.le_refl _)

theorem TracksAll.le_zcard {window now : Int} {b : Bucket} {times : List Int}
    (h : TracksAll window b times now) (hTracks : Tracks window b times now) :
    countIn (now - window) now times ≤ (b.pruned now window).zcard := by
  rw [zcard_pruned hTracks, countIn_of_le hTracks.past]
  exact h.pruned hTracks _ (Int.le_refl _)

theorem check_other (s : Limiters) (p : Process) (counter : Nat) (now : Int) {tier' : Tier}
    {identity' : String} (hKey : tier'.key identity' ≠ tier.key identity) :
    (s.check cfg p counter tier' identity' now).store (tier.key identity) = s.store (tier.key identity) ∧
    allowedTimes (tier.key identity) (s.check cfg p counter tier' identity' now).answered =
      allowedTimes (tier.key identity) s.answered := by
  constructor
  · exact Function.update_of_ne hKey.symm _ _
  · show allowedTimes (tier.key identity) (s.answered ++ [_]) = _
    rw [allowedTimes_snoc, if_neg (fun h => hKey h.1)]

theorem check_same (s : Limiters) (p : Process) (counter : Nat) (now : Int) {identity' : String}
    (hKey : tier.key identity' = tier.key identity) :
    (s.check cfg p counter tier identity' now).store (tier.key identity) =
      (slidingWindow now (tier.windowMs cfg) (tier.limit cfg) (member now counter)
        (s.store (tier.key identity))).2 ∧
    (s.check cfg p counter tier identity' now).answered = s.answered ++ [⟨tier.key identity, now,
      (slidingWindow now (tier.windowMs cfg) (tier.limit cfg) (member now counter)
        (s.store (tier.key identity))).1.decision (tier.limit cfg)⟩] := by
  unfold Limiters.check
  rw [hKey]
  exact ⟨Function.update_self _ _ _, rfl⟩

/-- The denied half and the upper count need nothing of the members. -/
theorem LimiterOk.check (hOk : LimiterOk cfg tier identity s) (p : Process) (counter : Nat)
    (tier' : Tier) (identity' : String) {now : Int} (hNow : s.now ≤ now) :
    LimiterOk cfg tier identity (s.check cfg p counter tier' identity' now) := by
  have hNonneg : 0 ≤ now := Int.le_trans hOk.nonneg hNow
  have hTracks := hOk.tracks.later hNow
  by_cases hKey : tier'.key identity' = tier.key identity
  · obtain rfl := key_tier hKey
    obtain ⟨hStore, hAnswered⟩ := check_same s p counter now hKey
    rcases slidingWindow_cases now (tier'.windowMs cfg) (tier'.limit cfg) (member now counter)
      (s.store (tier'.key identity)) with ⟨hFull, hDenied, hBucket⟩ | ⟨hRoom, hAllowed, hBucket⟩
    · refine ⟨hNonneg, ?_, ?_⟩
      · rw [hStore, hBucket, hAnswered, allowedTimes_snoc,
          if_neg (fun h => Bool.false_ne_true (hDenied.symm.trans h.2))]
        exact hTracks.pruned
      · rw [hAnswered]
        apply hOk.denied.snoc
        intro _ _
        have hCount := hTracks.zcard_le
        show tier'.limit cfg ≤ (countIn (now - tier'.windowMs cfg) now
          (allowedTimes (tier'.key identity) s.answered) : Int)
        omega
    · refine ⟨hNonneg, ?_, ?_⟩
      · rw [hStore, hBucket, hAnswered, allowedTimes_snoc, if_pos ⟨rfl, hAllowed⟩]
        exact hTracks.pruned.added hNonneg _
      · rw [hAnswered]
        apply hOk.denied.snoc
        intro _ hDenied
        exact absurd (hAllowed.symm.trans hDenied) (by decide)
  · obtain ⟨hStore, hTimes⟩ := check_other s p counter now hKey
    refine ⟨hNonneg, ?_, ?_⟩
    · rw [hStore, hTimes]
      exact hTracks
    · exact hOk.denied.snoc (fun h => absurd h hKey)

/-- While no member is added twice, no window holds more than the limit. -/
theorem LimiterExact.check (hExact : LimiterExact cfg tier identity s)
    (hOk : LimiterOk cfg tier identity s) (p : Process) (counter : Nat)
    (tier' : Tier) (identity' : String) {now : Int} (hNow : s.now ≤ now)
    (hFresh : FreshFor cfg tier identity tier' identity' (s.store (tier'.key identity')) now counter) :
    LimiterExact cfg tier identity (s.check cfg p counter tier' identity' now) := by
  have hTracks := hOk.tracks.later hNow
  have hAll := hExact.all.later hNow
  by_cases hKey : tier'.key identity' = tier.key identity
  · obtain rfl := key_tier hKey
    have hNew := hFresh hKey
    rw [hKey] at hNew
    obtain ⟨hStore, hAnswered⟩ := check_same s p counter now hKey
    rcases slidingWindow_cases now (tier'.windowMs cfg) (tier'.limit cfg) (member now counter)
      (s.store (tier'.key identity)) with ⟨hFull, hDenied, hBucket⟩ | ⟨hRoom, hAllowed, hBucket⟩
    · have hTimes : allowedTimes (tier'.key identity) (s.check cfg p counter tier' identity' now).answered =
          allowedTimes (tier'.key identity) s.answered := by
        rw [hAnswered, allowedTimes_snoc, if_neg (fun h => Bool.false_ne_true (hDenied.symm.trans h.2))]
      constructor
      · rw [hStore, hBucket, hTimes]
        exact hAll.pruned hTracks
      · unfold WithinLimit
        rw [hTimes]
        exact hExact.within
    · have hTimes : allowedTimes (tier'.key identity) (s.check cfg p counter tier' identity' now).answered =
          allowedTimes (tier'.key identity) s.answered ++ [now] := by
        rw [hAnswered, allowedTimes_snoc, if_pos ⟨rfl, hAllowed⟩]
      constructor
      · rw [hStore, hBucket, hTimes]
        apply (hAll.pruned hTracks).added
        exact hNew hRoom
      · intro t
        rw [hTimes]
        have hCount := hAll.le_zcard hTracks
        have hBefore : ∀ t, countIn t (t + tier'.windowMs cfg)
            (allowedTimes (tier'.key identity) s.answered) ≤ (tier'.limit cfg).toNat := by
          intro t
          have hWithin := hExact.within t
          omega
        have hBound := countIn_snoc_le hTracks.past hBefore (by omega) t
        omega
  · obtain ⟨hStore, hTimes⟩ := check_other s p counter now hKey
    constructor
    · rw [hStore, hTimes]
      exact hAll
    · unfold WithinLimit
      rw [hTimes]
      exact hExact.within

theorem limiterOk_start : LimiterOk cfg tier identity .start := by
  refine ⟨Int.le_refl 0, ⟨?_, ?_, ?_, ?_⟩, ?_⟩
  all_goals simp [Limiters.start, allowedTimes, Bucket.empty, DeniedWhenFull]

theorem LimiterOk.run (hRun : Run (LimiterStep cfg May) .start s) : LimiterOk cfg tier identity s := by
  apply Run.invariant _ hRun limiterOk_start
  intro s s' hOk hStep
  cases hStep with
  | draw p => exact ⟨hOk.nonneg, hOk.tracks, hOk.denied⟩
  | check p counter tier' identity' now hDrawn hNow hMay => exact hOk.check p counter tier' identity' hNow

theorem LimiterExact.run (hLimit : 1 ≤ tier.limit cfg)
    (hRun : Run (LimiterStep cfg (FreshFor cfg tier identity)) .start s) : LimiterExact cfg tier identity s := by
  induction hRun with
  | refl =>
    constructor
    · intro cut _
      simp [Limiters.start, allowedTimes]
    · intro t
      simp only [Limiters.start, allowedTimes, List.filter_nil, List.map_nil, countIn_nil]
      omega
  | tail hBefore hStep ih =>
    cases hStep with
    | draw p => exact ⟨ih.all, ih.within⟩
    | check p counter tier' identity' now hDrawn hNow hFresh =>
      exact ih.check (LimiterOk.run hBefore) p counter tier' identity' hNow hFresh

/-- While no check adds a member that the bucket already holds, no window holds more of its allowed
checks than the limit, and a check is denied only when the window that ends with it holds that many. -/
theorem limiter_within (hLimit : 1 ≤ tier.limit cfg)
    (hRun : Run (LimiterStep cfg (FreshFor cfg tier identity)) .start s) :
    WithinLimit cfg tier identity s.answered ∧ DeniedWhenFull cfg tier identity s.answered :=
  ⟨(LimiterExact.run hLimit hRun).within, (LimiterOk.run hRun).denied⟩

end Runs

def config2 : RateConfig := ⟨2, 1, 2, 1⟩

theorem limiter_within_once : ∃ s : Limiters,
    allowedTimes "rl:sw:ip:1" s.answered = [5] ∧
    WithinLimit config2 .general "ip:1" s.answered ∧ DeniedWhenFull config2 .general "ip:1" s.answered := by
  have hDrawn : Run (LimiterStep config2 (FreshFor config2 .general "ip:1")) .start
      (Limiters.start.draw 0) := .single (.draw _ 0)
  have hFresh : FreshFor config2 .general "ip:1" .general "ip:1" .empty 5 0 := by
    intro _ _ e he
    exact absurd he List.not_mem_nil
  have hChecked := hDrawn.tail (.check _ 0 0 .general "ip:1" 5 (by decide) (by decide) hFresh)
  exact ⟨_, by decide, limiter_within (by decide) hChecked⟩

/-- Two processes whose counters stand at the same value check in one millisecond: the second member
replaces the first, and a third check of the same window is allowed. -/
theorem limiter_exceeds : ∃ s : Limiters,
    Run (LimiterStep config2 fun _ _ _ _ _ => True) .start s ∧
    allowedTimes "rl:sw:ip:1" s.answered = [5, 5, 5] ∧
    ¬WithinLimit config2 .general "ip:1" s.answered := by
  have hDrawn : Run (LimiterStep config2 fun _ _ _ _ _ => True) .start (Limiters.start.draw 0) :=
    .single (.draw _ 0)
  have hFirst := hDrawn.tail (.check _ 0 0 .general "ip:1" 5 (by decide) (by decide) trivial)
  have hOther := hFirst.tail (.draw _ 1)
  have hSecond := hOther.tail (.check _ 1 0 .general "ip:1" 5 (by decide) (by decide) trivial)
  have hAgain := hSecond.tail (.draw _ 0)
  have hThird := hAgain.tail (.check _ 0 1 .general "ip:1" 5 (by decide) (by decide) trivial)
  refine ⟨_, hThird, by decide, fun hWithin => ?_⟩
  exact absurd (hWithin 0) (by decide)

end CyberAccountant.Security
