import Mathlib.Data.List.Basic
import Mathlib.Data.Int.Order.Basic

/-! Write transactions and the loop that retries them.  Each attempt borrows a connection, opens its
transaction, runs the body and commits; the server and the network decide how each of these ends. -/

namespace CyberAccountant.Database

/-- A `std::exception` by what the classifiers can cast it to, with its `what()`. -/
inductive StdException where
  | brokenConnection (what : String)
  | sqlError (sqlstate : String) (what : String)
  | other (what : String)
  deriving DecidableEq

namespace Retry

/-- The delays between attempts are left out: nothing but the sleep reads them. -/
structure Policy where
  maxAttempts : Int := 3

/-- Only errors after which the server is known to have rolled back. -/
def isTransientPqxxWrite : StdException → Bool
  | .sqlError ss _ => ss == "40001" || ss == "40P01"
  | _ => false

def isTransientPqxxRead : StdException → Bool
  | .brokenConnection _ => true
  | .sqlError ss _ =>
    ss.toList.take 2 == ['0', '8'] || ss == "40001" || ss == "40P01" || ss.toList.take 3 == ['5', '7', 'P']
  | .other _ => false

section Loop

variable {World α : Type} (fn : World → Except StdException α × World)
  (isTransient : StdException → Bool) (p : Policy)

/-- The `for (;;)` of `run`, with `attempt` failures behind it. -/
def loop (attempt : Int) (w : World) : Except StdException α × World :=
  match fn w with
  | (.ok v, w') => (.ok v, w')
  | (.error e, w') =>
    if attempt + 1 < p.maxAttempts ∧ isTransient e = true then loop (attempt + 1) w' else (.error e, w')
termination_by (p.maxAttempts - attempt).toNat
decreasing_by omega

def run (w : World) : Except StdException α × World :=
  loop fn isTransient p 0 w

variable {fn isTransient p}

theorem loop_ok {attempt : Int} {w w' : World} {v : α} (h : fn w = (.ok v, w')) :
    loop fn isTransient p attempt w = fn w := by
  rw [loop, h]

theorem loop_stop {attempt : Int} {w w' : World} {e : StdException} (h : fn w = (.error e, w'))
    (hstop : ¬(attempt + 1 < p.maxAttempts ∧ isTransient e = true)) :
    loop fn isTransient p attempt w = fn w := by
  rw [loop, h]
  simp only [hstop, if_false]

theorem loop_retry {attempt : Int} {w w' : World} {e : StdException} (h : fn w = (.error e, w'))
    (hretry : attempt + 1 < p.maxAttempts ∧ isTransient e = true) :
    loop fn isTransient p attempt w = loop fn isTransient p (attempt + 1) w' := by
  rw [loop, h]
  simp only [hretry, and_self, if_true]

/-- What holds before the first attempt and survives every failure that is retried holds before the
last attempt, and the loop answers what that attempt answers. -/
theorem loop_last {I : Nat → World → Prop}
    (hstep : ∀ k w e w', I k w → fn w = (.error e, w') → isTransient e = true → I (k + 1) w')
    (k : Nat) (w : World) (hI : I k w) :
    ∃ n w₀, k ≤ n ∧ (n : Int) ≤ max (k : Int) (p.maxAttempts - 1) ∧ I n w₀ ∧
      loop fn isTransient p k w = fn w₀ := by
  generalize hm : (p.maxAttempts - k).toNat = m
  induction m using Nat.strongRecOn generalizing k w with
  | ind m ih =>
    rcases hfn : fn w with ⟨e | v, w'⟩
    · by_cases hretry : (k : Int) + 1 < p.maxAttempts ∧ isTransient e = true
      · obtain ⟨n, w₀, hkn, hn, hI₀, heq⟩ :=
          ih (p.maxAttempts - (k + 1 : Nat)).toNat (by omega) (k + 1) w'
            (hstep k w e w' hI hfn hretry.2) rfl
        refine ⟨n, w₀, by omega, by omega, hI₀, ?_⟩
        rw [loop_retry hfn hretry]
        exact heq
      · exact ⟨k, w, Nat.le_refl k, le_max_left _ _, hI, loop_stop hfn hretry⟩
    · exact ⟨k, w, Nat.le_refl k, le_max_left _ _, hI, loop_ok hfn⟩

end Loop

end Retry

inductive IsolationLevel where
  | readCommitted
  | repeatableRead
  | serializable
  deriving DecidableEq

/-- How a `COMMIT` ends.  The server reports 40001 and 40P01 only for what it has rolled back, so a
commit that took effect is acknowledged or its acknowledgement is lost with the connection. -/
inductive CommitReply where
  | acknowledged
  | lost (what : String)
  | rolledBack (raised : StdException)
  deriving DecidableEq

/-- One attempt: how each call that it makes ends.  `func` comes with the writes it has made. -/
structure Attempt (ε α : Type) where
  /-- The connection is borrowed and the transaction begun. -/
  opened : Except StdException Unit
  /-- `SET TRANSACTION ISOLATION LEVEL`. -/
  isolation : Except StdException Unit
  func : Except StdException (α × ε)
  commit : CommitReply

variable {ε α : Type}

/-- What the attempt answers, and the writes that are committed when it ends: a transaction that is
left without a commit is rolled back by its destructor. -/
def Attempt.run (level : IsolationLevel) (a : Attempt ε α) : Except StdException α × Option ε :=
  match a.opened with
  | .error e => (.error e, none)
  | .ok () =>
    match (if level = .readCommitted then .ok () else a.isolation) with
    | .error e => (.error e, none)
    | .ok () =>
      match a.func with
      | .error e => (.error e, none)
      | .ok (result, writes) =>
        match a.commit with
        | .acknowledged => (.ok result, some writes)
        | .lost what => (.error (.brokenConnection what), some writes)
        | .rolledBack e => (.error e, none)

/-- The attempts made so far, and the writes committed with the number of the attempt they are of. -/
structure Session (ε : Type) where
  made : Nat
  committed : List (Nat × ε)

/-- The next attempt. -/
def Session.attempt (attempts : Nat → Attempt ε α) (level : IsolationLevel) (s : Session ε) :
    Except StdException α × Session ε :=
  let (answer, writes) := (attempts s.made).run level
  (answer, ⟨s.made + 1, s.committed ++ (writes.map (s.made, ·)).toList⟩)

/-- `execute_with_` on the primary pool, if there is one. -/
def executeWith (primaryPool : Bool) (attempts : Nat → Attempt ε α)
    (classifier : StdException → Bool) (level : IsolationLevel) (policy : Retry.Policy) :
    Except StdException α × Session ε :=
  if primaryPool then Retry.run (Session.attempt attempts level) classifier policy ⟨0, []⟩
  else (.error (.other "Database not initialized"), ⟨0, []⟩)

def executeTransaction (primaryPool : Bool) (level : IsolationLevel)
    (attempts : Nat → Attempt ε α) (policy : Retry.Policy) : Except StdException α × Session ε :=
  executeWith primaryPool attempts Retry.isTransientPqxxWrite level policy

def executeWrite (primaryPool : Bool) (attempts : Nat → Attempt ε α) (policy : Retry.Policy) :
    Except StdException α × Session ε :=
  executeWith primaryPool attempts Retry.isTransientPqxxWrite .readCommitted policy

/-- For writes that may be made twice. -/
def executeWriteIdempotent (primaryPool : Bool) (attempts : Nat → Attempt ε α)
    (policy : Retry.Policy) : Except StdException α × Session ε :=
  executeWith primaryPool attempts Retry.isTransientPqxxRead .readCommitted policy

/-- An attempt commits and answers its value, or it commits and the connection breaks, or it raises and
commits nothing. -/
theorem Attempt.run_cases (level : IsolationLevel) (a : Attempt ε α) :
    (∃ result writes, a.func = .ok (result, writes) ∧ a.commit = .acknowledged ∧
      a.run level = (.ok result, some writes)) ∨
    (∃ result writes what, a.func = .ok (result, writes) ∧ a.commit = .lost what ∧
      a.run level = (.error (.brokenConnection what), some writes)) ∨
    ∃ e, a.run level = (.error e, none) := by
  rcases hopened : a.opened with e | ⟨⟩
  · exact .inr (.inr ⟨e, by simp only [Attempt.run, hopened]⟩)
  rcases hisolation : (if level = .readCommitted then .ok () else a.isolation) with e | ⟨⟩
  · exact .inr (.inr ⟨e, by simp only [Attempt.run, hopened, hisolation]⟩)
  rcases hfunc : a.func with e | ⟨result, writes⟩
  · exact .inr (.inr ⟨e, by simp only [Attempt.run, hopened, hisolation, hfunc]⟩)
  have hrun : a.run level = match a.commit with
      | .acknowledged => (.ok result, some writes)
      | .lost what => (.error (.brokenConnection what), some writes)
      | .rolledBack e => (.error e, none) := by
    simp only [Attempt.run, hopened, hisolation, hfunc]
  cases hcommit : a.commit with
  | acknowledged => exact .inl ⟨result, writes, rfl, rfl, by rw [hrun, hcommit]⟩
  | lost what => exact .inr (.inl ⟨result, writes, what, rfl, rfl, by rw [hrun, hcommit]⟩)
  | rolledBack e => exact .inr (.inr ⟨e, by rw [hrun, hcommit]⟩)

/-- An attempt whose error the write classifier takes for transient has committed nothing. -/
theorem Attempt.run_transient {level : IsolationLevel} {a : Attempt ε α} {e : StdException}
    {writes : Option ε} (h : a.run level = (.error e, writes))
    (ht : Retry.isTransientPqxxWrite e = true) : writes = none := by
  rcases a.run_cases level with ⟨_, _, _, _, hrun⟩ | ⟨_, _, what, _, _, hrun⟩ | ⟨e', hrun⟩
  · simp [hrun] at h
  · obtain ⟨rfl, -⟩ : StdException.brokenConnection what = e ∧ _ := by simpa [hrun] using h
    simp [Retry.isTransientPqxxWrite] at ht
  · exact (by simpa [hrun] using h : e' = e ∧ none = writes).2.symm

/-- What a call owes its caller: `answer` is what it returns or throws, `s` what it leaves. -/
structure AtMostOnce (policy : Retry.Policy) (attempts : Nat → Attempt ε α)
    (answer : Except StdException α) (s : Session ε) : Prop where
  once : s.committed.length ≤ 1
  /-- A value is returned by the last attempt, which committed and heard so. -/
  returned : ∀ result, answer = .ok result → ∃ n writes, s.made = n + 1 ∧
    s.committed = [(n, writes)] ∧ (attempts n).func = .ok (result, writes) ∧
    (attempts n).commit = .acknowledged
  /-- Behind an exception there is a commit only when its acknowledgement was lost. -/
  thrown : ∀ e, answer = .error e → s.committed = [] ∨ ∃ n writes what, s.made = n + 1 ∧
    s.committed = [(n, writes)] ∧ (attempts n).commit = .lost what
  bounded : (s.made : Int) ≤ max 1 policy.maxAttempts

/-- The call answers what its last attempt answers, with nothing committed before that attempt. -/
theorem run_last_attempt (attempts : Nat → Attempt ε α) (level : IsolationLevel)
    (policy : Retry.Policy) :
    ∃ n : Nat, (n : Int) + 1 ≤ max 1 policy.maxAttempts ∧
      Retry.run (Session.attempt attempts level) Retry.isTransientPqxxWrite policy ⟨0, []⟩ =
        Session.attempt attempts level ⟨n, []⟩ := by
  have hstep : ∀ k (s : Session ε) e s', s = ⟨k, []⟩ →
      Session.attempt attempts level s = (.error e, s') → Retry.isTransientPqxxWrite e = true →
      s' = ⟨k + 1, []⟩ := by
    rintro k _ e s' rfl hattempt ht
    rcases hrun : (attempts k).run level with ⟨answer, writes⟩
    simp only [Session.attempt, hrun, List.nil_append, Prod.mk.injEq] at hattempt
    obtain ⟨rfl, rfl⟩ := hattempt
    rw [Attempt.run_transient hrun ht]
    rfl
  obtain ⟨n, s, -, hn, rfl, heq⟩ := Retry.loop_last (p := policy) hstep 0 ⟨0, []⟩ rfl
  exact ⟨n, by omega, heq⟩

theorem executeWith_at_most_once (primaryPool : Bool) (attempts : Nat → Attempt ε α)
    (level : IsolationLevel) (policy : Retry.Policy) :
    AtMostOnce policy attempts
      (executeWith primaryPool attempts Retry.isTransientPqxxWrite level policy).1
      (executeWith primaryPool attempts Retry.isTransientPqxxWrite level policy).2 := by
  cases primaryPool with
  | false => exact ⟨by simp [executeWith], nofun, fun _ _ => .inl rfl,
      le_trans Int.one_nonneg (le_max_left 1 _)⟩
  | true =>
    obtain ⟨n, hn, heq⟩ := run_last_attempt attempts level policy
    simp only [executeWith, if_true, heq, Session.attempt, List.nil_append]
    rcases (attempts n).run_cases level with
      ⟨result, writes, hfunc, hcommit, hrun⟩ | ⟨result, writes, what, hfunc, hcommit, hrun⟩ | ⟨e, hrun⟩
    · refine ⟨by simp [hrun], fun result' h => ?_, fun e h => ?_, by exact_mod_cast hn⟩
      · obtain rfl : result = result' := by simpa [hrun] using h
        exact ⟨n, writes, rfl, by simp [hrun], hfunc, hcommit⟩
      · simp [hrun] at h
    · refine ⟨by simp [hrun], fun result' h => ?_, fun e h => ?_, by exact_mod_cast hn⟩
      · simp [hrun] at h
      · exact .inr ⟨n, writes, what, rfl, by simp [hrun], hcommit⟩
    · refine ⟨by simp [hrun], fun result' h => ?_, fun e' h => ?_, by exact_mod_cast hn⟩
      · simp [hrun] at h
      · exact .inl (by simp [hrun])

/-- A write transaction takes effect at most once, whatever its attempts meet. -/
theorem write_takes_effect_at_most_once (primaryPool : Bool) (attempts : Nat → Attempt ε α)
    (policy : Retry.Policy) (level : IsolationLevel) :
    AtMostOnce policy attempts (executeWrite primaryPool attempts policy).1
      (executeWrite primaryPool attempts policy).2 ∧
    AtMostOnce policy attempts (executeTransaction primaryPool level attempts policy).1
      (executeTransaction primaryPool level attempts policy).2 :=
  ⟨executeWith_at_most_once primaryPool attempts .readCommitted policy,
    executeWith_at_most_once primaryPool attempts level policy⟩

end CyberAccountant.Database
