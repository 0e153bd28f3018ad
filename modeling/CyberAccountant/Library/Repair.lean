import CyberAccountant.Library.Program
import CyberAccountant.Library.Table
import CyberAccountant.Library.Transition

/-! Processes that share a state.  Each runs a program command by command, and any of them may crash
between two commands.  A fault is something that is amiss with the state while an operation is half
done; a process covers a fault if it cannot come to its end without the fault having been repaired.
Where every command that makes a fault leaves its process covering it, each fault of each state is
covered by a process, running or crashed. -/

namespace CyberAccountant.Library

variable {Cmd : Type} {Reply : Cmd → Type} {ρ σ ι α β : Type}

/-- A process: the part that it plays, and what it has yet to do. -/
structure Process (ρ Cmd : Type) (Reply : Cmd → Type) where
  role : ρ
  rest : Program Cmd Reply Unit
  crashed : Bool

structure System (ρ Cmd : Type) (Reply : Cmd → Type) (σ : Type) where
  state : σ
  processes : Table Nat (Process ρ Cmd Reply)

/-- One step: a process starts, goes on by a command that `Guard` admits in the state, or crashes, or
the state changes by itself. -/
inductive SystemStep (exec : (c : Cmd) → σ → Reply c × σ) (Starts : ρ → Program Cmd Reply Unit → Prop)
    (Guard : ρ → Cmd → σ → Prop) (Env : σ → σ → Prop) :
    System ρ Cmd Reply σ → System ρ Cmd Reply σ → Prop where
  | start (w : System ρ Cmd Reply σ) (n : Nat) (role : ρ) (program : Program Cmd Reply Unit)
      (hFree : w.processes n = none) (hStarts : Starts role program) :
      SystemStep exec Starts Guard Env w
        { w with processes := w.processes.put n ⟨role, program, false⟩ }
  | next (w : System ρ Cmd Reply σ) (n : Nat) (role : ρ) (c : Cmd)
      (rest : Reply c → Program Cmd Reply Unit) (hHere : w.processes n = some ⟨role, .call c rest, false⟩)
      (hGuard : Guard role c w.state) :
      SystemStep exec Starts Guard Env w
        ⟨(exec c w.state).2, w.processes.put n ⟨role, rest (exec c w.state).1, false⟩⟩
  | crash (w : System ρ Cmd Reply σ) (n : Nat) (p : Process ρ Cmd Reply)
      (hHere : w.processes n = some p) :
      SystemStep exec Starts Guard Env w { w with processes := w.processes.put n { p with crashed := true } }
  | env (w : System ρ Cmd Reply σ) (s : σ) (hEnv : Env w.state s) :
      SystemStep exec Starts Guard Env w { w with state := s }

/-- The state changes by an admitted command or by itself, if at all. -/
theorem SystemStep.state {exec : (c : Cmd) → σ → Reply c × σ} {Starts : ρ → Program Cmd Reply Unit → Prop}
    {Guard : ρ → Cmd → σ → Prop} {Env : σ → σ → Prop} {w w' : System ρ Cmd Reply σ}
    (h : SystemStep exec Starts Guard Env w w') :
    w'.state = w.state ∨ (∃ role c, Guard role c w.state ∧ w'.state = (exec c w.state).2) ∨
      Env w.state w'.state := by
  cases h with
  | start | crash => exact .inl rfl
  | next n role c rest hHere hGuard => exact .inr (.inl ⟨role, c, hGuard, rfl⟩)
  | env s hEnv => exact .inr (.inr hEnv)

/-- A step of a system in which fewer programs start. -/
theorem SystemStep.mono {exec : (c : Cmd) → σ → Reply c × σ} {Starts Starts' : ρ → Program Cmd Reply Unit → Prop}
    {Guard : ρ → Cmd → σ → Prop} {Env : σ → σ → Prop} {w w' : System ρ Cmd Reply σ}
    (hStarts : ∀ role program, Starts role program → Starts' role program)
    (h : SystemStep exec Starts Guard Env w w') : SystemStep exec Starts' Guard Env w w' := by
  cases h with
  | start n role program hFree hProgram => exact .start w n role program hFree (hStarts role program hProgram)
  | next n role c rest hHere hGuard => exact .next w n role c rest hHere hGuard
  | crash n p hHere => exact .crash w n p hHere
  | env s hEnv => exact .env w s hEnv

/-- A process calls none but the commands of `P` for its part. -/
def System.Calls (P : ρ → Cmd → Prop) (w : System ρ Cmd Reply σ) : Prop :=
  ∀ n p, w.processes n = some p → p.rest.Calls (P p.role)

/-- Where programs only call commands of `P`, the command of a step is one of them. -/
theorem System.Calls.step {exec : (c : Cmd) → σ → Reply c × σ} {Starts : ρ → Program Cmd Reply Unit → Prop}
    {Guard : ρ → Cmd → σ → Prop} {Env : σ → σ → Prop} {P : ρ → Cmd → Prop} {w w' : System ρ Cmd Reply σ}
    (hStarts : ∀ role program, Starts role program → program.Calls (P role)) (hCalls : w.Calls P)
    (hStep : SystemStep exec Starts Guard Env w w') :
    w'.Calls P ∧ (w'.state = w.state ∨
      (∃ role c, P role c ∧ Guard role c w.state ∧ w'.state = (exec c w.state).2) ∨ Env w.state w'.state) := by
  cases hStep with
  | start n role program hFree hProgram =>
    refine ⟨fun n' p hHere => ?_, .inl rfl⟩
    rcases Table.put_eq_some.mp hHere with ⟨-, rfl⟩ | ⟨-, hHere⟩
    · exact hStarts role program hProgram
    · exact hCalls n' p hHere
  | next n role c rest hHere hGuard =>
    obtain ⟨hNow, hRest⟩ := hCalls n _ hHere
    refine ⟨fun n' p h => ?_, .inr (.inl ⟨role, c, hNow, hGuard, rfl⟩)⟩
    rcases Table.put_eq_some.mp h with ⟨-, rfl⟩ | ⟨-, h⟩
    · exact hRest _
    · exact hCalls n' p h
  | crash n p hHere =>
    refine ⟨fun n' p' h => ?_, .inl rfl⟩
    rcases Table.put_eq_some.mp h with ⟨-, rfl⟩ | ⟨-, h⟩
    · exact hCalls n p hHere
    · exact hCalls n' p' h
  | env s hEnv => exact ⟨hCalls, .inr (.inr hEnv)⟩

section

variable (exec : (c : Cmd) → σ → Reply c × σ) (Inv : σ → Prop)

/-- The program does not come to its end, whatever else happens, while the fault stays. -/
def Covers (Fault : σ → Prop) : Program Cmd Reply α → Prop
  | .done _ => False
  | .call c next => ∀ s, Inv s → Fault s → Fault (exec c s).2 → Covers Fault (next (exec c s).1)

variable {exec Inv} in
/-- A program whose next command repairs the fault covers it. -/
theorem Covers.now {F : σ → Prop} {c : Cmd} {next : Reply c → Program Cmd Reply α}
    (h : ∀ s, Inv s → ¬ F (exec c s).2) : Covers exec Inv F (.call c next) :=
  fun s hs _ hStays => absurd hStays (h s hs)

variable {exec Inv} in
/-- A program covers a fault that what comes after its next command covers. -/
theorem Covers.later {F : σ → Prop} {c : Cmd} {next : Reply c → Program Cmd Reply α}
    (h : ∀ s, Inv s → F s → Covers exec Inv F (next (exec c s).1)) : Covers exec Inv F (.call c next) :=
  fun s hs hF _ => h s hs hF

variable (Guard : Cmd → σ → Prop)

/-- Every command that the program can come to keeps `Inv`, and what comes after it covers the
faults that it makes. -/
def Safe (Fault : ι → σ → Prop) : Program Cmd Reply α → Prop
  | .done _ => True
  | .call c next => ∀ s, Inv s → Guard c s → Inv (exec c s).2 ∧ Safe Fault (next (exec c s).1) ∧
      ∀ i, ¬ Fault i s → Fault i (exec c s).2 → Covers exec Inv (Fault i) (next (exec c s).1)

variable {exec Inv Guard} {Fault : ι → σ → Prop}

theorem Covers.bind {F : σ → Prop} {p : Program Cmd Reply α} {f : α → Program Cmd Reply β}
    (h : Covers exec Inv F p) : Covers exec Inv F (p >>= f) := by
  induction p with
  | done a => exact h.elim
  | call c next ih => exact fun s hs hF hF' => ih _ (h s hs hF hF')

theorem Safe.bind {p : Program Cmd Reply α} {f : α → Program Cmd Reply β}
    (hFirst : Safe exec Inv Guard Fault p) (hRest : ∀ a, Safe exec Inv Guard Fault (f a)) :
    Safe exec Inv Guard Fault (p >>= f) := by
  induction p with
  | done a => exact hRest a
  | call c next ih =>
    intro s hs hGuard
    obtain ⟨hInv, hNext, hMade⟩ := hFirst s hs hGuard
    exact ⟨hInv, ih _ hNext, fun i hBefore hAfter => (hMade i hBefore hAfter).bind⟩

theorem Safe.foldlM {body : β → α → Program Cmd Reply β} {xs : List α} (b : β)
    (h : ∀ x ∈ xs, ∀ b, Safe exec Inv Guard Fault (body b x)) :
    Safe exec Inv Guard Fault (xs.foldlM body b) := by
  induction xs generalizing b with
  | nil => trivial
  | cons x xs ih =>
    rw [List.foldlM_cons]
    exact (h x List.mem_cons_self b).bind fun b' => ih b' fun y hy => h y (List.mem_cons_of_mem x hy)

theorem Safe.map {p : Program Cmd Reply α} (f : α → β) (h : Safe exec Inv Guard Fault p) :
    Safe exec Inv Guard Fault (f <$> p) := by
  rw [Program.map_eq_bind]
  exact h.bind fun _ => trivial

/-- A command that makes no fault. -/
theorem Safe.quiet {c : Cmd} {next : Reply c → Program Cmd Reply α}
    (hQuiet : ∀ s, Inv s → Guard c s → Inv (exec c s).2 ∧ ∀ i, Fault i (exec c s).2 → Fault i s)
    (hNext : ∀ s, Inv s → Guard c s → Safe exec Inv Guard Fault (next (exec c s).1)) :
    Safe exec Inv Guard Fault (.call c next) := by
  intro s hs hGuard
  obtain ⟨hInv, hFaults⟩ := hQuiet s hs hGuard
  exact ⟨hInv, hNext s hs hGuard, fun i hBefore hAfter => absurd (hFaults i hAfter) hBefore⟩

end

section system

variable (exec : (c : Cmd) → σ → Reply c × σ) (Inv : σ → Prop) (Guard : ρ → Cmd → σ → Prop)
  (Fault : ι → σ → Prop)

/-- The processes are safe, and each fault of the state is covered by one of them. -/
structure SystemOk (w : System ρ Cmd Reply σ) : Prop where
  inv : Inv w.state
  safe : ∀ n p, w.processes n = some p → Safe exec Inv (Guard p.role) Fault p.rest
  covered : ∀ i, Fault i w.state →
    ∃ n p, w.processes n = some p ∧ Covers exec Inv (Fault i) p.rest

variable {exec Inv Guard Fault} {Starts : ρ → Program Cmd Reply Unit → Prop} {Env : σ → σ → Prop}
  {w w' : System ρ Cmd Reply σ}

/-- A covering process that has been left alone covers still. -/
theorem SystemOk.covered_of_kept (hOk : SystemOk exec Inv Guard Fault w)
    (hKept : ∀ n p, w.processes n = some p → ∃ p', w'.processes n = some p' ∧
      p'.rest = p.rest) (hFaults : ∀ i, Fault i w'.state → Fault i w.state) (i : ι)
    (hFault : Fault i w'.state) :
    ∃ n p, w'.processes n = some p ∧ Covers exec Inv (Fault i) p.rest := by
  obtain ⟨n, p, hHere, hCovers⟩ := hOk.covered i (hFaults i hFault)
  obtain ⟨p', hHere', hRest⟩ := hKept n p hHere
  exact ⟨n, p', hHere', by rw [hRest]; exact hCovers⟩

theorem SystemOk.step (hStarts : ∀ role program, Starts role program →
      Safe exec Inv (Guard role) Fault program)
    (hEnv : ∀ s s', Inv s → Env s s' → Inv s' ∧ ∀ i, Fault i s' → Fault i s)
    (hOk : SystemOk exec Inv Guard Fault w) (hStep : SystemStep exec Starts Guard Env w w') :
    SystemOk exec Inv Guard Fault w' := by
  cases hStep with
  | start n role program hFree hProgram =>
    refine ⟨hOk.inv, fun n' p hHere => ?_, hOk.covered_of_kept (fun n' p hHere => ?_) fun _ h => h⟩
    · rcases Table.put_eq_some.mp hHere with ⟨-, rfl⟩ | ⟨-, hHere⟩
      · exact hStarts role program hProgram
      · exact hOk.safe n' p hHere
    · have hNe : n' ≠ n := by
        rintro rfl
        rw [hFree] at hHere
        cases hHere
      exact ⟨p, (Table.put_ne hNe).trans hHere, rfl⟩
  | next n role c rest hHere hGuard =>
    obtain ⟨hInv, hRest, hMade⟩ := hOk.safe n _ hHere w.state hOk.inv hGuard
    refine ⟨hInv, fun n' p h => ?_, fun i hFault => ?_⟩
    · rcases Table.put_eq_some.mp h with ⟨-, rfl⟩ | ⟨-, h⟩
      · exact hRest
      · exact hOk.safe n' p h
    · by_cases hBefore : Fault i w.state
      · obtain ⟨n', p, hThere, hCovers⟩ := hOk.covered i hBefore
        by_cases hCase : n' = n
        · -- The process that covered the fault is the one that goes on, and the fault is still there.
          rw [hCase, hHere] at hThere
          cases hThere
          exact ⟨n, _, Table.put_same _ _ _, hCovers w.state hOk.inv hBefore hFault⟩
        · exact ⟨n', p, (Table.put_ne hCase).trans hThere, hCovers⟩
      · exact ⟨n, _, Table.put_same _ _ _, hMade i hBefore hFault⟩
  | crash n p hHere =>
    refine ⟨hOk.inv, fun n' p' h => ?_, hOk.covered_of_kept (fun n' p' h => ?_) fun _ h => h⟩
    · rcases Table.put_eq_some.mp h with ⟨-, rfl⟩ | ⟨-, h⟩
      · exact hOk.safe n p hHere
      · exact hOk.safe n' p' h
    · by_cases hCase : n' = n
      · subst hCase
        rw [hHere] at h
        cases h
        exact ⟨_, Table.put_same _ _ _, rfl⟩
      · exact ⟨p', (Table.put_ne hCase).trans h, rfl⟩
  | env s hChange =>
    obtain ⟨hInv, hFaults⟩ := hEnv w.state s hOk.inv hChange
    exact ⟨hInv, hOk.safe, hOk.covered_of_kept (fun n p h => ⟨p, h, rfl⟩) hFaults⟩

/-- From a state without faults and without processes, every fault of every state that the system
reaches is covered. -/
theorem SystemOk.run (hStarts : ∀ role program, Starts role program →
      Safe exec Inv (Guard role) Fault program)
    (hEnv : ∀ s s', Inv s → Env s s' → Inv s' ∧ ∀ i, Fault i s' → Fault i s)
    (hInv : Inv w.state) (hNone : ∀ i, ¬ Fault i w.state) (hEmpty : w.processes = Table.empty)
    (hRun : Run (SystemStep exec Starts Guard Env) w w') : SystemOk exec Inv Guard Fault w' := by
  refine hRun.invariant (fun _ _ hOk hStep => hOk.step hStarts hEnv hStep) ⟨hInv, fun n p hHere => ?_,
    fun i hFault => absurd hFault (hNone i)⟩
  rw [hEmpty] at hHere
  cases hHere

end system

/-! ### Runs of one process -/

/-- What is left of a program and the state after its next `k` commands, with nothing between. -/
def advance (exec : (c : Cmd) → σ → Reply c × σ) :
    Nat → Program Cmd Reply α → σ → Program Cmd Reply α × σ
  | 0, p, s => (p, s)
  | _ + 1, .done a, s => (.done a, s)
  | k + 1, .call c next, s => advance exec k (next (exec c s).1) (exec c s).2

/-- A process whose commands are admitted goes on for `k` of them. -/
theorem run_advance {exec : (c : Cmd) → σ → Reply c × σ} {Starts : ρ → Program Cmd Reply Unit → Prop}
    {Guard : ρ → Cmd → σ → Prop} {Env : σ → σ → Prop} {w : System ρ Cmd Reply σ} {n : Nat} {role : ρ}
    {p : Program Cmd Reply Unit} (k : Nat) (hAll : ∀ c s, Guard role c s)
    (hHere : w.processes n = some ⟨role, p, false⟩) :
    Run (SystemStep exec Starts Guard Env) w
      ⟨(advance exec k p w.state).2,
        w.processes.put n ⟨role, (advance exec k p w.state).1, false⟩⟩ := by
  have hSame : w.processes.put n ⟨role, p, false⟩ = w.processes := by
    funext n'
    by_cases h : n' = n
    · rw [h, Table.put_same, hHere]
    · rw [Table.put_ne h]
  induction k generalizing w p with
  | zero =>
    rw [advance, hSame]
  | succ k ih =>
    cases p with
    | done a =>
      rw [advance, hSame]
    | call c next =>
      have hNext : SystemStep exec Starts Guard Env w _ := .next w n role c next hHere (hAll c w.state)
      have hRest := ih (w := ⟨(exec c w.state).2, w.processes.put n ⟨role, next (exec c w.state).1, false⟩⟩)
        (Table.put_same _ _ _) (Table.put_put_same _ _ _ _)
      rw [Table.put_put_same] at hRest
      exact .head hNext hRest

/-- The system after a process that has not crashed has sent `k` more commands. -/
def System.resume (exec : (c : Cmd) → σ → Reply c × σ) (w : System ρ Cmd Reply σ) (n k : Nat) :
    System ρ Cmd Reply σ :=
  match w.processes n with
  | some ⟨role, p, false⟩ =>
    ⟨(advance exec k p w.state).2, w.processes.put n ⟨role, (advance exec k p w.state).1, false⟩⟩
  | _ => w

theorem run_resume {exec : (c : Cmd) → σ → Reply c × σ} {Starts : ρ → Program Cmd Reply Unit → Prop}
    {Guard : ρ → Cmd → σ → Prop} {Env : σ → σ → Prop} {w : System ρ Cmd Reply σ} (n k : Nat)
    (hAll : ∀ role c s, Guard role c s) : Run (SystemStep exec Starts Guard Env) w (w.resume exec n k) := by
  unfold System.resume
  split
  · rename_i role p hHere
    exact run_advance k (hAll role) hHere
  · exact .refl

/-- The system after a process has started and sent `k` commands. -/
def System.launch (exec : (c : Cmd) → σ → Reply c × σ) (w : System ρ Cmd Reply σ) (n : Nat) (role : ρ)
    (program : Program Cmd Reply Unit) (k : Nat) : System ρ Cmd Reply σ :=
  ⟨(advance exec k program w.state).2,
    w.processes.put n ⟨role, (advance exec k program w.state).1, false⟩⟩

theorem run_launch {exec : (c : Cmd) → σ → Reply c × σ} {Starts : ρ → Program Cmd Reply Unit → Prop}
    {Guard : ρ → Cmd → σ → Prop} {Env : σ → σ → Prop} {w : System ρ Cmd Reply σ} {n : Nat} {role : ρ}
    {program : Program Cmd Reply Unit} (k : Nat) (hFree : w.processes n = none)
    (hStarts : Starts role program) (hAll : ∀ c s, Guard role c s) :
    Run (SystemStep exec Starts Guard Env) w (w.launch exec n role program k) := by
  have hStart : SystemStep exec Starts Guard Env w
      { w with processes := w.processes.put n ⟨role, program, false⟩ } := .start w n role program hFree hStarts
  have hGoes : Run (SystemStep exec Starts Guard Env)
      { w with processes := w.processes.put n ⟨role, program, false⟩ } _ :=
    run_advance k hAll (Table.put_same _ _ _)
  rw [Table.put_put_same] at hGoes
  exact .head hStart hGoes

end CyberAccountant.Library
