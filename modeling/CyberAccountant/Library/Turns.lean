import CyberAccountant.Library.Repair

/-! Processes that take turns.  A process whose turn it is relies on more than the others do: what the
lock protects stays as it is while the process has its turn.  A program is sound if each of its
commands does what the other processes rely on, whatever they have done before it, and takes the turn
only when nobody has it.  Where all programs are sound, at most one process has the turn. -/

namespace CyberAccountant.Library

variable {Cmd : Type} {Reply : Cmd → Type} {ρ σ α : Type}

section

variable (exec : (c : Cmd) → σ → Reply c × σ) (Inv Taken : σ → Prop) (Rely : Bool → σ → σ → Prop)
  (turn : Bool → (c : Cmd) → Reply c → Bool)

/-- The program does what the other processes rely on from a state on, as long as they do.  The flag
says whether it has its turn; `turn` says whether it has it after a command. -/
def Sound (Guard : Cmd → σ → Prop) : Bool → Program Cmd Reply α → σ → Prop
  | _, .done _, _ => True
  | mine, .call c next, s₀ => ∀ s, Rely mine s₀ s → Inv s → (mine = true → Taken s) → Guard c s →
      Inv (exec c s).2 ∧ Rely false s (exec c s).2 ∧
        (mine = false → turn mine c (exec c s).1 = false → Rely true s (exec c s).2 ∧ (Taken s → Taken (exec c s).2)) ∧
        (turn mine c (exec c s).1 = true → Taken (exec c s).2 ∧ (mine = false → ¬ Taken s)) ∧
        Sound Guard (turn mine c (exec c s).1) (next (exec c s).1) (exec c s).2

/-- The processes are sound, and the one that has its turn, if any, has taken it. -/
structure TurnsOk (Guard : ρ → Cmd → σ → Prop) (w : System ρ Cmd Reply σ) : Prop where
  inv : Inv w.state
  sound : ∃ holder : Option Nat, (holder.isSome → Taken w.state) ∧ ∀ n p, w.processes n = some p →
    Sound exec Inv Taken Rely turn (Guard p.role) (decide (holder = some n)) p.rest w.state

variable {exec Inv Taken Rely turn}

/-- What the others may do leaves a sound program sound. -/
theorem Sound.mono {Guard : Cmd → σ → Prop} {mine : Bool} {p : Program Cmd Reply α} {s s' : σ}
    (hTrans : ∀ mine a b c, Rely mine a b → Rely mine b c → Rely mine a c) (hRely : Rely mine s s')
    (h : Sound exec Inv Taken Rely turn Guard mine p s) : Sound exec Inv Taken Rely turn Guard mine p s' := by
  cases p with
  | done a => trivial
  | call c next =>
    exact fun s'' hMore hInv hTaken hGuard => h s'' (hTrans _ _ _ _ hRely hMore) hInv hTaken hGuard

variable {Starts : ρ → Program Cmd Reply Unit → Prop} {Guard : ρ → Cmd → σ → Prop} {Env : σ → σ → Prop}
  {w w' : System ρ Cmd Reply σ}

theorem TurnsOk.start {n : Nat} {role : ρ} {program : Program Cmd Reply Unit}
    (hOk : TurnsOk exec Inv Taken Rely turn Guard w)
    (hProgram : Sound exec Inv Taken Rely turn (Guard role) false program w.state) :
    TurnsOk exec Inv Taken Rely turn Guard { w with processes := w.processes.put n ⟨role, program, false⟩ } := by
  obtain ⟨hInv, holder, hTaken, hSound⟩ := hOk
  -- The number of a process that is about to start may be the holder's only if there is no holder.
  refine ⟨hInv, if holder = some n then none else holder, fun hSome => ?_, fun n' p hHere => ?_⟩
  · split at hSome
    · cases hSome
    · exact hTaken hSome
  · rcases Table.put_eq_some.mp hHere with ⟨rfl, rfl⟩ | ⟨hNe, hHere⟩
    · have hNot : (if holder = some n' then none else holder) ≠ some n' := by
        split <;> simp_all
      rw [decide_eq_false hNot]
      exact hProgram
    · have hSame : decide ((if holder = some n then none else holder) = some n') = decide (holder = some n') := by
        split
        · rename_i hEq
          rw [hEq]
          simp [hNe.symm]
        · rfl
      rw [hSame]
      exact hSound n' p hHere

theorem TurnsOk.next (hRefl : ∀ mine s, Rely mine s s)
    (hTrans : ∀ mine a b c, Rely mine a b → Rely mine b c → Rely mine a c) {n : Nat} {role : ρ} {c : Cmd}
    {rest : Reply c → Program Cmd Reply Unit} (hOk : TurnsOk exec Inv Taken Rely turn Guard w)
    (hHere : w.processes n = some ⟨role, .call c rest, false⟩) (hGuard : Guard role c w.state) :
    TurnsOk exec Inv Taken Rely turn Guard
      ⟨(exec c w.state).2, w.processes.put n ⟨role, rest (exec c w.state).1, false⟩⟩ := by
  obtain ⟨hInv, holder, hTaken, hSound⟩ := hOk
  have hHolds : decide (holder = some n) = true → Taken w.state := fun hMine =>
    hTaken (by rw [of_decide_eq_true hMine]; rfl)
  have hNow := hSound n _ hHere w.state (hRefl _ _) hInv hHolds hGuard
  obtain ⟨hInv', hOthers, hQuiet, hTurn, hRest⟩ := hNow
  cases hNew : turn (decide (holder = some n)) c (exec c w.state).1 with
  | true =>
    rw [hNew] at hRest
    obtain ⟨hTaken', hFree⟩ := hTurn hNew
    refine ⟨hInv', some n, fun _ => hTaken', fun n' p h => ?_⟩
    rcases Table.put_eq_some.mp h with ⟨rfl, rfl⟩ | ⟨hNe, h⟩
    · rw [decide_eq_true rfl]
      exact hRest
    · -- Nobody else had the turn: it was this process's already, or it was free.
      have hOther : holder ≠ some n' := by
        rintro rfl
        have hMine : decide (some n' = some n) = false := decide_eq_false (by simpa using hNe)
        exact hFree hMine (hTaken rfl)
      have hKept := hSound n' p h
      rw [decide_eq_false hOther] at hKept
      rw [decide_eq_false (by simpa using hNe.symm)]
      exact hKept.mono hTrans hOthers
  | false =>
    rw [hNew] at hRest
    by_cases hMine : holder = some n
    · refine ⟨hInv', none, fun hSome => (by cases hSome), fun n' p h => ?_⟩
      rcases Table.put_eq_some.mp h with ⟨rfl, rfl⟩ | ⟨hNe, h⟩
      · exact hRest
      · have hKept := hSound n' p h
        rw [hMine, decide_eq_false (by simpa using hNe.symm)] at hKept
        exact hKept.mono hTrans hOthers
    · obtain ⟨hProtected, hStays⟩ := hQuiet (decide_eq_false hMine) hNew
      refine ⟨hInv', holder, fun hSome => hStays (hTaken hSome), fun n' p h => ?_⟩
      rcases Table.put_eq_some.mp h with ⟨rfl, rfl⟩ | ⟨hNe, h⟩
      · rw [decide_eq_false hMine]
        exact hRest
      · refine (hSound n' p h).mono hTrans ?_
        cases decide (holder = some n') with
        | true => exact hProtected
        | false => exact hOthers

theorem TurnsOk.step (hRefl : ∀ mine s, Rely mine s s)
    (hTrans : ∀ mine a b c, Rely mine a b → Rely mine b c → Rely mine a c)
    (hStarts : ∀ role program, Starts role program → ∀ s, Inv s →
      Sound exec Inv Taken Rely turn (Guard role) false program s)
    (hEnv : ∀ s s', Inv s → Env s s' → Inv s' ∧ (Taken s → Taken s') ∧ ∀ mine, Rely mine s s')
    (hOk : TurnsOk exec Inv Taken Rely turn Guard w) (hStep : SystemStep exec Starts Guard Env w w') :
    TurnsOk exec Inv Taken Rely turn Guard w' := by
  cases hStep with
  | start n role program hFree hProgram => exact hOk.start (hStarts role program hProgram w.state hOk.inv)
  | next n role c rest hHere hGuard => exact hOk.next hRefl hTrans hHere hGuard
  | crash n p hHere =>
    obtain ⟨hInv, holder, hTaken, hSound⟩ := hOk
    refine ⟨hInv, holder, hTaken, fun n' p' h => ?_⟩
    rcases Table.put_eq_some.mp h with ⟨rfl, rfl⟩ | ⟨-, h⟩
    · exact hSound n' p hHere
    · exact hSound n' p' h
  | env s hChange =>
    obtain ⟨hInv, holder, hTaken, hSound⟩ := hOk
    obtain ⟨hInv', hTaken', hRely⟩ := hEnv w.state s hInv hChange
    exact ⟨hInv', holder, fun hSome => hTaken' (hTaken hSome), fun n p hHere =>
      (hSound n p hHere).mono hTrans (hRely _)⟩

/-- The processes of every state that the system reaches from one without processes are sound, and its
invariant holds. -/
theorem TurnsOk.run (hRefl : ∀ mine s, Rely mine s s)
    (hTrans : ∀ mine a b c, Rely mine a b → Rely mine b c → Rely mine a c)
    (hStarts : ∀ role program, Starts role program → ∀ s, Inv s →
      Sound exec Inv Taken Rely turn (Guard role) false program s)
    (hEnv : ∀ s s', Inv s → Env s s' → Inv s' ∧ (Taken s → Taken s') ∧ ∀ mine, Rely mine s s')
    (hInv : Inv w.state) (hEmpty : w.processes = Table.empty)
    (hRun : Run (SystemStep exec Starts Guard Env) w w') : TurnsOk exec Inv Taken Rely turn Guard w' := by
  refine hRun.invariant (fun _ _ hOk hStep => hOk.step hRefl hTrans hStarts hEnv hStep)
    ⟨hInv, none, fun hSome => (by cases hSome), fun n p hHere => ?_⟩
  rw [hEmpty] at hHere
  cases hHere

end

/-! ### Without turns -/

section

variable (exec : (c : Cmd) → σ → Reply c × σ) (Inv : σ → Prop) (R : σ → σ → Prop)

/-- The program keeps the invariant and does what the others rely on, where nobody takes a turn. -/
abbrev SoundAlone (p : Program Cmd Reply α) (s : σ) : Prop :=
  Sound exec Inv (fun _ => False) (fun _ => R) (fun _ _ _ => false) (fun _ _ => True) false p s

/-- The command does so where it is called. -/
def Keeps (c : Cmd) (s : σ) : Prop := Inv s → Inv (exec c s).2 ∧ R s (exec c s).2

variable {exec Inv R}

theorem SoundAlone.call {c : Cmd} {next : Reply c → Program Cmd Reply α} {s : σ}
    (hKeeps : ∀ s', R s s' → Inv s' → Keeps exec Inv R c s')
    (hNext : ∀ s', R s s' → Inv s' → SoundAlone exec Inv R (next (exec c s').1) (exec c s').2) :
    SoundAlone exec Inv R (.call c next) s := by
  intro s' hRely hInv _ _
  obtain ⟨hInv', hStep⟩ := hKeeps s' hRely hInv hInv
  exact ⟨hInv', hStep, fun _ _ => ⟨hStep, fun h => h⟩, fun hTurn => (by cases hTurn), hNext s' hRely hInv⟩

/-- A program that only calls what may be called anywhere. -/
theorem SoundAlone.of_calls {p : Program Cmd Reply α} (h : p.Calls fun c => ∀ s, Keeps exec Inv R c s) (s : σ) :
    SoundAlone exec Inv R p s := by
  induction p generalizing s with
  | done a => trivial
  | call c next ih => exact .call (fun s' _ _ => h.1 s') fun s' _ _ => ih _ (h.2 _) _

/-- Where all programs are sound, the invariant holds of every state that the system reaches. -/
theorem SoundAlone.run {Starts : ρ → Program Cmd Reply Unit → Prop} {Env : σ → σ → Prop} {w w' : System ρ Cmd Reply σ}
    (hRefl : ∀ s, R s s) (hTrans : ∀ a b c, R a b → R b c → R a c)
    (hStarts : ∀ role program, Starts role program → ∀ s, Inv s → SoundAlone exec Inv R program s)
    (hEnv : ∀ s s', Inv s → Env s s' → Inv s' ∧ R s s') (hInv : Inv w.state) (hIdle : w.processes = Table.empty)
    (hRun : Run (SystemStep exec Starts (fun _ _ _ => True) Env) w w') : Inv w'.state := by
  have hOk : TurnsOk exec Inv (fun _ => False) (fun _ => R) (fun _ _ _ => false) (fun _ _ _ => True) w' :=
    TurnsOk.run (fun _ => hRefl) (fun _ => hTrans) hStarts
      (fun s s' hs hChange => ⟨(hEnv s s' hs hChange).1, fun h => h, fun _ => (hEnv s s' hs hChange).2⟩)
      hInv hIdle hRun
  exact hOk.inv

end

end CyberAccountant.Library
