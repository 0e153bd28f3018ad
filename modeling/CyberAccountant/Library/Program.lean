import Mathlib.Logic.Basic

/-! Programs that call commands one after another, each with a reply on which the rest depends.  A
program runs on a state in one go, or command by command among others. -/

namespace CyberAccountant.Library

/-- A program over commands `Cmd` with replies `Reply` that ends with a value. -/
inductive Program (Cmd : Type) (Reply : Cmd → Type) (α : Type) where
  | done (a : α)
  | call (c : Cmd) (next : Reply c → Program Cmd Reply α)

namespace Program

variable {Cmd : Type} {Reply : Cmd → Type} {α β σ : Type}

/-- Ends with the error as its value, or goes on. -/
def orReply (x : Except α β) (next : β → Program Cmd Reply α) : Program Cmd Reply α :=
  match x with
  | .error a => .done a
  | .ok b => next b

/-- One command and its reply. -/
def perform (c : Cmd) : Program Cmd Reply (Reply c) := .call c .done

def bind : Program Cmd Reply α → (α → Program Cmd Reply β) → Program Cmd Reply β
  | .done a, f => f a
  | .call c next, f => .call c fun reply => (next reply).bind f

instance : Monad (Program Cmd Reply) where
  pure := .done
  bind := bind

theorem pure_def (a : α) : (pure a : Program Cmd Reply α) = .done a := rfl

theorem map_eq_bind (f : α → β) (p : Program Cmd Reply α) : f <$> p = p >>= fun a => .done (f a) := rfl

instance : LawfulMonad (Program Cmd Reply) := .mk' _
  (fun p => by
    induction p with
    | done a => rfl
    | call c next ih => exact congrArg (call c) (funext ih))
  (fun a f => rfl)
  (fun p f g => by
    induction p with
    | done a => rfl
    | call c next ih => exact congrArg (call c) (funext ih))

/-- The value that a program ends with and the state that it leaves, where nothing comes between its
commands. -/
def run (exec : (c : Cmd) → σ → Reply c × σ) : Program Cmd Reply α → σ → α × σ
  | .done a, s => (a, s)
  | .call c next, s => (next (exec c s).1).run exec (exec c s).2

section

variable (exec : (c : Cmd) → σ → Reply c × σ)

@[simp] theorem run_done (a : α) (s : σ) : (done a : Program Cmd Reply α).run exec s = (a, s) := rfl

@[simp] theorem run_pure (a : α) (s : σ) : (pure a : Program Cmd Reply α).run exec s = (a, s) := rfl

@[simp] theorem run_call (c : Cmd) (next : Reply c → Program Cmd Reply α) (s : σ) :
    (call c next).run exec s = (next (exec c s).1).run exec (exec c s).2 := rfl

@[simp] theorem run_bind (p : Program Cmd Reply α) (f : α → Program Cmd Reply β) (s : σ) :
    (p >>= f).run exec s = (f (p.run exec s).1).run exec (p.run exec s).2 := by
  induction p generalizing s with
  | done a => rfl
  | call c next ih => exact ih (exec c s).1 (exec c s).2

@[simp] theorem run_map (f : α → β) (p : Program Cmd Reply α) (s : σ) :
    (f <$> p).run exec s = (f (p.run exec s).1, (p.run exec s).2) := by
  rw [map_eq_bind, run_bind, run_done]

/-- A loop keeps what each turn of it keeps. -/
theorem run_foldlM {Inv : σ → Prop} {body : β → α → Program Cmd Reply β} {xs : List α} {b : β} {s : σ}
    (hs : Inv s) (h : ∀ x ∈ xs, ∀ b s, Inv s → Inv ((body b x).run exec s).2) :
    Inv ((xs.foldlM body b).run exec s).2 := by
  induction xs generalizing b s with
  | nil => exact hs
  | cons x xs ih =>
    rw [List.foldlM_cons, run_bind]
    exact ih (h x List.mem_cons_self b s hs) fun y hy => h y (List.mem_cons_of_mem x hy)

end

/-- The program calls no commands but those of `P`, whatever their replies. -/
def Calls (P : Cmd → Prop) : Program Cmd Reply α → Prop
  | .done _ => True
  | .call c next => P c ∧ ∀ reply, Calls P (next reply)

section

variable {P : Cmd → Prop}

theorem Calls.mono {P' : Cmd → Prop} (hP : ∀ c, P c → P' c) {p : Program Cmd Reply α} (h : p.Calls P) : p.Calls P' := by
  induction p with
  | done a => trivial
  | call c next ih => exact ⟨hP c h.1, fun reply => ih reply (h.2 reply)⟩

theorem Calls.bind {p : Program Cmd Reply α} {f : α → Program Cmd Reply β} (hFirst : p.Calls P)
    (hRest : ∀ a, (f a).Calls P) : (p >>= f).Calls P := by
  induction p with
  | done a => exact hRest a
  | call c next ih => exact ⟨hFirst.1, fun reply => ih reply (hFirst.2 reply)⟩

theorem Calls.map {p : Program Cmd Reply α} (f : α → β) (h : p.Calls P) : (f <$> p).Calls P :=
  h.bind fun _ => trivial

/-- A loop whose turns call no other commands. -/
theorem Calls.foldlM {body : β → α → Program Cmd Reply β} {xs : List α} {b : β}
    (h : ∀ b, ∀ x ∈ xs, (body b x).Calls P) : (xs.foldlM body b).Calls P := by
  induction xs generalizing b with
  | nil => trivial
  | cons x xs ih =>
    rw [List.foldlM_cons]
    exact (h b x List.mem_cons_self).bind fun b => ih fun b y hy => h b y (List.mem_cons_of_mem x hy)

/-- A relation that each command of `P` keeps to holds between the ends of a run. -/
theorem Calls.run {exec : (c : Cmd) → σ → Reply c × σ} {R : σ → σ → Prop} (hRefl : ∀ s, R s s)
    (hTrans : ∀ a b c, R a b → R b c → R a c) (hStep : ∀ c s, P c → R s (exec c s).2)
    {p : Program Cmd Reply α} (h : p.Calls P) (s : σ) : R s (p.run exec s).2 := by
  induction p generalizing s with
  | done a => exact hRefl s
  | call c next ih => exact hTrans _ _ _ (hStep c s h.1) (ih _ (h.2 _) _)

end

/-! ### Modes -/

section

variable {Q : Type} (allowed : Q → Cmd → Prop) (after : Q → (c : Cmd) → Reply c → Q)

/-- The program calls in each mode only what the mode allows, and ends in a mode of `ends`; a call and its reply
lead to the next mode. -/
def Follows (ends : α → Q → Prop) : Program Cmd Reply α → Q → Prop
  | .done a, q => ends a q
  | .call c next, q => allowed q c ∧ ∀ reply, Follows ends (next reply) (after q c reply)

variable {allowed after} {ends : α → Q → Prop}

theorem Follows.bind {ends' : β → Q → Prop} {p : Program Cmd Reply α} {f : α → Program Cmd Reply β} {q : Q}
    (hFirst : p.Follows allowed after ends q) (hRest : ∀ a q, ends a q → (f a).Follows allowed after ends' q) :
    (p >>= f).Follows allowed after ends' q := by
  induction p generalizing q with
  | done a => exact hRest a q hFirst
  | call c next ih => exact ⟨hFirst.1, fun reply => ih reply (hFirst.2 reply)⟩

/-- What each allowed call keeps, with the mode that it leads to, holds at the end of a run. -/
theorem Follows.run {exec : (c : Cmd) → σ → Reply c × σ} {Inv : Q → σ → Prop}
    (hStep : ∀ q c s, Inv q s → allowed q c → Inv (after q c (exec c s).1) (exec c s).2)
    {p : Program Cmd Reply α} {q : Q} (h : p.Follows allowed after ends q) {s : σ} (hs : Inv q s) :
    ∃ q', ends (p.run exec s).1 q' ∧ Inv q' (p.run exec s).2 := by
  induction p generalizing q s with
  | done a => exact ⟨q, h, hs⟩
  | call c next ih => exact ih _ (h.2 _) (hStep q c s hs h.1)

end

end Program

end CyberAccountant.Library
