import CyberAccountant.Library.Program
import CyberAccountant.Library.Table

/-! A service that tenants share.  The requests of each tenant are programs, and the commands of all of them
come in any order.  A command is about one tenant, or about none in particular.  Where a command about a
tenant reads and writes only his part of the state, he is answered as if there were no others. -/

namespace CyberAccountant.Library

variable {Tenant Time Cmd σ α : Type} {Reply : Cmd → Type}

/-- What happens to a service: a request arrives, one under way goes on by a command or by its reply, or a
command comes from elsewhere. -/
inductive ServiceEvent (Tenant Time Cmd : Type) (Reply : Cmd → Type) (α : Type) where
  | arrive (t : Tenant) (n : Nat) (p : Program Cmd Reply α)
  | next (t : Tenant) (n : Nat) (now : Time)
  | outside (c : Cmd) (now : Time)

structure Service (Tenant Cmd : Type) (Reply : Cmd → Type) (σ α : Type) where
  state : σ
  /-- What the requests under way have yet to do. -/
  requests : Table (Tenant × Nat) (Program Cmd Reply α)
  /-- The replies that were given, the last of them at the end. -/
  replies : List ((Tenant × Nat) × α)

namespace Service

/-- A service without requests. -/
def idle (s : σ) : Service Tenant Cmd Reply σ α := ⟨s, .empty, []⟩

variable [DecidableEq Tenant]

def repliesTo (w : Service Tenant Cmd Reply σ α) (t : Tenant) : List ((Tenant × Nat) × α) :=
  w.replies.filter (·.1.1 = t)

variable (exec : Time → (c : Cmd) → σ → Reply c × σ)

/-- The request arrives, unless there is one of that number. -/
def arrive (w : Service Tenant Cmd Reply σ α) (t : Tenant) (n : Nat) (p : Program Cmd Reply α) :
    Service Tenant Cmd Reply σ α :=
  match w.requests (t, n) with
  | some _ => w
  | none => { w with requests := w.requests.put (t, n) p }

/-- The request goes on, if there is one of that number. -/
def proceed (w : Service Tenant Cmd Reply σ α) (t : Tenant) (n : Nat) (now : Time) : Service Tenant Cmd Reply σ α :=
  match w.requests (t, n) with
  | none => w
  | some (.done a) => ⟨w.state, w.requests.drop (t, n), w.replies ++ [((t, n), a)]⟩
  | some (.call c rest) =>
    ⟨(exec now c w.state).2, w.requests.put (t, n) (rest (exec now c w.state).1), w.replies⟩

def step (w : Service Tenant Cmd Reply σ α) : ServiceEvent Tenant Time Cmd Reply α → Service Tenant Cmd Reply σ α
  | .arrive t n p => w.arrive t n p
  | .next t n now => w.proceed exec t n now
  | .outside c now => { w with state := (exec now c w.state).2 }

def run (w : Service Tenant Cmd Reply σ α) (events : List (ServiceEvent Tenant Time Cmd Reply α)) :
    Service Tenant Cmd Reply σ α :=
  events.foldl (step exec) w

end Service

namespace ServiceEvent

variable [DecidableEq Tenant]

/-- The events that are left when there are no other tenants. -/
def concerns (t : Tenant) : ServiceEvent Tenant Time Cmd Reply α → Bool
  | .arrive t' _ _ | .next t' _ _ => t' = t
  | .outside _ _ => true

/-- The commands of a request are about its tenant. -/
def Scoped (scope : Cmd → Option Tenant) : ServiceEvent Tenant Time Cmd Reply α → Prop
  | .arrive t _ p => p.Calls (scope · = some t)
  | .next _ _ _ => True
  | .outside c _ => scope c = none

end ServiceEvent

/-- Each tenant has a part of the state.  A command about him does the same with his part alone, and one about
another tenant leaves it. -/
structure Isolated (exec : Time → (c : Cmd) → σ → Reply c × σ) (scope : Cmd → Option Tenant)
    (part : Tenant → σ → σ) (Inv : σ → Prop) : Prop where
  keeps : ∀ now c s, Inv s → Inv (exec now c s).2
  reply : ∀ now c s t, Inv s → scope c = some t → (exec now c (part t s)).1 = (exec now c s).1
  effect : ∀ now c s t, Inv s → (∀ t', scope c = some t' → t' = t) →
    (exec now c (part t s)).2 = part t (exec now c s).2
  frame : ∀ now c s t t', Inv s → scope c = some t' → t' ≠ t → part t (exec now c s).2 = part t s

section

variable [DecidableEq Tenant] {exec : Time → (c : Cmd) → σ → Reply c × σ} {scope : Cmd → Option Tenant}
  {part : Tenant → σ → σ} {Inv : σ → Prop} {w w' : Service Tenant Cmd Reply σ α} {t : Tenant}

/-- The two services are in the same state as far as the tenant is concerned. -/
structure SameFor (part : Tenant → σ → σ) (t : Tenant) (w w' : Service Tenant Cmd Reply σ α) : Prop where
  state : part t w.state = part t w'.state
  requests : ∀ n, w.requests (t, n) = w'.requests (t, n)
  replies : w.repliesTo t = w'.repliesTo t

/-- The invariant of the state, and that the requests under way keep to their tenants. -/
structure ServiceOk (scope : Cmd → Option Tenant) (Inv : σ → Prop) (w : Service Tenant Cmd Reply σ α) : Prop where
  inv : Inv w.state
  calls : ∀ t n p, w.requests (t, n) = some p → p.Calls (scope · = some t)

theorem ServiceOk.step (hIso : Isolated exec scope part Inv) (h : ServiceOk scope Inv w)
    {e : ServiceEvent Tenant Time Cmd Reply α} (he : e.Scoped scope) : ServiceOk scope Inv (w.step exec e) := by
  cases e with
  | arrive t n p =>
    simp only [Service.step, Service.arrive]
    split
    · exact h
    · refine ⟨h.inv, fun t' n' p' hHere => ?_⟩
      rcases Table.put_eq_some.mp hHere with ⟨hEq, rfl⟩ | ⟨-, hHere⟩
      · cases hEq
        exact he
      · exact h.calls t' n' p' hHere
  | next t n now =>
    simp only [Service.step, Service.proceed]
    split
    · exact h
    · refine ⟨h.inv, fun t' n' p' hHere => ?_⟩
      exact h.calls t' n' p' (Table.drop_eq_some.mp hHere).2
    · rename_i c rest hRequest
      refine ⟨hIso.keeps now c w.state h.inv, fun t' n' p' hHere => ?_⟩
      rcases Table.put_eq_some.mp hHere with ⟨hEq, rfl⟩ | ⟨-, hHere⟩
      · cases hEq
        exact (h.calls t n _ hRequest).2 _
      · exact h.calls t' n' p' hHere
  | outside c now => exact ⟨hIso.keeps now c w.state h.inv, h.calls⟩

/-- An event of another tenant changes nothing for this one. -/
theorem SameFor.skip (hIso : Isolated exec scope part Inv) (h : SameFor part t w w') (hOk : ServiceOk scope Inv w)
    {e : ServiceEvent Tenant Time Cmd Reply α} (hOther : e.concerns t = false) :
    SameFor part t (w.step exec e) w' := by
  cases e with
  | arrive t' n p =>
    have hNe : t' ≠ t := of_decide_eq_false hOther
    simp only [Service.step, Service.arrive]
    split
    · exact h
    · refine ⟨h.state, fun n' => ?_, h.replies⟩
      have hKey : (t, n') ≠ (t', n) := fun hEq => hNe (congrArg Prod.fst hEq).symm
      exact (Table.put_ne hKey).trans (h.requests n')
  | next t' n now =>
    have hNe : t' ≠ t := of_decide_eq_false hOther
    have hKey : ∀ n', (t, n') ≠ (t', n) := fun n' hEq => hNe (congrArg Prod.fst hEq).symm
    simp only [Service.step, Service.proceed]
    split
    · exact h
    · refine ⟨h.state, fun n' => (Table.drop_ne (hKey n')).trans (h.requests n'), ?_⟩
      rw [← h.replies]
      simp [Service.repliesTo, hNe]
    · rename_i c rest hRequest
      have hScope : scope c = some t' := (hOk.calls t' n _ hRequest).1
      refine ⟨?_, fun n' => (Table.put_ne (hKey n')).trans (h.requests n'), h.replies⟩
      exact (hIso.frame now c w.state t t' hOk.inv hScope hNe).trans h.state
  | outside c now => cases hOther

/-- An event that concerns the tenant, in both services. -/
theorem SameFor.both (hIso : Isolated exec scope part Inv) (h : SameFor part t w w') (hOk : ServiceOk scope Inv w)
    (hOk' : ServiceOk scope Inv w') {e : ServiceEvent Tenant Time Cmd Reply α} (he : e.Scoped scope)
    (hMine : e.concerns t = true) : SameFor part t (w.step exec e) (w'.step exec e) := by
  have hEffect : ∀ now c, (∀ t', scope c = some t' → t' = t) →
      part t (exec now c w.state).2 = part t (exec now c w'.state).2 := by
    intro now c hScope
    rw [← hIso.effect now c _ t hOk.inv hScope, ← hIso.effect now c _ t hOk'.inv hScope, h.state]
  cases e with
  | arrive t' n p =>
    obtain rfl : t' = t := of_decide_eq_true hMine
    simp only [Service.step, Service.arrive]
    rw [h.requests n]
    split
    · exact h
    · refine ⟨h.state, fun n' => ?_, h.replies⟩
      show w.requests.put _ _ _ = w'.requests.put _ _ _
      rw [Table.put_apply, Table.put_apply, h.requests n']
  | next t' n now =>
    obtain rfl : t' = t := of_decide_eq_true hMine
    simp only [Service.step, Service.proceed]
    rw [h.requests n]
    split
    · exact h
    · refine ⟨h.state, fun n' => ?_, ?_⟩
      · show w.requests.drop _ _ = w'.requests.drop _ _
        rw [Table.drop_apply, Table.drop_apply, h.requests n']
      · have hReplies := h.replies
        simp only [Service.repliesTo, List.filter_append] at hReplies ⊢
        rw [hReplies]
    · rename_i c rest hRequest
      have hScope : scope c = some t' := (hOk'.calls t' n _ hRequest).1
      have hReply : (exec now c w.state).1 = (exec now c w'.state).1 := by
        rw [← hIso.reply now c _ t' hOk.inv hScope, ← hIso.reply now c _ t' hOk'.inv hScope, h.state]
      refine ⟨hEffect now c fun t hEq => (Option.some.inj (hScope.symm.trans hEq)).symm, fun n' => ?_, h.replies⟩
      show w.requests.put _ _ _ = w'.requests.put _ _ _
      rw [Table.put_apply, Table.put_apply, h.requests n', hReply]
  | outside c now =>
    have hScope : scope c = none := he
    exact ⟨hEffect now c fun t hEq => by simp [hScope] at hEq, h.requests, h.replies⟩

/-- A run with all tenants and one without the others are the same for the tenant. -/
theorem SameFor.run (hIso : Isolated exec scope part Inv) {events : List (ServiceEvent Tenant Time Cmd Reply α)}
    (hScoped : ∀ e ∈ events, e.Scoped scope) (h : SameFor part t w w') (hOk : ServiceOk scope Inv w)
    (hOk' : ServiceOk scope Inv w') :
    SameFor part t (w.run exec events) (w'.run exec (events.filter (·.concerns t))) := by
  induction events generalizing w w' with
  | nil => exact h
  | cons e events ih =>
    have he : e.Scoped scope := hScoped e List.mem_cons_self
    have hRest : ∀ e' ∈ events, e'.Scoped scope := fun e' hIn => hScoped e' (List.mem_cons_of_mem e hIn)
    cases hMine : e.concerns t with
    | false =>
      rw [List.filter_cons_of_neg (by simp [hMine])]
      exact ih hRest (h.skip hIso hOk hMine) (hOk.step hIso he) hOk'
    | true =>
      rw [List.filter_cons_of_pos hMine]
      exact ih hRest (h.both hIso hOk hOk' he hMine) (hOk.step hIso he) (hOk'.step hIso he)

/-- A tenant is answered, and his part of the state changes, as if there were no others. -/
theorem Isolated.alone (hIso : Isolated exec scope part Inv) {s s' : σ} (hs : Inv s) (hs' : Inv s')
    (hPart : part t s = part t s') {events : List (ServiceEvent Tenant Time Cmd Reply α)}
    (hScoped : ∀ e ∈ events, e.Scoped scope) :
    SameFor part t ((Service.idle s).run exec events)
      ((Service.idle s').run exec (events.filter (·.concerns t))) := by
  have hIdle : ∀ s, Inv s → ServiceOk scope Inv (Service.idle s : Service Tenant Cmd Reply σ α) := by
    intro s hs
    exact ⟨hs, fun t n p hHere => by cases hHere⟩
  exact SameFor.run hIso hScoped ⟨hPart, fun _ => rfl, rfl⟩ (hIdle s hs) (hIdle s' hs')

end

/-! ### What requests are answered -/

section

variable [DecidableEq Tenant] (exec : Time → (c : Cmd) → σ → Reply c × σ) (Inv : σ → Prop) (R : σ → σ → Prop)

/-- The program keeps the invariant, does what the others rely on, and ends with a value of `Q`, whatever the
others do meanwhile that it may rely on. -/
def Ensures (Q : α → Prop) : Program Cmd Reply α → σ → Prop
  | .done a, _ => Q a
  | .call c rest, s₀ => ∀ now s, R s₀ s → Inv s →
      Inv (exec now c s).2 ∧ R s (exec now c s).2 ∧ Ensures Q (rest (exec now c s).1) (exec now c s).2

/-- So does every request under way; the replies that were given are of `Q`. -/
structure AnswersOk (Q : α → Prop) (w : Service Tenant Cmd Reply σ α) : Prop where
  inv : Inv w.state
  ensures : ∀ key p, w.requests key = some p → Ensures exec Inv R Q p w.state
  replies : ∀ entry ∈ w.replies, Q entry.2

variable {exec Inv R} {Q : α → Prop} {w : Service Tenant Cmd Reply σ α}

theorem Ensures.mono (hTrans : ∀ a b c, R a b → R b c → R a c) {p : Program Cmd Reply α} {s s' : σ}
    (h : Ensures exec Inv R Q p s) (hChange : R s s') : Ensures exec Inv R Q p s' := by
  cases p with
  | done a => exact h
  | call c rest => exact fun now s'' hMore hInv => h now s'' (hTrans _ _ _ hChange hMore) hInv

/-- A program that ensures something and goes on. -/
theorem Ensures.bind {β : Type} {Q' : β → Prop} {p : Program Cmd Reply α} {f : α → Program Cmd Reply β} {s : σ}
    (h : Ensures exec Inv R Q p s) (hRest : ∀ a s, Q a → Ensures exec Inv R Q' (f a) s) :
    Ensures exec Inv R Q' (p >>= f) s := by
  induction p generalizing s with
  | done a => exact hRest a s h
  | call c rest ih =>
    intro now s' hMore hInv
    obtain ⟨hInv', hStep, hNext⟩ := h now s' hMore hInv
    exact ⟨hInv', hStep, ih _ hNext⟩

/-- An event keeps that, if what arrives ensures it and what comes from outside does what the others rely on. -/
theorem AnswersOk.step (hRefl : ∀ s, R s s) (hTrans : ∀ a b c, R a b → R b c → R a c)
    (h : AnswersOk exec Inv R Q w) {e : ServiceEvent Tenant Time Cmd Reply α}
    (hArrive : ∀ t n p, e = .arrive t n p → ∀ s, Inv s → Ensures exec Inv R Q p s)
    (hOutside : ∀ c now, e = .outside c now → ∀ s, Inv s → Inv (exec now c s).2 ∧ R s (exec now c s).2) :
    AnswersOk exec Inv R Q (w.step exec e) ∧ R w.state (w.step exec e).state := by
  cases e with
  | arrive t n p =>
    simp only [Service.step, Service.arrive]
    split
    · exact ⟨h, hRefl _⟩
    · refine ⟨⟨h.inv, fun key p' hHere => ?_, h.replies⟩, hRefl _⟩
      rcases Table.put_eq_some.mp hHere with ⟨-, rfl⟩ | ⟨-, hHere⟩
      · exact hArrive t n _ rfl w.state h.inv
      · exact h.ensures key p' hHere
  | next t n now =>
    simp only [Service.step, Service.proceed]
    split
    · exact ⟨h, hRefl _⟩
    · rename_i a hRequest
      refine ⟨⟨h.inv, fun key p' hHere => h.ensures key p' (Table.drop_eq_some.mp hHere).2, ?_⟩, hRefl _⟩
      intro entry hEntry
      rcases List.mem_append.mp hEntry with hOld | hNew
      · exact h.replies entry hOld
      · rw [List.mem_singleton.mp hNew]
        exact h.ensures (t, n) _ hRequest
    · rename_i c rest hRequest
      obtain ⟨hInv, hStep, hRest⟩ := h.ensures (t, n) _ hRequest now w.state (hRefl _) h.inv
      refine ⟨⟨hInv, fun key p' hHere => ?_, h.replies⟩, hStep⟩
      rcases Table.put_eq_some.mp hHere with ⟨-, rfl⟩ | ⟨-, hHere⟩
      · exact hRest
      · exact (h.ensures key p' hHere).mono hTrans hStep
  | outside c now =>
    obtain ⟨hInv, hStep⟩ := hOutside c now rfl w.state h.inv
    exact ⟨⟨hInv, fun key p' hHere => (h.ensures key p' hHere).mono hTrans hStep, h.replies⟩, hStep⟩

/-- Where all requests ensure it, it holds throughout a run, and the run changes the state in no other way. -/
theorem AnswersOk.run (hRefl : ∀ s, R s s) (hTrans : ∀ a b c, R a b → R b c → R a c)
    {events : List (ServiceEvent Tenant Time Cmd Reply α)} (h : AnswersOk exec Inv R Q w)
    (hArrive : ∀ t n p, .arrive t n p ∈ events → ∀ s, Inv s → Ensures exec Inv R Q p s)
    (hOutside : ∀ c now, .outside c now ∈ events → ∀ s, Inv s → Inv (exec now c s).2 ∧ R s (exec now c s).2) :
    AnswersOk exec Inv R Q (w.run exec events) ∧ R w.state (w.run exec events).state := by
  induction events generalizing w with
  | nil => exact ⟨h, hRefl _⟩
  | cons e events ih =>
    obtain ⟨hOk, hStep⟩ := h.step hRefl hTrans
      (fun t n p hEq => hArrive t n p (hEq ▸ List.mem_cons_self))
      (fun c now hEq => hOutside c now (hEq ▸ List.mem_cons_self))
    obtain ⟨hOk', hRest⟩ := ih hOk (fun t n p hIn => hArrive t n p (List.mem_cons_of_mem e hIn))
      (fun c now hIn => hOutside c now (List.mem_cons_of_mem e hIn))
    exact ⟨hOk', hTrans _ _ _ hStep hRest⟩

/-- The same where a request ensures it as the service is when it arrives. -/
theorem AnswersOk.run_along (hRefl : ∀ s, R s s) (hTrans : ∀ a b c, R a b → R b c → R a c)
    {events : List (ServiceEvent Tenant Time Cmd Reply α)} (h : AnswersOk exec Inv R Q w)
    (hArrive : ∀ before t n p after, events = before ++ .arrive t n p :: after →
      AnswersOk exec Inv R Q (w.run exec before) → ∀ s, Inv s → Ensures exec Inv R Q p s)
    (hOutside : ∀ c now, .outside c now ∈ events → ∀ s, Inv s → Inv (exec now c s).2 ∧ R s (exec now c s).2) :
    AnswersOk exec Inv R Q (w.run exec events) := by
  induction events generalizing w with
  | nil => exact h
  | cons e events ih =>
    obtain ⟨hOk, -⟩ := h.step hRefl hTrans (e := e)
      (fun t n p hEq => hArrive [] t n p events (by rw [hEq, List.nil_append]) h)
      (fun c now hEq => hOutside c now (hEq ▸ List.mem_cons_self))
    exact ih hOk
      (fun before t n p after hEq hBefore => hArrive (e :: before) t n p after (by rw [hEq, List.cons_append]) hBefore)
      (fun c now hIn => hOutside c now (List.mem_cons_of_mem e hIn))

/-- What every command does, a run does. -/
theorem Service.run_changes (hRefl : ∀ s, R s s) (hTrans : ∀ a b c, R a b → R b c → R a c)
    (hStep : ∀ now c s, R s (exec now c s).2) (w : Service Tenant Cmd Reply σ α)
    (events : List (ServiceEvent Tenant Time Cmd Reply α)) : R w.state (w.run exec events).state := by
  induction events generalizing w with
  | nil => exact hRefl _
  | cons e events ih =>
    refine hTrans _ _ _ ?_ (ih (w.step exec e))
    cases e with
    | arrive t n p =>
      simp only [Service.step, Service.arrive]
      split <;> exact hRefl _
    | next t n now =>
      simp only [Service.step, Service.proceed]
      split
      · exact hRefl _
      · exact hRefl _
      · exact hStep _ _ _
    | outside c now => exact hStep _ _ _

/-- A program whose commands keep the invariant and do what the others rely on. -/
theorem Ensures.of_calls {P : Cmd → Prop} {p : Program Cmd Reply α} (h : p.Calls P)
    (hStep : ∀ now c s, P c → Inv s → Inv (exec now c s).2 ∧ R s (exec now c s).2) (s : σ) :
    Ensures exec Inv R (fun _ => True) p s := by
  induction p generalizing s with
  | done a => trivial
  | call c rest ih =>
    intro now s' _ hInv
    obtain ⟨hInv', hChange⟩ := hStep now c s' h.1 hInv
    exact ⟨hInv', hChange, ih _ (h.2 _) _⟩

omit [DecidableEq Tenant] in
/-- A service without requests, in a state of the invariant. -/
theorem AnswersOk.idle {s : σ} (hs : Inv s) : AnswersOk exec Inv R Q (Service.idle s : Service Tenant Cmd Reply σ α) :=
  ⟨hs, fun _ _ hHere => (by cases hHere), fun _ hEntry => (by cases hEntry)⟩

end

end CyberAccountant.Library
