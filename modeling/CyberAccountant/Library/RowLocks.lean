import CyberAccountant.Library.Table

/-! Row locks.  A statement locks the rows that it writes or names, in one of four modes, and waits
while another transaction has a lock on the row in a mode that conflicts; a transaction keeps its locks
until it ends.  What a transaction has locked follows from how far it has come. -/

namespace CyberAccountant.Library

/-- The modes in which a transaction locks a row. -/
inductive LockMode where
  | keyShare
  | share
  | noKeyUpdate
  | update
  deriving DecidableEq

/-- Two transactions cannot have one row in these modes at a time. -/
def LockMode.conflicts : LockMode → LockMode → Bool
  | .keyShare, .update => true
  | .share, .noKeyUpdate => true
  | .share, .update => true
  | .noKeyUpdate, .share => true
  | .noKeyUpdate, .noKeyUpdate => true
  | .noKeyUpdate, .update => true
  | .update, _ => true
  | _, _ => false

theorem LockMode.conflicts_comm (m m' : LockMode) : m.conflicts m' = m'.conflicts m := by
  cases m <;> cases m' <;> rfl

section

variable {τ κ : Type} (locks : τ → κ → LockMode → Prop)

/-- Nobody but transaction `n` has the row in a mode that conflicts with `m`. -/
def Granted (txns : Table Nat τ) (n : Nat) (row : κ) (m : LockMode) : Prop :=
  ∀ n' t m', txns n' = some t → n' ≠ n → locks t row m' → m.conflicts m' = false

/-- No two transactions have one row in modes that conflict. -/
def LocksOk (txns : Table Nat τ) : Prop :=
  ∀ n t n' t' row m m', txns n = some t → txns n' = some t' → n ≠ n' → locks t row m → locks t' row m' →
    m.conflicts m' = false

variable {locks} {txns : Table Nat τ} {n : Nat} {t : τ}

/-- A transaction that is alone is granted every lock. -/
theorem Granted.of_alone {row : κ} {m : LockMode} (h : ∀ n', n' ≠ n → txns n' = none) :
    Granted locks txns n row m := by
  intro n' t m' hThere hNe
  rw [h n' hNe] at hThere
  cases hThere

theorem LocksOk.empty : LocksOk locks Table.empty := by
  intro n t n' t' row m m' h
  cases h

/-- A transaction goes on with the locks that it had and with those that it is granted. -/
theorem LocksOk.put (hOk : LocksOk locks txns)
    (hLocks : ∀ row m, locks t row m →
      (∃ before, txns n = some before ∧ locks before row m) ∨ Granted locks txns n row m) :
    LocksOk locks (txns.put n t) := by
  -- What `t` has locked conflicts with nothing that another transaction has.
  have hMine : ∀ n' t' row m m', txns n' = some t' → n' ≠ n → locks t row m → locks t' row m' →
      m.conflicts m' = false := by
    intro n' t' row m m' hThere hNe hLock hLock'
    rcases hLocks row m hLock with ⟨before, hBefore, hHad⟩ | hGranted
    · exact hOk n before n' t' row m m' hBefore hThere hNe.symm hHad hLock'
    · exact hGranted n' t' m' hThere hNe hLock'
  intro n₁ t₁ n₂ t₂ row m₁ m₂ h₁ h₂ hNe hLock₁ hLock₂
  rcases Table.put_eq_some.mp h₁ with ⟨rfl, rfl⟩ | ⟨hNe₁, hThere₁⟩
  · rcases Table.put_eq_some.mp h₂ with ⟨rfl, rfl⟩ | ⟨hNe₂, hThere₂⟩
    · exact absurd rfl hNe
    · exact hMine n₂ t₂ row m₁ m₂ hThere₂ hNe₂ hLock₁ hLock₂
  · rcases Table.put_eq_some.mp h₂ with ⟨rfl, rfl⟩ | ⟨hNe₂, hThere₂⟩
    · rw [LockMode.conflicts_comm]
      exact hMine n₁ t₁ row m₂ m₁ hThere₁ hNe₁ hLock₂ hLock₁
    · exact hOk n₁ t₁ n₂ t₂ row m₁ m₂ hThere₁ hThere₂ hNe hLock₁ hLock₂

/-- A transaction ends, and its locks with it. -/
theorem LocksOk.drop (hOk : LocksOk locks txns) : LocksOk locks (txns.drop n) := by
  intro n₁ t₁ n₂ t₂ row m₁ m₂ h₁ h₂
  exact hOk n₁ t₁ n₂ t₂ row m₁ m₂ (Table.drop_eq_some.mp h₁).2 (Table.drop_eq_some.mp h₂).2

end

end CyberAccountant.Library
