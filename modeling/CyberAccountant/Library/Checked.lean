import Mathlib.Logic.Basic
import Mathlib.Data.List.Basic

/-! Computations that may fail: what has to hold when a sequence of checks and steps ends without
an error. -/

namespace CyberAccountant.Library

universe u

variable {ε : Type u} {α β : Type}

/-- Fails with `err` unless `p` holds. -/
def ensure (p : Prop) [Decidable p] (err : ε) : Except ε Unit :=
  if p then .ok () else .error err

@[simp] theorem ensure_eq_ok {p : Prop} [Decidable p] {err : ε} {u : Unit} :
    ensure p err = .ok u ↔ p := by
  unfold ensure
  split <;> simp_all

/-- A sequence of two computations succeeds if both do. -/
@[simp] theorem bind_eq_ok {x : Except ε α} {f : α → Except ε β} {b : β} :
    x >>= f = .ok b ↔ ∃ a, x = .ok a ∧ f a = .ok b := by
  cases x with
  | error e => simp [bind, Except.bind]
  | ok a => simp [bind, Except.bind]

/-- It fails if one of them does. -/
theorem bind_eq_error {x : Except ε α} {f : α → Except ε β} {e : ε} :
    x >>= f = .error e ↔ x = .error e ∨ ∃ a, x = .ok a ∧ f a = .error e := by
  cases x with
  | error e' => simp [bind, Except.bind]
  | ok a => simp [bind, Except.bind]

@[simp] theorem pure_eq_ok {a b : α} : (pure a : Except ε α) = .ok b ↔ a = b := by
  simp [pure, Except.pure]

/-- The value, or `err` where there is none. -/
def orFail (err : ε) : Option α → Except ε α
  | none => .error err
  | some a => .ok a

@[simp] theorem orFail_eq_ok {err : ε} {x : Option α} {a : α} :
    orFail err x = .ok a ↔ x = some a := by
  cases x <;> simp [orFail]

@[simp] theorem map_eq_ok {x : Except ε α} {f : α → β} {b : β} :
    f <$> x = .ok b ↔ ∃ a, x = .ok a ∧ f a = b := by
  cases x <;> simp [Functor.map, Except.map]

@[simp] theorem mapError_eq_ok {ε' : Type u} {x : Except ε α} {f : ε → ε'} {a : α} :
    x.mapError f = .ok a ↔ x = .ok a := by
  cases x <;> simp [Except.mapError]

theorem orFail_map {err : ε} {x : Option α} {f : α → β} : orFail err (x.map f) = f <$> orFail err x := by
  cases x <;> rfl

/-- Whatever error it ends with, the error is of `P`. -/
def Errs (P : ε → Prop) (x : Except ε α) : Prop := ∀ e, x = .error e → P e

section

variable {P : ε → Prop} {x : Except ε α}

theorem Errs.bind {f : α → Except ε β} (hFirst : Errs P x) (hRest : ∀ a, Errs P (f a)) : Errs P (x >>= f) := by
  intro e h
  rcases bind_eq_error.mp h with hError | ⟨a, -, hError⟩
  · exact hFirst e hError
  · exact hRest a e hError

theorem errs_ensure {p : Prop} [Decidable p] {err : ε} (h : P err) : Errs P (ensure p err) := by
  intro e hError
  unfold ensure at hError
  split at hError
  · cases hError
  · cases hError
    exact h

theorem errs_orFail {err : ε} {o : Option α} (h : P err) : Errs P (orFail err o) := by
  intro e hError
  cases o with
  | none =>
    cases hError
    exact h
  | some a => cases hError

theorem errs_mapError {ε' : Type u} {y : Except ε' α} {f : ε' → ε} (h : ∀ e, P (f e)) : Errs P (y.mapError f) := by
  intro e hError
  cases y with
  | error e' =>
    cases hError
    exact h e'
  | ok a => cases hError

theorem errs_ok {a : α} : Errs P (.ok a : Except ε α) := fun _ hError => by cases hError

end

/-- The check of a closed computation: it ends, and with what is asked for. -/
def yields (x : Except ε α) (p : α → Bool) : Bool :=
  match x with
  | .ok a => p a
  | .error _ => false

theorem of_yields {x : Except ε α} {p : α → Bool} (h : yields x p = true) : ∃ a, x = .ok a ∧ p a = true := by
  cases x with
  | error e => cases h
  | ok a => exact ⟨a, rfl, h⟩

/-- A loop of checks succeeds if every check does. -/
theorem forM_eq_ok {f : α → Except ε Unit} {xs : List α} {u : Unit} :
    forM xs f = .ok u ↔ ∀ x ∈ xs, f x = .ok () := by
  induction xs with
  | nil => simp
  | cons x xs ih =>
    rw [List.forM_cons, bind_eq_ok]
    simp only [ih, List.forall_mem_cons]
    constructor
    · rintro ⟨_, hHead, hTail⟩
      exact ⟨hHead, hTail⟩
    · rintro ⟨hHead, hTail⟩
      exact ⟨(), hHead, hTail⟩

end CyberAccountant.Library
