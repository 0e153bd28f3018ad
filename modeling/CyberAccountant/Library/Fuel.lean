import Mathlib.Order.Nat

/-! Computations with fuel: what they return once they have enough of it. -/

namespace CyberAccountant.Library

universe u

variable {ε : Type u} {α β : Type}

/-- With enough fuel the run ends with the value. -/
def Returns (run : Nat → Except ε α) (a : α) : Prop := ∃ least, ∀ fuel, least ≤ fuel → run fuel = .ok a

theorem returns_ok (a : α) : Returns (fun _ => (.ok a : Except ε α)) a := ⟨0, fun _ _ => rfl⟩

theorem Returns.bind {run : Nat → Except ε α} {next : Nat → α → Except ε β} {a : α} {b : β}
    (h : Returns run a) (hNext : Returns (fun fuel => next fuel a) b) :
    Returns (fun fuel => run fuel >>= next fuel) b := by
  obtain ⟨least, hRun⟩ := h
  obtain ⟨least', hRun'⟩ := hNext
  refine ⟨max least least', fun fuel hFuel => ?_⟩
  have hFirst := hRun fuel (Nat.le_trans (Nat.le_max_left _ _) hFuel)
  have hSecond := hRun' fuel (Nat.le_trans (Nat.le_max_right _ _) hFuel)
  simp only [hFirst]
  exact hSecond

/-- A call costs one unit. -/
theorem Returns.of_call {run : Nat → Except ε α} {a : α} (h : Returns (fun fuel => run (fuel + 1)) a) :
    Returns run a := by
  obtain ⟨least, hRun⟩ := h
  refine ⟨least + 1, fun fuel hFuel => ?_⟩
  obtain ⟨fuel, rfl⟩ := Nat.exists_eq_add_of_le' (Nat.le_trans (Nat.le_add_left 1 least) hFuel)
  exact hRun fuel (Nat.le_of_add_le_add_right hFuel)

theorem Returns.unique {run : Nat → Except ε α} {a b : α} (ha : Returns run a) (hb : Returns run b) : a = b := by
  obtain ⟨least, hRun⟩ := ha
  obtain ⟨least', hRun'⟩ := hb
  have hOk : (.ok a : Except ε α) = .ok b :=
    (hRun _ (Nat.le_max_left least least')).symm.trans (hRun' _ (Nat.le_max_right least least'))
  exact Except.ok.inj hOk

/-- A loop returns if each of its rounds does from what `P` says of the state before the round. -/
theorem returns_foldlM {step : Nat → β → α → Except ε β} (P : List α → β → Prop)
    (hStep : ∀ x rest state, P (x :: rest) state → ∃ state', Returns (fun fuel => step fuel state x) state' ∧
      P rest state') {xs : List α} {state : β} (h : P xs state) :
    ∃ state', Returns (fun fuel => xs.foldlM (step fuel) state) state' ∧ P [] state' := by
  induction xs generalizing state with
  | nil => exact ⟨state, returns_ok state, h⟩
  | cons x rest ih =>
    obtain ⟨next, hNext, hP⟩ := hStep x rest state h
    obtain ⟨final, hFinal, hEnd⟩ := ih hP
    exact ⟨final, hNext.bind hFinal, hEnd⟩

end CyberAccountant.Library
