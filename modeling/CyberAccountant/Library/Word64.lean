import Mathlib.Algebra.Ring.Int.Defs
import Mathlib.Data.Int.Basic

/-! Arithmetic of a signed 64-bit integer as two's complement hardware performs it: every result
is reduced to the representative in `[-2^63, 2^63)`. -/

namespace CyberAccountant.Library

/-- The representative of `x` modulo `2^64` in `[-2^63, 2^63)`. -/
def wrap64 (x : Int) : Int := x.bmod 18446744073709551616

/-- `x` is the value of a signed 64-bit integer. -/
def InInt64 (x : Int) : Prop := -9223372036854775808 ≤ x ∧ x < 9223372036854775808

instance (x : Int) : Decidable (InInt64 x) := inferInstanceAs (Decidable (_ ∧ _))

theorem wrap64_of_inInt64 {x : Int} (h : InInt64 x) : wrap64 x = x := by
  obtain ⟨hLow, hHigh⟩ := h
  exact Int.bmod_eq_of_le (by omega) (by omega)

theorem inInt64_wrap64 (x : Int) : InInt64 (wrap64 x) := by
  have hLow := Int.le_bmod (x := x) (m := 18446744073709551616) (by decide)
  have hHigh := Int.bmod_lt (x := x) (m := 18446744073709551616) (by decide)
  simp only [InInt64, wrap64]
  omega

/-- `x` as the result of an operation on signed 64-bit integers: none where the operation overflows. -/
def fit64? (x : Int) : Option Int := if InInt64 x then some x else none

@[simp] theorem fit64?_eq_some {x y : Int} : fit64? x = some y ↔ InInt64 x ∧ x = y := by
  simp [fit64?]

theorem fit64?_of {x : Int} (h : InInt64 x) : fit64? x = some x := by
  simp [h]

@[simp] theorem wrap64_wrap64_add (x y : Int) : wrap64 (wrap64 x + y) = wrap64 (x + y) :=
  Int.bmod_add_bmod

@[simp] theorem wrap64_add_wrap64 (x y : Int) : wrap64 (x + wrap64 y) = wrap64 (x + y) :=
  Int.add_bmod_bmod

@[simp] theorem wrap64_wrap64_sub (x y : Int) : wrap64 (wrap64 x - y) = wrap64 (x - y) :=
  Int.bmod_sub_bmod

@[simp] theorem wrap64_sub_wrap64 (x y : Int) : wrap64 (x - wrap64 y) = wrap64 (x - y) :=
  Int.sub_bmod_bmod

/-- A running 64-bit sum is the exact sum, reduced once. -/
theorem foldl_wrap64_add {α : Type*} (f : α → Int) (xs : List α) {acc : Int} (h : InInt64 acc) :
    xs.foldl (fun a x => wrap64 (a + f x)) acc = wrap64 (acc + (xs.map f).sum) := by
  induction xs generalizing acc with
  | nil => simp [wrap64_of_inInt64 h]
  | cons x xs ih =>
    rw [List.foldl_cons, ih (inInt64_wrap64 _), wrap64_wrap64_add, List.map_cons, List.sum_cons,
      Int.add_assoc]

end CyberAccountant.Library
