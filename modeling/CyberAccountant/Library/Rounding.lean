import Mathlib.Algebra.Order.Ring.Abs
import Mathlib.Algebra.Order.Ring.Int
import Mathlib.Tactic.Linarith
import Mathlib.Tactic.Ring

/-! Rounding of integers to the nearest multiple of a unit, where a tie goes away from zero. -/

namespace CyberAccountant.Library

/-- `n` units are the nearest to `x`, and of two that are equally near the larger in magnitude. -/
structure RoundsAway (unit x n : Int) : Prop where
  nearest : ∀ m, |x - unit * n| ≤ |x - unit * m|
  away : ∀ m, |x - unit * m| = |x - unit * n| → |m| ≤ |n|

namespace RoundsAway

variable {unit x y n m k : Int}

/-- A rounding that errs by at most half a unit, and by half a unit only away from zero. -/
theorem of_half (hUnit : 0 < unit) (hLow : 2 * (unit * n - x) ≤ unit) (hHigh : 2 * (x - unit * n) ≤ unit)
    (hUp : 2 * (unit * n - x) = unit → 0 ≤ x) (hDown : 2 * (x - unit * n) = unit → x ≤ 0) : RoundsAway unit x n := by
  have hApart : ∀ m, m ≠ n → unit ≤ |unit * m - unit * n| := by
    intro m hNe
    have hSteps : 1 ≤ |m - n| := Int.one_le_abs (sub_ne_zero.mpr hNe)
    calc unit = unit * 1 := (mul_one unit).symm
      _ ≤ unit * |m - n| := Int.mul_le_mul_of_nonneg_left hSteps hUnit.le
      _ = |unit * m - unit * n| := by rw [← mul_sub, abs_mul, abs_of_pos hUnit]
  constructor
  · intro m
    by_cases hEq : m = n
    · rw [hEq]
    · have hFar := hApart m hEq
      grind
  · intro m hTie
    by_cases hEq : m = n
    · rw [hEq]
    · have hFar := hApart m hEq
      have hNext : unit * m = unit * n + unit ∨ unit * m = unit * n - unit := by grind
      have hSign : ∀ {a : Int}, 0 ≤ unit * a → 0 ≤ a := fun h => nonneg_of_mul_nonneg_right h hUnit
      rcases hNext with hNext | hNext
      · have hStep : m = n + 1 := Int.eq_of_mul_eq_mul_left hUnit.ne' (by rw [hNext]; ring)
        have hHalf : 2 * (x - unit * n) = unit := by grind
        have hMiddle : unit * -(n + m) = 2 * -x := by rw [hStep]; linarith
        have hNeg : 0 ≤ -(n + m) := hSign (by rw [hMiddle]; linarith [hDown hHalf])
        grind
      · have hStep : m = n - 1 := Int.eq_of_mul_eq_mul_left hUnit.ne' (by rw [hNext]; ring)
        have hHalf : 2 * (unit * n - x) = unit := by grind
        have hMiddle : unit * (n + m) = 2 * x := by rw [hStep]; linarith
        have hPos : 0 ≤ n + m := hSign (by rw [hMiddle]; linarith [hUp hHalf])
        grind

theorem unique (hUnit : 0 < unit) (hn : RoundsAway unit x n) (hm : RoundsAway unit x m) : n = m := by
  have hTie : |x - unit * n| = |x - unit * m| := le_antisymm (hn.nearest m) (hm.nearest n)
  have hMagnitude : |n| = |m| := le_antisymm (hm.away n hTie) (hn.away m hTie.symm)
  rcases abs_eq_abs.mp hMagnitude with h | h
  · exact h
  · -- opposite numbers are equally near only to zero, which is nearer to itself
    have hZero := hn.nearest 0
    have hProduct : unit * n = -(unit * m) := by rw [h]; ring
    have hNone : unit * m = 0 := by
      rw [mul_zero, sub_zero] at hZero
      rw [hProduct] at hTie hZero
      grind
    have hm0 : m = 0 := (mul_eq_zero.mp hNone).resolve_left hUnit.ne'
    rw [h, hm0, neg_zero]

theorem neg (h : RoundsAway unit x n) : RoundsAway unit (-x) (-n) := by
  have hMirror : ∀ m, |-x - unit * m| = |x - unit * -m| := by
    intro m
    rw [← abs_neg]
    congr 1
    ring
  constructor
  · intro m
    rw [hMirror, hMirror, neg_neg]
    exact h.nearest (-m)
  · intro m hTie
    rw [hMirror, hMirror, neg_neg] at hTie
    simpa using h.away (-m) hTie

/-- The error is at most half a unit. -/
theorem error_le (hUnit : 0 < unit) (h : RoundsAway unit x n) : 2 * |x - unit * n| ≤ unit := by
  have hAbove := h.nearest (n + 1)
  have hBelow := h.nearest (n - 1)
  rw [mul_add, mul_one] at hAbove
  rw [mul_sub, mul_one] at hBelow
  grind

/-- Rounding each of two amounts and their difference apart, the results differ by at most one unit. -/
theorem sub_close (hUnit : 0 < unit) (hx : RoundsAway unit x n) (hy : RoundsAway unit y m)
    (hDiff : RoundsAway unit (x - y) k) : |(n - m) - k| ≤ 1 := by
  have hn := hx.error_le hUnit
  have hm := hy.error_le hUnit
  have hk := hDiff.error_le hUnit
  have hSum : 2 * (unit * |(n - m) - k|) ≤ 3 * unit := by
    have hAbs : unit * |(n - m) - k| = |unit * n - unit * m - unit * k| := by
      rw [← mul_sub, ← mul_sub, abs_mul, abs_of_pos hUnit]
    rw [hAbs]
    grind
  by_contra hFar
  have hTwo : unit * 2 ≤ unit * |(n - m) - k| := Int.mul_le_mul_of_nonneg_left (by omega) hUnit.le
  omega

end RoundsAway

end CyberAccountant.Library
