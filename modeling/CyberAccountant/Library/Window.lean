import Mathlib.Algebra.Order.Group.Defs
import Mathlib.Algebra.Order.Group.Basic
import Mathlib.Data.List.Count

/-! Events counted over a window that slides: how many of a list of times lie in a half-open window, and
why it is enough to look at the window that ends with an event when that event is admitted. -/

namespace CyberAccountant.Library

variable {α : Type*} [LinearOrder α]

/-- How many of `times` lie in `(lo, hi]`. -/
def countIn (lo hi : α) (times : List α) : Nat := times.countP fun x => lo < x ∧ x ≤ hi

@[simp] theorem countIn_nil (lo hi : α) : countIn lo hi [] = 0 := rfl

theorem countIn_snoc (lo hi x : α) (times : List α) :
    countIn lo hi (times ++ [x]) = countIn lo hi times + if lo < x ∧ x ≤ hi then 1 else 0 := by
  simp [countIn, List.countP_append, List.countP_cons]

/-- Where nothing is later than `hi`, the window is a half-line. -/
theorem countIn_of_le {lo hi : α} {times : List α} (h : ∀ x ∈ times, x ≤ hi) :
    countIn lo hi times = times.countP (lo < ·) := by
  unfold countIn
  apply List.countP_congr
  intro x hx
  simp [h x hx]

variable [AddCommGroup α] [IsOrderedAddMonoid α]

/-- An event admitted while the window that ends with it holds fewer than `limit` leaves every window
of that width with at most `limit`. -/
theorem countIn_snoc_le {times : List α} {now width : α} {limit : Nat} (hPast : ∀ x ∈ times, x ≤ now)
    (hBefore : ∀ t, countIn t (t + width) times ≤ limit)
    (hRoom : countIn (now - width) now times < limit) (t : α) :
    countIn t (t + width) (times ++ [now]) ≤ limit := by
  rw [countIn_snoc]
  split
  · rename_i hHolds
    have hStart : now - width ≤ t := sub_le_iff_le_add.mpr hHolds.2
    -- the window holds the event, so all it holds of the earlier ones was counted with it
    have hPart : countIn t (t + width) times ≤ countIn (now - width) now times := by
      apply List.countP_mono_left
      intro x hx hIn
      simp only [decide_eq_true_eq] at hIn ⊢
      exact ⟨lt_of_le_of_lt hStart hIn.1, hPast x hx⟩
    omega
  · exact hBefore t

end CyberAccountant.Library
