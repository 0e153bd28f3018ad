import Mathlib.Logic.Basic

/-! Tables with a primary key: partial functions from keys to rows, so that no table holds two
rows under one key.  `put` writes a row under its key and `drop` removes the row of a key. -/

namespace CyberAccountant.Library

/-- The rows of a table by primary key. -/
def Table (κ ρ : Type*) := κ → Option ρ

namespace Table

variable {κ ρ : Type*}

/-- The table without rows. -/
def empty : Table κ ρ := fun _ => none

@[simp] theorem empty_apply (k : κ) : (empty : Table κ ρ) k = none := rfl

variable [DecidableEq κ]

/-- `t` with `row` under `k`. -/
def put (t : Table κ ρ) (k : κ) (row : ρ) : Table κ ρ := fun k' => if k' = k then some row else t k'

/-- `t` without the row of `k`. -/
def drop (t : Table κ ρ) (k : κ) : Table κ ρ := fun k' => if k' = k then none else t k'

theorem put_apply (t : Table κ ρ) (k k' : κ) (row : ρ) :
    t.put k row k' = if k' = k then some row else t k' := rfl

theorem drop_apply (t : Table κ ρ) (k k' : κ) :
    t.drop k k' = if k' = k then none else t k' := rfl

@[simp] theorem put_same (t : Table κ ρ) (k : κ) (row : ρ) : t.put k row k = some row := by
  simp [put_apply]

theorem put_ne {t : Table κ ρ} {k k' : κ} {row : ρ} (h : k' ≠ k) : t.put k row k' = t k' := by
  simp [put_apply, h]

@[simp] theorem drop_same (t : Table κ ρ) (k : κ) : t.drop k k = none := by
  simp [drop_apply]

theorem drop_ne {t : Table κ ρ} {k k' : κ} (h : k' ≠ k) : t.drop k k' = t k' := by
  simp [drop_apply, h]

@[simp] theorem put_put_same (t : Table κ ρ) (k : κ) (row row' : ρ) :
    (t.put k row).put k row' = t.put k row' := by
  funext k'
  by_cases h : k' = k
  · rw [h, put_same, put_same]
  · rw [put_ne h, put_ne h, put_ne h]

@[simp] theorem put_drop_same (t : Table κ ρ) (k : κ) (row : ρ) :
    (t.drop k).put k row = t.put k row := by
  funext k'
  by_cases h : k' = k
  · rw [h, put_same, put_same]
  · rw [put_ne h, put_ne h, drop_ne h]

theorem put_eq_some {t : Table κ ρ} {k k' : κ} {row r : ρ} :
    t.put k row k' = some r ↔ k' = k ∧ row = r ∨ k' ≠ k ∧ t k' = some r := by
  by_cases h : k' = k <;> simp [put_apply, h]

theorem drop_eq_some {t : Table κ ρ} {k k' : κ} {r : ρ} :
    t.drop k k' = some r ↔ k' ≠ k ∧ t k' = some r := by
  by_cases h : k' = k <;> simp [drop_apply, h]

/-! ### Row versions over a table -/

/-- The rows of `t` under the versions of some rows; the version of a removed row is `none`. -/
def overlay (versions : Table κ (Option ρ)) (t : Table κ ρ) : Table κ ρ :=
  fun k => (versions k).getD (t k)

omit [DecidableEq κ] in
theorem overlay_of_none {versions : Table κ (Option ρ)} {t : Table κ ρ} {k : κ}
    (h : versions k = none) : overlay versions t k = t k := by
  simp [overlay, h]

omit [DecidableEq κ] in
theorem overlay_of_some {versions : Table κ (Option ρ)} {t : Table κ ρ} {k : κ} {v : Option ρ}
    (h : versions k = some v) : overlay versions t k = v := by
  simp [overlay, h]

theorem overlay_put_some (versions : Table κ (Option ρ)) (t : Table κ ρ) (k : κ) (row : ρ) :
    overlay (versions.put k (some row)) t = (overlay versions t).put k row := by
  funext k'
  by_cases h : k' = k
  · simp [h, overlay]
  · rw [put_ne h]
    simp [overlay, put_ne h]

theorem overlay_put_none (versions : Table κ (Option ρ)) (t : Table κ ρ) (k : κ) :
    overlay (versions.put k none) t = (overlay versions t).drop k := by
  funext k'
  by_cases h : k' = k
  · simp [h, overlay]
  · rw [drop_ne h]
    simp [overlay, put_ne h]

end Table

end CyberAccountant.Library
