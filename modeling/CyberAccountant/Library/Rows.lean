import Mathlib.Data.List.Basic

/-! Tables that queries scan: lists of rows, each under the key that it holds.  `rowOf` finds the row of
a key and `changeRow` changes it; neither `changeRow` nor a new row at the end changes what is found
under other keys. -/

namespace CyberAccountant.Library

section

variable {ρ κ : Type} [DecidableEq κ] (key : ρ → κ)

/-- The row of a key. -/
def rowOf (rows : List ρ) (k : κ) : Option ρ := rows.find? fun r => key r = k

/-- The rows with that of `k` changed. -/
def changeRow (rows : List ρ) (k : κ) (f : ρ → ρ) : List ρ := rows.map fun r => if key r = k then f r else r

variable {key} {rows : List ρ} {k k' : κ} {f : ρ → ρ} {r : ρ}

theorem rowOf_mem (h : rowOf key rows k = some r) : r ∈ rows := List.mem_of_find?_eq_some h

theorem rowOf_key (h : rowOf key rows k = some r) : key r = k := by
  simpa using List.find?_some h

theorem rowOf_eq_none : rowOf key rows k = none ↔ ∀ r ∈ rows, key r ≠ k := by
  simp [rowOf, List.find?_eq_none]

theorem mem_changeRow {r' : ρ} :
    r' ∈ changeRow key rows k f ↔ ∃ r ∈ rows, r' = if key r = k then f r else r := by
  simp only [changeRow, List.mem_map, eq_comm]

theorem rowOf_changeRow (hKey : ∀ r, key (f r) = key r) :
    rowOf key (changeRow key rows k f) k' = if k' = k then (rowOf key rows k').map f else rowOf key rows k' := by
  induction rows with
  | nil =>
    split <;> rfl
  | cons r rows ih =>
    simp only [rowOf, changeRow, List.map_cons, List.find?_cons] at ih ⊢
    by_cases hHere : key r = k
    · by_cases hSame : k' = k
      · simp [hHere, hSame, hKey]
      · have hNe : key r ≠ k' := fun hEq => hSame (hEq.symm.trans hHere)
        simp only [if_pos hHere, hKey, hNe, decide_false, if_neg hSame] at ih ⊢
        exact ih
    · by_cases hSame : key r = k'
      · have hNe : k' ≠ k := fun hEq => hHere (hSame.trans hEq)
        simp [hSame, hNe]
      · simp only [if_neg hHere, hSame, decide_false] at ih ⊢
        exact ih

theorem rowOf_changeRow_same (hKey : ∀ r, key (f r) = key r) :
    rowOf key (changeRow key rows k f) k = (rowOf key rows k).map f := by
  rw [rowOf_changeRow hKey, if_pos rfl]

theorem rowOf_changeRow_ne (hKey : ∀ r, key (f r) = key r) (hNe : k' ≠ k) :
    rowOf key (changeRow key rows k f) k' = rowOf key rows k' := by
  rw [rowOf_changeRow hKey, if_neg hNe]

theorem rowOf_append_new (hNew : ∀ r ∈ rows, key r ≠ key r') :
    rowOf key (rows ++ [r']) k = if k = key r' then some r' else rowOf key rows k := by
  simp only [rowOf, List.find?_append, List.find?_cons, List.find?_nil]
  by_cases hSame : k = key r'
  · have hNone : rows.find? (fun r => key r = key r') = none := List.find?_eq_none.mpr fun r hr => by
      simpa using hNew r hr
    subst hSame
    simp [hNone]
  · simp [hSame, Ne.symm hSame]

theorem rowOf_filter_ne (hNe : k' ≠ k) :
    rowOf key (rows.filter (key · ≠ k)) k' = rowOf key rows k' := by
  rw [rowOf, rowOf, List.find?_filter]
  congr 1
  funext r
  by_cases hHere : key r = k'
  · simp [hHere, hNe]
  · simp [hHere]

end

/-! ### The rows of an owner -/

section

variable {ρ κ ι : Type} [DecidableEq κ] [DecidableEq ι] (owner : ρ → ι)

/-- The rows of one owner. -/
def rowsOf (rows : List ρ) (o : ι) : List ρ := rows.filter (owner · = o)

variable {owner} {key : ρ → κ} {rows : List ρ} {o : ι} {k : κ} {f : ρ → ρ} {r : ρ}

@[simp] theorem mem_rowsOf : r ∈ rowsOf owner rows o ↔ r ∈ rows ∧ owner r = o := by
  simp [rowsOf]

@[simp] theorem rowsOf_rowsOf : rowsOf owner (rowsOf owner rows o) o = rowsOf owner rows o := by
  simp [rowsOf]

theorem rowsOf_append_own (h : owner r = o) : rowsOf owner (rows ++ [r]) o = rowsOf owner rows o ++ [r] := by
  simp [rowsOf, h]

theorem rowsOf_append_other (h : owner r ≠ o) : rowsOf owner (rows ++ [r]) o = rowsOf owner rows o := by
  simp [rowsOf, h]

theorem rowsOf_changeRow (hOwner : ∀ r, owner (f r) = owner r) :
    rowsOf owner (changeRow key rows k f) o = changeRow key (rowsOf owner rows o) k f := by
  simp only [rowsOf, changeRow, List.filter_map]
  congr 1
  apply List.filter_congr
  intro r _
  by_cases hHere : key r = k
  · simp [hHere, hOwner]
  · simp [hHere]

/-- A key of another owner's row is no key of this one's. -/
theorem changeRow_rowsOf_other (hKey : ∀ r, key r = k → owner r ≠ o) :
    changeRow key (rowsOf owner rows o) k f = rowsOf owner rows o := by
  conv_rhs => rw [← List.map_id (rowsOf owner rows o)]
  apply List.map_congr_left
  intro r hr
  have hNot : key r ≠ k := fun hHere => hKey r hHere (mem_rowsOf.mp hr).2
  rw [if_neg hNot]
  rfl

theorem rowOf_rowsOf (hKey : ∀ r, key r = k → owner r = o) :
    rowOf key (rowsOf owner rows o) k = rowOf key rows k := by
  rw [rowOf, rowOf, rowsOf, List.find?_filter]
  congr 1
  funext r
  by_cases hHere : key r = k
  · simp [hHere, hKey r hHere]
  · simp [hHere]

end

end CyberAccountant.Library
