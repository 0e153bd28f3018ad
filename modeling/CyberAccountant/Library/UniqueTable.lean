import CyberAccountant.Library.Rows
import Mathlib.Data.List.Pairwise

/-! Tables with unique constraints.  A row may clash with another, as two rows of one key do, and no two rows
of a table clash.  An insertion or a change that would make two rows clash fails.  Where the rows of different
owners do not clash, it fails or succeeds by the rows of its owner alone. -/

namespace CyberAccountant.Library

/-- The unique constraints of a table: its key, and which rows clash. -/
structure Constraints (ρ κ : Type) where
  key : ρ → κ
  Clash : ρ → ρ → Prop
  decidable : DecidableRel Clash
  symm : ∀ {a b}, Clash a b → Clash b a
  key_clash : ∀ {a b}, key a = key b → Clash a b

instance {ρ κ : Type} (u : Constraints ρ κ) : DecidableRel u.Clash := u.decidable

@[ext] structure UniqueTable {ρ κ : Type} (u : Constraints ρ κ) where
  rows : List ρ
  apart : rows.Pairwise fun a b => ¬u.Clash a b

namespace UniqueTable

variable {ρ κ ι : Type} {u : Constraints ρ κ} {t t' : UniqueTable u} {r r' : ρ} {k : κ} {f : ρ → ρ}

def empty : UniqueTable u := ⟨[], .nil⟩

/-- The table with one more row, if that clashes with none. -/
def insert? (t : UniqueTable u) (r : ρ) : Option (UniqueTable u) :=
  if h : ∀ r' ∈ t.rows, ¬u.Clash r' r then
    some ⟨t.rows ++ [r], List.pairwise_append.mpr ⟨t.apart, List.pairwise_singleton _ _, fun a ha b hb => by
      rw [List.mem_singleton.mp hb]
      exact h a ha⟩⟩
  else none

theorem insert?_eq_some (h : t.insert? r = some t') :
    (∀ r' ∈ t.rows, ¬u.Clash r' r) ∧ t'.rows = t.rows ++ [r] := by
  unfold insert? at h
  split_ifs at h with hApart
  cases h
  exact ⟨hApart, rfl⟩

theorem insert?_isSome : (t.insert? r).isSome ↔ ∀ r' ∈ t.rows, ¬u.Clash r' r := by
  unfold insert?
  split <;> simp_all

/-- Two rows of the table that clash are one. -/
theorem eq_of_clash (hr : r ∈ t.rows) (hr' : r' ∈ t.rows) (hClash : u.Clash r r') : r = r' := by
  have hSymm : Std.Symm fun a b => ¬u.Clash a b := ⟨fun a b hNot hClash => hNot (u.symm hClash)⟩
  by_contra hNe
  exact t.apart.forall hr hr' hNe hClash

section

variable [DecidableEq κ]

/-- The row of a key. -/
def row? (t : UniqueTable u) (k : κ) : Option ρ := rowOf u.key t.rows k

/-- The table with the row of a key changed, if the row then clashes with none. -/
def change? (t : UniqueTable u) (k : κ) (f : ρ → ρ) : Option (UniqueTable u) :=
  if h : ∀ r ∈ t.rows, u.key r = k → ∀ r' ∈ t.rows, u.key r' ≠ k → ¬u.Clash r' (f r) then
    some ⟨changeRow u.key t.rows k f, List.pairwise_map.mpr (t.apart.imp_of_mem fun {a b} ha hb hApart => by
      by_cases hA : u.key a = k <;> by_cases hB : u.key b = k
      · exact absurd (u.key_clash (hA.trans hB.symm)) hApart
      · rw [if_pos hA, if_neg hB]
        exact fun hClash => h a ha hA b hb hB (u.symm hClash)
      · rw [if_neg hA, if_pos hB]
        exact h b hb hB a ha hA
      · rw [if_neg hA, if_neg hB]
        exact hApart)⟩
  else none

theorem change?_eq_some (h : t.change? k f = some t') : t'.rows = changeRow u.key t.rows k f := by
  unfold change? at h
  split_ifs at h
  cases h
  rfl

/-- A change after which a row clashes with no more than before never fails. -/
theorem change?_isSome (h : ∀ r r', u.Clash r' (f r) → u.Clash r' r) : ∃ t', t.change? k f = some t' := by
  refine ⟨_, dif_pos fun r hr hHere r' hr' hNot hClash => hNot ?_⟩
  rw [eq_of_clash hr' hr (h r r' hClash), hHere]

theorem row?_eq_some : t.row? k = some r ↔ r ∈ t.rows ∧ u.key r = k := by
  constructor
  · exact fun h => ⟨rowOf_mem h, rowOf_key h⟩
  · rintro ⟨hr, hKey⟩
    cases h : t.row? k with
    | none => exact absurd hKey (rowOf_eq_none.mp h r hr)
    | some r' =>
      have hSame : u.key r' = u.key r := (rowOf_key h).trans hKey.symm
      rw [eq_of_clash (rowOf_mem h) hr (u.key_clash hSame)]

end

/-! ### The rows of an owner -/

section

variable [DecidableEq ι] {owner : ρ → ι} {o : ι}

/-- The table with the rows of one owner. -/
def only (owner : ρ → ι) (o : ι) (t : UniqueTable u) : UniqueTable u :=
  ⟨rowsOf owner t.rows o, t.apart.filter _⟩

@[simp] theorem only_rows : (t.only owner o).rows = rowsOf owner t.rows o := rfl

@[simp] theorem only_only : (t.only owner o).only owner o = t.only owner o :=
  UniqueTable.ext rowsOf_rowsOf

/-- An insertion goes by the rows of its owner. -/
theorem insert?_only (hOwner : owner r = o) (hOthers : ∀ r' ∈ t.rows, owner r' ≠ o → ¬u.Clash r' r) :
    (t.only owner o).insert? r = (t.insert? r).map (only owner o) := by
  have hIff : (∀ r' ∈ (t.only owner o).rows, ¬u.Clash r' r) ↔ ∀ r' ∈ t.rows, ¬u.Clash r' r := by
    constructor
    · intro h r' hr'
      by_cases hMine : owner r' = o
      · exact h r' (mem_rowsOf.mpr ⟨hr', hMine⟩)
      · exact hOthers r' hr' hMine
    · exact fun h r' hr' => h r' (mem_rowsOf.mp hr').1
  unfold insert?
  by_cases h : ∀ r' ∈ t.rows, ¬u.Clash r' r
  · rw [dif_pos h, dif_pos (hIff.mpr h)]
    exact congrArg some (UniqueTable.ext (rowsOf_append_own hOwner).symm)
  · rw [dif_neg h, dif_neg fun hMine => h (hIff.mp hMine)]
    rfl

/-- It leaves the rows of the others. -/
theorem insert?_other (hOwner : owner r ≠ o) (h : t.insert? r = some t') : t'.only owner o = t.only owner o := by
  apply UniqueTable.ext
  rw [only_rows, only_rows, (insert?_eq_some h).2, rowsOf_append_other hOwner]

variable [DecidableEq κ]

theorem row?_only (hKey : ∀ r, u.key r = k → owner r = o) : (t.only owner o).row? k = t.row? k :=
  rowOf_rowsOf hKey

/-- So does a change. -/
theorem change?_only (hKeep : ∀ r, owner (f r) = owner r) (hKey : ∀ r, u.key r = k → owner r = o)
    (hOthers : ∀ r ∈ t.rows, u.key r = k → ∀ r' ∈ t.rows, owner r' ≠ o → ¬u.Clash r' (f r)) :
    (t.only owner o).change? k f = (t.change? k f).map (only owner o) := by
  have hIff : (∀ r ∈ (t.only owner o).rows, u.key r = k → ∀ r' ∈ (t.only owner o).rows, u.key r' ≠ k →
      ¬u.Clash r' (f r)) ↔ ∀ r ∈ t.rows, u.key r = k → ∀ r' ∈ t.rows, u.key r' ≠ k → ¬u.Clash r' (f r) := by
    constructor
    · intro h r hr hHere r' hr' hNot
      by_cases hMine : owner r' = o
      · exact h r (mem_rowsOf.mpr ⟨hr, hKey r hHere⟩) hHere r' (mem_rowsOf.mpr ⟨hr', hMine⟩) hNot
      · exact hOthers r hr hHere r' hr' hMine
    · exact fun h r hr hHere r' hr' hNot => h r (mem_rowsOf.mp hr).1 hHere r' (mem_rowsOf.mp hr').1 hNot
  unfold change?
  by_cases h : ∀ r ∈ t.rows, u.key r = k → ∀ r' ∈ t.rows, u.key r' ≠ k → ¬u.Clash r' (f r)
  · rw [dif_pos h, dif_pos (hIff.mpr h)]
    exact congrArg some (UniqueTable.ext (rowsOf_changeRow hKeep).symm)
  · rw [dif_neg h, dif_neg fun hMine => h (hIff.mp hMine)]
    rfl

theorem change?_other (hKeep : ∀ r, owner (f r) = owner r) (hKey : ∀ r, u.key r = k → owner r ≠ o)
    (h : t.change? k f = some t') : t'.only owner o = t.only owner o := by
  apply UniqueTable.ext
  rw [only_rows, only_rows, change?_eq_some h, rowsOf_changeRow hKeep, changeRow_rowsOf_other hKey]

end

end UniqueTable

end CyberAccountant.Library
