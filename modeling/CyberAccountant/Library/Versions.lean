import CyberAccountant.Library.Table
import Mathlib.Logic.Function.Basic

/-! Transactions over a table under READ COMMITTED.  Each transaction has its own versions of the rows that
it has written and locks these rows until it ends; it sees the committed rows under its versions.  A unique
constraint is a relation of rows that conflict; a statement is let through when its row conflicts neither
with what its transaction sees nor with what another one has written. -/

namespace CyberAccountant.Library

/-- The committed rows, and the versions of each transaction; that of a removed row is `none`. -/
structure Versioned (κ ρ : Type*) where
  rows : Table κ ρ
  versions : Nat → Table κ (Option ρ)

namespace Versioned

variable {κ ρ : Type*}

def view (v : Versioned κ ρ) (n : Nat) : Table κ ρ := Table.overlay (v.versions n) v.rows

def Unlocked (v : Versioned κ ρ) (n : Nat) (k : κ) : Prop := ∀ m, m ≠ n → v.versions m k = none

def rollback (v : Versioned κ ρ) (n : Nat) : Versioned κ ρ :=
  { v with versions := Function.update v.versions n Table.empty }

def commit (v : Versioned κ ρ) (n : Nat) : Versioned κ ρ :=
  ⟨v.view n, Function.update v.versions n Table.empty⟩

def write [DecidableEq κ] (v : Versioned κ ρ) (n : Nat) (k : κ) (row : Option ρ) : Versioned κ ρ :=
  { v with versions := Function.update v.versions n ((v.versions n).put k row) }

def Unique (conflict : ρ → ρ → Prop) (t : Table κ ρ) : Prop :=
  ∀ k k' r r', t k = some r → t k' = some r' → k ≠ k' → ¬conflict r r'

/-- A unique index lets the row in. -/
structure Admits (conflict : ρ → ρ → Prop) (v : Versioned κ ρ) (n : Nat) (k : κ) (row : ρ) : Prop where
  seen : ∀ k' r, k' ≠ k → v.view n k' = some r → ¬conflict row r
  others : ∀ m k' r, m ≠ n → v.versions m k' = some (some r) → ¬conflict row r

/-- What locks and unique indexes keep up. -/
structure VersionsOk (conflict : ρ → ρ → Prop) (v : Versioned κ ρ) : Prop where
  apart : ∀ n m k, n ≠ m → v.versions n k = none ∨ v.versions m k = none
  rows : Unique conflict v.rows
  seen : ∀ n, Unique conflict (v.view n)
  others : ∀ n m k k' r r', n ≠ m → v.versions n k = some (some r) → v.versions m k' = some (some r') →
    ¬conflict r r'

variable {conflict : ρ → ρ → Prop} {v : Versioned κ ρ} {n m : Nat} {k k' : κ} {row r : ρ}

theorem view_of_none (h : v.versions n k = none) : v.view n k = v.rows k := Table.overlay_of_none h

theorem view_of_some {version : Option ρ} (h : v.versions n k = some version) : v.view n k = version :=
  Table.overlay_of_some h

theorem view_of_empty (h : v.versions n = Table.empty) : v.view n = v.rows := by
  funext k
  apply view_of_none
  rw [h]
  rfl

theorem view_cases (h : v.view n k = some r) :
    v.versions n k = some (some r) ∨ v.versions n k = none ∧ v.rows k = some r := by
  cases hVersion : v.versions n k with
  | none => exact .inr ⟨rfl, (view_of_none hVersion).symm.trans h⟩
  | some version => exact .inl (congrArg some ((view_of_some hVersion).symm.trans h))

@[simp] theorem rollback_rows : (v.rollback n).rows = v.rows := rfl

@[simp] theorem rollback_same : (v.rollback n).versions n = Table.empty := Function.update_self _ _ _

theorem rollback_ne (h : m ≠ n) : (v.rollback n).versions m = v.versions m := Function.update_of_ne h _ _

@[simp] theorem commit_rows : (v.commit n).rows = v.view n := rfl

@[simp] theorem commit_same : (v.commit n).versions n = Table.empty := Function.update_self _ _ _

theorem commit_ne (h : m ≠ n) : (v.commit n).versions m = v.versions m := Function.update_of_ne h _ _

/-- A row that a transaction has written stays as it is committed while others commit. -/
theorem commit_rows_of_locked (hOk : VersionsOk conflict v) (hNe : m ≠ n) (hMine : v.versions m k ≠ none) :
    (v.commit n).rows k = v.rows k :=
  view_of_none ((hOk.apart m n k hNe).resolve_left hMine)

/-- A transaction ends: what the others have written stays apart, and so it is with the rows that are
committed then if these go with it. -/
theorem VersionsOk.ended {v' : Versioned κ ρ} (hSymm : ∀ a b, conflict a b → conflict b a)
    (hOk : VersionsOk conflict v) (hEnds : v'.versions = Function.update v.versions n Table.empty)
    (hRows : Unique conflict v'.rows)
    (hMixed : ∀ m k k' r r', m ≠ n → v.versions m k = some (some r) → v.versions m k' = none →
      v'.rows k' = some r' → k ≠ k' → ¬conflict r r') : VersionsOk conflict v' := by
  have hSub : ∀ m k version, v'.versions m k = some version → m ≠ n ∧ v.versions m k = some version := by
    intro m k version h
    rw [hEnds] at h
    by_cases hSame : m = n
    · subst hSame
      rw [Function.update_self] at h
      cases h
    · rw [Function.update_of_ne hSame] at h
      exact ⟨hSame, h⟩
  have hNone : ∀ m k, m ≠ n → v'.versions m k = none → v.versions m k = none := by
    intro m k hNe h
    rw [hEnds, Function.update_of_ne hNe] at h
    exact h
  constructor
  case apart =>
    intro a b k hNe
    by_contra hBoth
    obtain ⟨hA, hB⟩ := not_or.mp hBoth
    obtain ⟨x, hX⟩ := Option.ne_none_iff_exists'.mp hA
    obtain ⟨y, hY⟩ := Option.ne_none_iff_exists'.mp hB
    rcases hOk.apart a b k hNe with h | h
    · rw [(hSub a k x hX).2] at h
      cases h
    · rw [(hSub b k y hY).2] at h
      cases h
  case rows => exact hRows
  case seen =>
    intro m k k' r r' hR hR' hKeys
    rcases view_cases hR with hMine | ⟨hNot, hRow⟩
    · obtain ⟨hNe, hVersion⟩ := hSub m k _ hMine
      rcases view_cases hR' with hMine' | ⟨hNot', hRow'⟩
      · have hVersion' := (hSub m k' _ hMine').2
        exact hOk.seen m k k' r r' (view_of_some hVersion) (view_of_some hVersion') hKeys
      · exact hMixed m k k' r r' hNe hVersion (hNone m k' hNe hNot') hRow' hKeys
    · rcases view_cases hR' with hMine' | ⟨-, hRow'⟩
      · obtain ⟨hNe, hVersion'⟩ := hSub m k' _ hMine'
        intro hConflict
        exact hMixed m k' k r' r hNe hVersion' (hNone m k hNe hNot) hRow hKeys.symm (hSymm _ _ hConflict)
      · exact hRows k k' r r' hRow hRow' hKeys
  case others =>
    intro a b k k' r r' hNe hA hB
    exact hOk.others a b k k' r r' hNe (hSub a k _ hA).2 (hSub b k' _ hB).2

theorem VersionsOk.commit (hSymm : ∀ a b, conflict a b → conflict b a) (hOk : VersionsOk conflict v) :
    VersionsOk conflict (v.commit n) := by
  apply hOk.ended hSymm rfl (hOk.seen n)
  intro m k k' r r' hNe hVersion hNone hRow hKeys
  rcases view_cases hRow with hTheirs | ⟨-, hOld⟩
  · exact hOk.others m n k k' r r' hNe hVersion hTheirs
  · exact hOk.seen m k k' r r' (view_of_some hVersion) ((view_of_none hNone).trans hOld) hKeys

theorem VersionsOk.rollback (hSymm : ∀ a b, conflict a b → conflict b a) (hOk : VersionsOk conflict v) :
    VersionsOk conflict (v.rollback n) := by
  have hRows : Unique conflict (v.rollback n).rows := hOk.rows
  apply hOk.ended hSymm rfl hRows
  intro m k k' r r' _ hVersion hNone hRow hKeys
  exact hOk.seen m k k' r r' (view_of_some hVersion) ((view_of_none hNone).trans hRow) hKeys

/-- A row that conflicts with no more than the one in its place is let in. -/
theorem VersionsOk.admits (hOk : VersionsOk conflict v) (hFree : v.Unlocked n k) (hHere : v.view n k = some row)
    {row' : ρ} (hLess : ∀ r, conflict row' r → conflict row r) : Admits conflict v n k row' where
  seen k' r hNe hView hConflict := hOk.seen n k k' row r hHere hView hNe.symm (hLess r hConflict)
  others m k' r hNe hVersion hConflict := by
    rcases view_cases hHere with hMine | ⟨-, hRow⟩
    · exact hOk.others n m k k' row r hNe.symm hMine hVersion (hLess r hConflict)
    · have hNone := hFree m hNe
      have hKeys : k ≠ k' := by
        rintro rfl
        rw [hNone] at hVersion
        cases hVersion
      exact hOk.seen m k k' row r ((view_of_none hNone).trans hRow) (view_of_some hVersion) hKeys
        (hLess r hConflict)

section Write

variable [DecidableEq κ] {version : Option ρ}

@[simp] theorem write_rows : (v.write n k version).rows = v.rows := rfl

@[simp] theorem write_same : (v.write n k version).versions n = (v.versions n).put k version :=
  Function.update_self _ _ _

theorem write_ne (h : m ≠ n) : (v.write n k version).versions m = v.versions m := Function.update_of_ne h _ _

theorem view_write : (v.write n k version).view n k' = if k' = k then version else v.view n k' := by
  unfold view Table.overlay
  rw [write_same, write_rows, Table.put_apply]
  split <;> rfl

theorem view_write_ne (h : m ≠ n) : (v.write n k version).view m = v.view m := by
  unfold view
  rw [write_ne h, write_rows]

/-- A transaction of one statement. -/
theorem commit_write (h : v.versions n = Table.empty) (row : ρ) :
    (v.write n k (some row)).commit n = ⟨v.rows.put k row, v.versions⟩ := by
  have hRows : (v.write n k (some row)).view n = v.rows.put k row := by
    funext k'
    rw [view_write, Table.put_apply, view_of_empty h]
  have hVersions : Function.update (v.write n k (some row)).versions n Table.empty = v.versions := by
    show Function.update (Function.update v.versions n _) n Table.empty = v.versions
    rw [Function.update_idem, ← h, Function.update_eq_self]
  rw [commit, hRows, hVersions]

/-- The transaction sees no two rows that conflict after a row that is let in. -/
theorem VersionsOk.unique_write (hSymm : ∀ a b, conflict a b → conflict b a) (hOk : VersionsOk conflict v)
    (hLet : ∀ r, version = some r → Admits conflict v n k r) : Unique conflict ((v.write n k version).view n) := by
  intro k₁ k₂ r₁ r₂ h₁ h₂ hKeys
  rw [view_write] at h₁ h₂
  by_cases hFirst : k₁ = k
  · have hSecond : k₂ ≠ k := fun h => hKeys (hFirst.trans h.symm)
    rw [if_pos hFirst] at h₁
    rw [if_neg hSecond] at h₂
    exact (hLet r₁ h₁).seen k₂ r₂ hSecond h₂
  · rw [if_neg hFirst] at h₁
    by_cases hSecond : k₂ = k
    · rw [if_pos hSecond] at h₂
      exact fun hConflict => (hLet r₂ h₂).seen k₁ r₁ hFirst h₁ (hSymm _ _ hConflict)
    · rw [if_neg hSecond] at h₂
      exact hOk.seen n k₁ k₂ r₁ r₂ h₁ h₂ hKeys

theorem VersionsOk.write (hSymm : ∀ a b, conflict a b → conflict b a) (hOk : VersionsOk conflict v)
    (hFree : v.Unlocked n k) (hLet : ∀ r, version = some r → Admits conflict v n k r) :
    VersionsOk conflict (v.write n k version) := by
  have hApart : ∀ m k', m ≠ n → (v.write n k version).versions n k' = none ∨ v.versions m k' = none := by
    intro m k' hNe
    rw [write_same]
    by_cases hHere : k' = k
    · subst hHere
      exact .inr (hFree m hNe)
    · rw [Table.put_ne hHere]
      exact hOk.apart n m k' hNe.symm
  have hOthers : ∀ m k' k'' r r', m ≠ n → (v.write n k version).versions n k' = some (some r) →
      v.versions m k'' = some (some r') → ¬conflict r r' := by
    intro m k' k'' r r' hNe hMine hTheirs
    rw [write_same] at hMine
    rcases Table.put_eq_some.mp hMine with ⟨-, hNew⟩ | ⟨-, hOld⟩
    · exact (hLet r hNew).others m k'' r' hNe hTheirs
    · exact hOk.others n m k' k'' r r' hNe.symm hOld hTheirs
  constructor
  case apart =>
    intro a b k' hNe
    by_cases hA : a = n
    · subst hA
      rw [write_ne hNe.symm]
      exact hApart b k' hNe.symm
    · rw [write_ne hA]
      by_cases hB : b = n
      · subst hB
        exact (hApart a k' hA).symm
      · rw [write_ne hB]
        exact hOk.apart a b k' hNe
  case rows => exact hOk.rows
  case seen =>
    intro m k₁ k₂ r₁ r₂ h₁ h₂ hKeys
    by_cases hM : m = n
    · subst hM
      exact hOk.unique_write hSymm hLet k₁ k₂ r₁ r₂ h₁ h₂ hKeys
    · rw [view_write_ne hM] at h₁ h₂
      exact hOk.seen m k₁ k₂ r₁ r₂ h₁ h₂ hKeys
  case others =>
    intro a b k₁ k₂ r₁ r₂ hNe hA hB
    by_cases hIs : a = n
    · subst hIs
      rw [write_ne hNe.symm] at hB
      exact hOthers b k₁ k₂ r₁ r₂ hNe.symm hA hB
    · rw [write_ne hIs] at hA
      by_cases hIs' : b = n
      · subst hIs'
        exact fun hConflict => hOthers a k₂ k₁ r₂ r₁ hIs hB hA (hSymm _ _ hConflict)
      · rw [write_ne hIs'] at hB
        exact hOk.others a b k₁ k₂ r₁ r₂ hNe hA hB

end Write

end Versioned

end CyberAccountant.Library
