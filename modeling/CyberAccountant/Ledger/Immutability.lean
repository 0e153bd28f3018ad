import CyberAccountant.Ledger.Journal

/-! What `journal_entries_immutability` lets an update do to a posted or reversed entry.  Its two
exceptions compare different columns: the one for a deleted author compares the whole row, the one
for the storno compares four columns and leaves the id, the author, the run and the creation time
to the update. -/

namespace CyberAccountant.Ledger

open CyberAccountant.Library

/-- The rows agree on every column but `updated_at`. -/
def SameColumns (new old : EntryRow) : Prop := new.withoutUpdatedAt = old.withoutUpdatedAt

/-- What an update may make of a posted or reversed entry: the same row, the storno's change of
status, or the row without the author that is gone. -/
def LegalChange (db : Db) (old new : EntryRow) : Prop :=
  SameColumns new old ∨
    old.status = .posted ∧ SameColumns new { old with status := .reversed } ∨
    (∃ u, old.createdByUserId = some u ∧ u ∉ db.users) ∧
      SameColumns new { old with createdByUserId := none }

/-- The columns that no update of a posted or reversed entry changes. -/
structure FrozenColumns (db : Db) (old new : EntryRow) : Prop where
  id : new.id = old.id
  orgId : new.orgId = old.orgId
  entryDate : new.entryDate = old.entryDate
  description : new.description = old.description
  reversesEntryId : new.reversesEntryId = old.reversesEntryId
  createdByRunId : new.createdByRunId = old.createdByRunId
  createdAt : new.createdAt = old.createdAt
  author : ∀ u, old.createdByUserId = some u → u ∈ db.users → new.createdByUserId = some u

/-- The columns that the comparison for the storno leaves out differ. -/
def UncomparedColumn (old new : EntryRow) : Prop :=
  new.id ≠ old.id ∨ new.createdByUserId ≠ old.createdByUserId ∨
    new.createdByRunId ≠ old.createdByRunId ∨ new.createdAt ≠ old.createdAt

theorem sameColumns_iff {new old : EntryRow} : SameColumns new old ↔
    new.id = old.id ∧ new.orgId = old.orgId ∧ new.entryDate = old.entryDate ∧
      new.description = old.description ∧ new.status = old.status ∧
      new.reversesEntryId = old.reversesEntryId ∧ new.createdByUserId = old.createdByUserId ∧
      new.createdByRunId = old.createdByRunId ∧ new.createdAt = old.createdAt := by
  cases new
  cases old
  simp [SameColumns, EntryRow.withoutUpdatedAt]

theorem LegalChange.frozenColumns {db : Db} {old new : EntryRow} (h : LegalChange db old new) :
    FrozenColumns db old new := by
  rcases h with h | ⟨-, h⟩ | ⟨⟨u, hAuthor, hGone⟩, h⟩ <;> rw [sameColumns_iff] at h <;>
    obtain ⟨hId, hOrg, hDate, hText, -, hReverses, hUser, hRun, hCreated⟩ := h
  · exact ⟨hId, hOrg, hDate, hText, hReverses, hRun, hCreated, fun v hV _ => hUser.trans hV⟩
  · exact ⟨hId, hOrg, hDate, hText, hReverses, hRun, hCreated, fun v hV _ => hUser.trans hV⟩
  · refine ⟨hId, hOrg, hDate, hText, hReverses, hRun, hCreated, fun v hV hLive => ?_⟩
    rw [hAuthor] at hV
    cases hV
    exact absurd hLive hGone

/-- The trigger accepts an update of a posted or reversed entry in its two exceptions only. -/
theorem journalEntriesImmutability_update {db : Db} {old new : EntryRow}
    (hStatus : old.status ≠ .draft) (hOrg : old.orgId ∈ db.organizations) :
    journalEntriesImmutability db (.update old new) = .ok () ↔
      AuthorCleared db old new ∨ old.status = .posted ∧ StornoUpdate old new := by
  simp only [journalEntriesImmutability, hOrg, not_true_eq_false, if_false]
  by_cases hAuthor : AuthorCleared db old new
  · simp [hAuthor]
  · cases hCase : old.status with
    | draft => exact absurd hCase hStatus
    | posted => simp [hAuthor]
    | reversed => simp [hAuthor]

theorem AuthorCleared.legalChange {db : Db} {old new : EntryRow} (h : AuthorCleared db old new) :
    LegalChange db old new :=
  .inr (.inr ⟨h.1, h.2.2⟩)

/-- The storno's update is legal where the columns that it does not compare agree. -/
theorem StornoUpdate.legalChange_iff {db : Db} {old new : EntryRow} (hPosted : old.status = .posted)
    (h : StornoUpdate old new) : LegalChange db old new ↔ ¬UncomparedColumn old new := by
  obtain ⟨hStatus, hDate, hText, hOrg, hReverses⟩ := h
  constructor
  · rintro hLegal hDiffers
    rcases hLegal with hSame | ⟨-, hSame⟩ | ⟨-, hSame⟩ <;> rw [sameColumns_iff] at hSame <;>
      obtain ⟨hId, -, -, -, hStatus', -, hUser, hRun, hCreated⟩ := hSame
    · rw [hStatus, hPosted] at hStatus'
      cases hStatus'
    · rcases hDiffers with hNe | hNe | hNe | hNe
      · exact hNe hId
      · exact hNe hUser
      · exact hNe hRun
      · exact hNe hCreated
    · rw [hStatus] at hStatus'
      exact absurd (hStatus'.trans hPosted) (by decide)
  · intro hAgree
    simp only [UncomparedColumn, not_or, not_not] at hAgree
    obtain ⟨hId, hUser, hRun, hCreated⟩ := hAgree
    exact .inr (.inl ⟨hPosted, sameColumns_iff.mpr
      ⟨hId, hOrg, hDate, hText, hStatus, hReverses, hUser, hRun, hCreated⟩⟩)

/-- An accepted update of a posted or reversed entry is a legal change exactly when it is no storno
update that changes a column which that branch does not compare. -/
theorem immutability_accepts_legal_iff {db : Db} {old new : EntryRow} (hStatus : old.status ≠ .draft)
    (hOrg : old.orgId ∈ db.organizations) :
    (journalEntriesImmutability db (.update old new) = .ok () →
      LegalChange db old new ∧ FrozenColumns db old new) ↔
    ¬(old.status = .posted ∧ StornoUpdate old new ∧ UncomparedColumn old new) := by
  rw [journalEntriesImmutability_update hStatus hOrg]
  constructor
  · rintro hLegal ⟨hPosted, hStorno, hDiffers⟩
    have hChange := (hLegal (.inr ⟨hPosted, hStorno⟩)).1
    exact (hStorno.legalChange_iff hPosted).mp hChange hDiffers
  · rintro hNoHole (hAuthor | ⟨hPosted, hStorno⟩)
    · exact ⟨hAuthor.legalChange, hAuthor.legalChange.frozenColumns⟩
    · have hLegal : LegalChange db old new :=
        (hStorno.legalChange_iff hPosted).mpr fun hDiffers => hNoHole ⟨hPosted, hStorno, hDiffers⟩
      exact ⟨hLegal, hLegal.frozenColumns⟩

/-- One organisation with one user and no rows in the journal. -/
def emptyJournal : Db where
  organizations := [1]
  users := [7]
  accounts := systemChart
  counterparties := []
  entries := Table.empty
  lines := []

/-- An entry that user 7 posted for a run of an agent. -/
def agentEntry : EntryRow where
  id := 10
  orgId := 1
  entryDate := .firstOfMarch
  description := "Rent"
  status := .posted
  reversesEntryId := none
  createdByUserId := some 7
  createdByRunId := some 3
  createdAt := 100
  updatedAt := 100

theorem immutability_accepts_legal_storno :
    journalEntriesImmutability emptyJournal
        (.update agentEntry { agentEntry with status := .reversed, updatedAt := 200 }) = .ok () ∧
      LegalChange emptyJournal agentEntry { agentEntry with status := .reversed, updatedAt := 200 } ∧
      FrozenColumns emptyJournal agentEntry
        { agentEntry with status := .reversed, updatedAt := 200 } := by
  have hAccepted : journalEntriesImmutability emptyJournal
      (.update agentEntry { agentEntry with status := .reversed, updatedAt := 200 }) = .ok () := by
    decide
  refine ⟨hAccepted, (immutability_accepts_legal_iff (by decide) (by decide)).mpr ?_ hAccepted⟩
  rintro ⟨-, -, hDiffers⟩
  exact absurd hDiffers (by unfold UncomparedColumn; decide)

/-- The update that marks the entry reversed may also drop its author, its run and its creation
time, although the author is still there. -/
theorem immutability_accepts_rewritten_provenance :
    agentEntry.status = .posted ∧ agentEntry.orgId ∈ emptyJournal.organizations ∧
      journalEntriesImmutability emptyJournal (.update agentEntry { agentEntry with
        status := .reversed, createdByUserId := none, createdByRunId := none, createdAt := 999 })
        = .ok () ∧
      ¬LegalChange emptyJournal agentEntry { agentEntry with
        status := .reversed, createdByUserId := none, createdByRunId := none, createdAt := 999 } := by
  refine ⟨rfl, by decide, by decide, fun hLegal => ?_⟩
  have hCreated := hLegal.frozenColumns.createdAt
  exact absurd hCreated (by decide)

end CyberAccountant.Ledger
