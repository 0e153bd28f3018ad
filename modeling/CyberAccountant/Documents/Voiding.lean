import CyberAccountant.Documents.Integrity

/-! Voided documents.  Neither the statements that write versions nor those that write the status and the
pointer look at `voided_at`; a document stays as it was voided while none of them is called on it any
more. -/

namespace CyberAccountant.Documents

open CyberAccountant.Library CyberAccountant.Ledger

variable {J : Type}

def Tables.Live (t : Tables J) (document : Uuid) : Prop := ∀ row, t.documents document = some row → row.voided = none

/-- A statement that writes the document's status or pointer, or one of its versions, comes before the
document is voided. -/
def WritesLive (document : Uuid) : DocumentCommand J → Store J → Prop
  | .setPendingUpload _ id _ _, s | .addVersion _ id _ _ _, s | .setCurrentVersion _ id _, s
  | .setStatus _ id _, s | .setStatusIf _ id _ _, s => id = document → s.tables.Live document
  | .setVersionFile _ version _, s =>
    (∃ v ∈ s.tables.versions, v.id = version ∧ v.documentId = document) → s.tables.Live document
  | _, _ => True

/-- The document's row and its versions are the same. -/
structure SameDocument (document : Uuid) (t t' : Tables J) : Prop where
  row : t'.documents document = t.documents document
  versions : t'.versionsOf document = t.versionsOf document

namespace SameDocument

variable {document : Uuid} {t t' : Tables J}

theorem refl (document : Uuid) (t : Tables J) : SameDocument document t t := ⟨rfl, rfl⟩

theorem trans {t'' : Tables J} (hFirst : SameDocument document t t') (hRest : SameDocument document t' t'') :
    SameDocument document t t'' :=
  ⟨hRest.row.trans hFirst.row, hRest.versions.trans hFirst.versions⟩

theorem putDocument {id : Uuid} {row : DocumentRow} (hNe : document ≠ id) :
    SameDocument document t { t with documents := t.documents.put id row } :=
  ⟨Table.put_ne hNe, rfl⟩

theorem append {v : VersionRow J} (hNe : v.documentId ≠ document) :
    SameDocument document t { t with versions := t.versions ++ [v] } := by
  refine ⟨rfl, ?_⟩
  simp [Tables.versionsOf, hNe]

theorem changeVersion {version : Uuid} {f : VersionRow J → VersionRow J}
    (hf : ∀ v, (f v).documentId = v.documentId)
    (hOther : ∀ v ∈ t.versions, v.id = version → v.documentId ≠ document) :
    SameDocument document t { t with versions := changeRow VersionRow.id t.versions version f } := by
  refine ⟨rfl, ?_⟩
  have hKey : ∀ v, (if VersionRow.id v = version then f v else v).documentId = v.documentId := by
    intro v
    split
    · exact hf v
    · rfl
  have hSame : ∀ v ∈ t.versions.filter (·.documentId = document), (if v.id = version then f v else v) = v := by
    intro v hv
    obtain ⟨hv, hMine⟩ := List.mem_filter.mp hv
    rw [if_neg]
    exact fun hId => hOther v hv hId (of_decide_eq_true hMine)
  calc (changeRow VersionRow.id t.versions version f).filter (·.documentId = document)
      = (t.versions.filter (·.documentId = document)).map fun v => if v.id = version then f v else v := by
        simp only [changeRow, List.filter_map, Function.comp_def, hKey]
    _ = t.versions.filter (·.documentId = document) := by
        rw [List.map_congr_left hSame, List.map_id']

theorem deleteDocument {id : Uuid} (hNe : id ≠ document) : SameDocument document t (t.deleteDocument id) := by
  refine ⟨Table.drop_ne hNe.symm, ?_⟩
  simp only [Tables.versionsOf, Tables.deleteDocument, List.filter_filter]
  refine List.filter_congr fun v _ => ?_
  by_cases hMine : v.documentId = document
  · simp [hMine, hNe.symm]
  · simp [hMine]

end SameDocument

section

variable {document : Uuid} {s : Store J} {row : DocumentRow}

/-- A command that writes live documents leaves a voided one alone. -/
theorem Effect.sameDocument {c : DocumentCommand J} {s' : Store J} (hEffect : Effect s c s') (hOk : s.Ok)
    (hRow : s.tables.documents document = some row) (hVoided : row.voided.isSome) (hLive : WritesLive document c s) :
    SameDocument document s.tables s'.tables := by
  have hNotLive : ¬ s.tables.Live document := by
    intro hAlive
    rw [hAlive row hRow] at hVoided
    cases hVoided
  have hNe : ∀ {id}, (id = document → s.tables.Live document) → document ≠ id := fun h hEq => hNotLive (h hEq.symm)
  have hVoidedIs : ∀ {id found}, s.tables.documents id = some found → found.voided = none → document ≠ id := by
    rintro id found hFound hNone rfl
    obtain rfl := Option.some.inj (hRow.symm.trans hFound)
    rw [hNone] at hVoided
    cases hVoided
  cases hEffect with
  | nothing | putObject | submit => exact .refl document s.tables
  | create org d hNew hNewVersion =>
    have hOther : document ≠ d.id := by
      rintro rfl
      exact hNew (hOk.documentKnown d.id row hRow)
    exact (SameDocument.putDocument hOther).trans (.append hOther.symm)
  | setPendingUpload org id s3Key mime found v hFound hVersion hDocument hNewest =>
    have hOther := hNe hLive
    have hVersions : ∀ v' ∈ s.tables.versions, v'.id = v.id → v'.documentId ≠ document := by
      intro v' hv' hId
      rw [hOk.versionIds v' hv' v hVersion hId, hDocument]
      exact hOther.symm
    exact (SameDocument.putDocument hOther).trans (.changeVersion (fun _ => rfl) hVersions)
  | addVersion org id versionId inputSnapshot templateVersion found v hFound hNew hBlank =>
    apply SameDocument.append
    rw [hBlank]
    exact (hNe hLive).symm
  | setVersionFile org version file =>
    exact .changeVersion (fun _ => rfl) fun v hv hId hMine => hNotLive (hLive ⟨v, hv, hId, hMine⟩)
  | setCurrentVersion | setStatus | setStatusIf => exact .putDocument (hNe hLive)
  | linkEntry => exact ⟨rfl, rfl⟩
  | remove org id found hFound hNone => exact .deleteDocument (hVoidedIs hFound hNone).symm
  | voidDocument org id voiding found hFound hNone => exact .putDocument (hVoidedIs hFound hNone)

end

def scanKey : String := "org/1/inbox/5-scan.pdf"

def scanStarted : DocumentSystem String :=
  ran sha256OfNothing noDocuments 0 (.startUpload 1 10 11 scanKey "application/pdf" "scan.pdf") 3

/-- The scan has been uploaded, and the replica has caught up. -/
def scanUploaded : DocumentSystem String :=
  { scanStarted with state :=
    { scanStarted.state with
      replica := scanStarted.state.tables, objects := scanStarted.state.objects.put scanKey .empty } }

def scanVoided : DocumentSystem String := ran sha256OfNothing scanUploaded 1 (.voidDocument 1 10 ⟨50, 7, "wrong scan"⟩) 3

theorem scanVoided_run : Run (DocumentStep sha256OfNothing Always) noDocuments scanVoided := by
  have hStarted : Run (DocumentStep sha256OfNothing Always) noDocuments scanStarted := ran_run 3 rfl
  have hReplicated := hStarted.tail (.env _ _ .replicate)
  have hUploaded : Run (DocumentStep sha256OfNothing Always) noDocuments scanUploaded :=
    hReplicated.tail (.env _ _ (.upload scanKey .empty List.mem_cons_self))
  exact hUploaded.trans (ran_run 3 rfl)

def voidedScan : DocumentRow := ⟨1, .uploaded, .draft, none, some 11, some ⟨50, 7, "wrong scan"⟩⟩

def actGenerated : DocumentSystem String :=
  ran sha256OfNothing noDocuments 0 (.generate 1 10 11 "act" "v1" "input" none) 3

/-- A render of the act has checked its version's state. -/
def actRendering : DocumentSystem String :=
  ran sha256OfNothing actGenerated 1 (.processJob ⟨1, 10, some 11, "act", "input"⟩ .empty "typst") 1

/-- Then the act is voided. -/
def actVoided : DocumentSystem String :=
  ran sha256OfNothing { actRendering with state := { actRendering.state with replica := actRendering.state.tables } } 2
    (.voidDocument 1 10 ⟨50, 7, "wrong act"⟩) 3

theorem actVoided_run : Run (DocumentStep sha256OfNothing Always) noDocuments actVoided := by
  have hGenerated : Run (DocumentStep sha256OfNothing Always) noDocuments actGenerated := ran_run 3 rfl
  have hRendering : Run (DocumentStep sha256OfNothing Always) noDocuments actRendering :=
    hGenerated.trans (ran_run 1 rfl)
  exact (hRendering.tail (.env _ _ .replicate)).trans (ran_run 3 rfl)

end CyberAccountant.Documents
