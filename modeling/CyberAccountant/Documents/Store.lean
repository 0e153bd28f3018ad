import CyberAccountant.Documents.Rows
import CyberAccountant.Library.Rows
import Mathlib.Data.List.MinMax

/-! The repository of documents: what each of its transactions reads and writes. -/

namespace CyberAccountant.Documents

open CyberAccountant.Library CyberAccountant.Ledger

/-- The tables that the repository works on, and the documents that an order or a tax filing refers to. -/
structure Tables (J : Type) where
  documents : Table Uuid DocumentRow
  versions : List (VersionRow J)
  links : List Link
  entries : Table Uuid EntryRow
  referenced : List Uuid

/-- A document with the version that it points to, as `find_in_org` joins them. -/
structure Document (J : Type) extends DocumentRow where
  current : Option (VersionRow J)

inductive VersionRenderState where
  | missing
  | renderable
  | alreadyRendered
  | superseded
  | voided
  deriving DecidableEq

inductive DeleteOutcome where
  | deleted
  | notFound
  | hasPostedEntries
  | referenced
  | voided
  deriving DecidableEq

/-- What `set_version_file` records. -/
structure StoredFile where
  s3Key : String
  checksumSha256 : String
  mime : String
  sizeBytes : Nat
  renderEngine : Option String
  deriving DecidableEq

/-- What `create` inserts besides the organisation. -/
structure NewDocument (J : Type) where
  id : Uuid
  versionId : Uuid
  source : DocumentSource
  status : DocumentStatus
  templateSlug : Option String
  templateVersion : Option String
  inputSnapshot : Option J

variable {J : Type}

/-- A document that points to no version. -/
def NewDocument.row (d : NewDocument J) (org : Uuid) : DocumentRow :=
  ⟨org, d.source, d.status, d.templateSlug, none, none⟩

/-- A version without a file. -/
def VersionRow.blank (id org document : Uuid) (versionNo : Nat) (templateVersion : Option String)
    (inputSnapshot : Option J) : VersionRow J where
  id := id
  orgId := org
  documentId := document
  versionNo := versionNo
  s3Key := none
  checksumSha256 := none
  mime := none
  sizeBytes := none
  templateVersion := templateVersion
  renderEngine := none
  inputSnapshot := inputSnapshot

def VersionRow.pending (s3Key mime : String) (v : VersionRow J) : VersionRow J :=
  { v with s3Key := some s3Key, mime := some mime }

def VersionRow.filed (file : StoredFile) (v : VersionRow J) : VersionRow J :=
  { v with
    s3Key := some file.s3Key
    checksumSha256 := some file.checksumSha256
    mime := some file.mime
    sizeBytes := some file.sizeBytes
    renderEngine := file.renderEngine.or v.renderEngine }

namespace Tables

/-! ### Reads -/

def versionsOf (t : Tables J) (document : Uuid) : List (VersionRow J) := t.versions.filter (·.documentId = document)

/-- `COALESCE(MAX(version_no), 0)` of a document. -/
def maxVersionNo (t : Tables J) (document : Uuid) : Nat :=
  ((t.versionsOf document).map VersionRow.versionNo).foldr max 0

def findInOrg (t : Tables J) (id org : Uuid) : Option (Document J) :=
  ((t.documents id).filter (·.orgId = org)).map fun row =>
    { toDocumentRow := row, current := row.currentVersionId.bind (rowOf VersionRow.id t.versions) }

def latestVersion (t : Tables J) (org document : Uuid) : Option (VersionRow J) :=
  ((t.versionsOf document).filter (·.orgId = org)).argmax VersionRow.versionNo

def versionRenderState (t : Tables J) (org document version : Uuid) : VersionRenderState :=
  match (rowOf VersionRow.id t.versions version).filter (fun v => v.documentId = document ∧ v.orgId = org),
    t.documents document with
  | some v, some row =>
    if row.voided.isSome then .voided
    else if v.versionNo ≠ t.maxVersionNo document then .superseded
    else if v.s3Key.isSome then .alreadyRendered
    else .renderable
  | _, _ => .missing

/-- `posted_link_exists` and its twin that locks. -/
def postedLinkExists (t : Tables J) (org document : Uuid) : Bool :=
  t.links.any fun l => l.documentId = document && l.orgId = org &&
    (t.entries l.entryId).any fun row => row.status = .posted || row.status = .reversed

/-! ### Transactions; `none` where no row satisfies the condition -/

/-- `UPDATE documents SET … WHERE id AND org_id AND …`. -/
def updateDocument (t : Tables J) (org id : Uuid) (condition : DocumentRow → Bool) (f : DocumentRow → DocumentRow) :
    Option (Tables J) :=
  ((t.documents id).filter fun row => row.orgId = org && condition row).map fun row =>
    { t with documents := t.documents.put id (f row) }

/-- The document and its version 1, in one transaction. -/
def create (t : Tables J) (org : Uuid) (d : NewDocument J) : Tables J :=
  { t with
    documents := t.documents.put d.id (d.row org)
    versions := t.versions ++ [.blank d.versionId org d.id 1 d.templateVersion d.inputSnapshot] }

/-- The key of an upload goes into the newest version, which becomes the current one. -/
def setPendingUpload (t : Tables J) (org id : Uuid) (s3Key mime : String) : Option (Tables J) := do
  let row ← (t.documents id).filter fun row => row.orgId = org ∧ row.status = .draft
  let v ← t.versions.find? fun v => v.documentId = id ∧ v.orgId = row.orgId ∧ v.versionNo = t.maxVersionNo id
  pure { t with
    versions := changeRow VersionRow.id t.versions v.id (.pending s3Key mime)
    documents := t.documents.put id { row with currentVersionId := some v.id } }

def addVersion (t : Tables J) (org document versionId : Uuid) (inputSnapshot : Option J)
    (templateVersion : Option String) : Option (VersionRow J × Tables J) := do
  let row ← (t.documents document).filter (·.orgId = org)
  let v := VersionRow.blank versionId row.orgId document (t.maxVersionNo document + 1) templateVersion inputSnapshot
  pure (v, { t with versions := t.versions ++ [v] })

def setVersionFile (t : Tables J) (org version : Uuid) (file : StoredFile) : Option (Tables J) := do
  let _ ← (rowOf VersionRow.id t.versions version).filter (·.orgId = org)
  pure { t with versions := changeRow VersionRow.id t.versions version (.filed file) }

/-- The version becomes the current one while it is the document's newest. -/
def setCurrentVersion (t : Tables J) (org document version : Uuid) : Option (Tables J) := do
  let _ ← (rowOf VersionRow.id t.versions version).filter fun v =>
    v.orgId = org ∧ v.documentId = document ∧ v.versionNo = t.maxVersionNo document
  t.updateDocument org document (fun _ => true) fun row => { row with currentVersionId := some version }

def setStatus (t : Tables J) (org id : Uuid) (status : DocumentStatus) : Option (Tables J) :=
  t.updateDocument org id (fun _ => true) fun row => { row with status }

def setStatusIf (t : Tables J) (org id : Uuid) (source target : DocumentStatus) : Option (Tables J) :=
  t.updateDocument org id (·.status = source) fun row => { row with status := target }

/-- `none` where a foreign key or the unique key rejects the row. -/
def linkEntry (t : Tables J) (org document entry : Uuid) : Option (Tables J) := do
  let _ ← (t.documents document).filter (·.orgId = org)
  let _ ← (t.entries entry).filter (·.orgId = org)
  if t.links.any fun l => l.documentId = document && l.entryId = entry then none
  else pure { t with links := ⟨org, document, entry⟩ :: t.links }

/-- `DELETE FROM documents` with its cascades. -/
def deleteDocument (t : Tables J) (document : Uuid) : Tables J :=
  { t with
    documents := t.documents.drop document
    versions := t.versions.filter (·.documentId ≠ document)
    links := t.links.filter (·.documentId ≠ document) }

def remove (t : Tables J) (org document : Uuid) : DeleteOutcome × Tables J :=
  match (t.documents document).filter (·.orgId = org) with
  | none => (.notFound, t)
  | some row =>
    if row.voided.isSome then (.voided, t)
    else if t.postedLinkExists org document then (.hasPostedEntries, t)
    else if document ∈ t.referenced then (.referenced, t)
    else (.deleted, t.deleteDocument document)

def voidDocument (t : Tables J) (org id : Uuid) (voiding : Voiding) : Option (Tables J) :=
  t.updateDocument org id (·.voided.isNone) fun row => { row with voided := some voiding }

/-! ### What the transactions do -/

variable {t t' : Tables J} {org id document version versionId : Uuid}

theorem mem_versionsOf {v : VersionRow J} : v ∈ t.versionsOf id ↔ v ∈ t.versions ∧ v.documentId = id := by
  simp [versionsOf]

theorem le_maxVersionNo {v : VersionRow J} (h : v ∈ t.versions) : v.versionNo ≤ t.maxVersionNo v.documentId :=
  List.le_max_of_le' 0 (List.mem_map_of_mem (mem_versionsOf.mpr ⟨h, rfl⟩)) (Nat.le_refl _)

theorem findInOrg_some {found : Document J} (h : t.findInOrg id org = some found) :
    t.documents id = some found.toDocumentRow := by
  obtain ⟨row, hRow, rfl⟩ := Option.map_eq_some_iff.mp h
  exact (Option.filter_eq_some_iff.mp hRow).1

theorem latestVersion_some {v : VersionRow J} (h : t.latestVersion org document = some v) :
    v ∈ t.versions ∧ v.documentId = document := by
  have hMem := List.argmax_mem h
  exact mem_versionsOf.mp (List.mem_filter.mp hMem).1

theorem updateDocument_some {condition : DocumentRow → Bool} {f : DocumentRow → DocumentRow}
    (h : t.updateDocument org id condition f = some t') :
    ∃ row, t.documents id = some row ∧ row.orgId = org ∧ condition row = true ∧
      t' = { t with documents := t.documents.put id (f row) } := by
  simp only [updateDocument, Option.map_eq_some_iff, Option.filter_eq_some_iff, Bool.and_eq_true,
    decide_eq_true_eq] at h
  obtain ⟨row, ⟨hRow, hOrg, hCondition⟩, rfl⟩ := h
  exact ⟨row, hRow, hOrg, hCondition, rfl⟩

theorem setPendingUpload_some {s3Key mime : String} (h : t.setPendingUpload org id s3Key mime = some t') :
    ∃ row v, t.documents id = some row ∧ row.orgId = org ∧ row.status = .draft ∧ v ∈ t.versions ∧
      v.documentId = id ∧ v.versionNo = t.maxVersionNo id ∧
      t' = { t with
        versions := changeRow VersionRow.id t.versions v.id (.pending s3Key mime)
        documents := t.documents.put id { row with currentVersionId := some v.id } } := by
  simp only [setPendingUpload, Option.bind_eq_bind, Option.bind_eq_some_iff, Option.filter_eq_some_iff,
    decide_eq_true_eq, Option.pure_def, Option.some.injEq] at h
  obtain ⟨row, ⟨hRow, hOrg, hDraft⟩, v, hFound, rfl⟩ := h
  have hIs := List.find?_some hFound
  obtain ⟨hDocument, -, hNewest⟩ := of_decide_eq_true hIs
  exact ⟨row, v, hRow, hOrg, hDraft, List.mem_of_find?_eq_some hFound, hDocument, hNewest, rfl⟩

theorem addVersion_some {inputSnapshot : Option J} {templateVersion : Option String} {v : VersionRow J}
    (h : t.addVersion org document versionId inputSnapshot templateVersion = some (v, t')) :
    ∃ row, t.documents document = some row ∧ row.orgId = org ∧
      v = .blank versionId row.orgId document (t.maxVersionNo document + 1) templateVersion inputSnapshot ∧
      t' = { t with versions := t.versions ++ [v] } := by
  simp only [addVersion, Option.bind_eq_bind, Option.bind_eq_some_iff, Option.filter_eq_some_iff,
    decide_eq_true_eq, Option.pure_def, Option.some.injEq, Prod.mk.injEq] at h
  obtain ⟨row, ⟨hRow, hOrg⟩, rfl, rfl⟩ := h
  exact ⟨row, hRow, hOrg, rfl, rfl⟩

theorem setVersionFile_some {file : StoredFile} (h : t.setVersionFile org version file = some t') :
    ∃ v ∈ t.versions, v.id = version ∧ v.orgId = org ∧
      t' = { t with versions := changeRow VersionRow.id t.versions version (.filed file) } := by
  simp only [setVersionFile, Option.bind_eq_bind, Option.bind_eq_some_iff, Option.filter_eq_some_iff,
    decide_eq_true_eq, Option.pure_def, Option.some.injEq] at h
  obtain ⟨v, ⟨hFound, hOrg⟩, rfl⟩ := h
  exact ⟨v, rowOf_mem hFound, rowOf_key hFound, hOrg, rfl⟩

theorem setCurrentVersion_some (h : t.setCurrentVersion org document version = some t') :
    ∃ row v, t.documents document = some row ∧ row.orgId = org ∧ v ∈ t.versions ∧ v.id = version ∧
      v.documentId = document ∧ v.versionNo = t.maxVersionNo document ∧
      t' = { t with documents := t.documents.put document { row with currentVersionId := some version } } := by
  simp only [setCurrentVersion, Option.bind_eq_bind, Option.bind_eq_some_iff, Option.filter_eq_some_iff,
    decide_eq_true_eq] at h
  obtain ⟨v, ⟨hFound, -, hDocument, hNewest⟩, hUpdate⟩ := h
  obtain ⟨row, hRow, hOrg, -, rfl⟩ := updateDocument_some hUpdate
  exact ⟨row, v, hRow, hOrg, rowOf_mem hFound, rowOf_key hFound, hDocument, hNewest, rfl⟩

theorem linkEntry_some {entry : Uuid} (h : t.linkEntry org document entry = some t') :
    t' = { t with links := ⟨org, document, entry⟩ :: t.links } := by
  simp only [linkEntry, Option.bind_eq_bind, Option.bind_eq_some_iff] at h
  obtain ⟨_, -, _, -, h⟩ := h
  split at h
  · cases h
  · exact (Option.some.inj h).symm

theorem remove_eq (t : Tables J) (org document : Uuid) : (t.remove org document).2 = t ∨ ∃ row, t.documents document = some row ∧ row.voided = none ∧
    (t.remove org document).2 = t.deleteDocument document := by
  unfold remove
  cases hFound : (t.documents document).filter (·.orgId = org) with
  | none => exact .inl rfl
  | some row =>
    obtain ⟨hRow, -⟩ := Option.filter_eq_some_iff.mp hFound
    dsimp only
    by_cases hVoided : row.voided.isSome
    · exact .inl (by rw [if_pos hVoided])
    · rw [if_neg hVoided]
      split
      · exact .inl rfl
      · split
        · exact .inl rfl
        · exact .inr ⟨row, hRow, by simpa using hVoided, rfl⟩

end Tables

end CyberAccountant.Documents
