import CyberAccountant.Ledger.Journal
import CyberAccountant.Library.Rows

/-! The table `document_templates` with its trigger, and the statements of its repository.  `J` is the
type of the JSON values of its columns, and what the blocks of a template compile to is a parameter. -/

namespace CyberAccountant.Docgen

open CyberAccountant.Library CyberAccountant.Ledger

inductive TemplateMode where
  | blocks
  | source
  deriving DecidableEq

inductive TemplateStatus where
  | draft
  | published
  | archived
  deriving DecidableEq

def TemplateStatus.text : TemplateStatus → String
  | .draft => "draft"
  | .published => "published"
  | .archived => "archived"

/-- A row of `document_templates`; a template without an organisation is one of the platform. -/
structure DocumentTemplate (J : Type) where
  id : Uuid
  orgId : Option Uuid
  slug : String
  version : Int
  mode : TemplateMode
  blocks : Option J
  source : String
  schema : J
  form : J
  expected : Option String
  status : TemplateStatus
  createdBy : Option Uuid
  deriving DecidableEq

/-- What the blocks of a template compile to. -/
structure Compiled (J : Type) where
  source : String
  schema : J
  form : J
  expected : String

/-- Why the blocks of a template do not compile. -/
structure BlockError where
  blockIndex : Nat
  code : String
  message : String

inductive TemplateError where
  | publishedDeleted
  | publishedChanged
  | uniqueViolation
  | checkViolation
  deriving DecidableEq

def TemplateError.message : TemplateError → String
  | .publishedDeleted => "published template versions are immutable (archive it instead)"
  | .publishedChanged => "published template versions are immutable (publish a new version instead)"
  | .uniqueViolation => "duplicate key value violates unique constraint"
  | .checkViolation => "new row violates check constraint"

section

variable {J : Type}

namespace DocumentTemplate

/-- The columns that `update_draft` writes. -/
def edited (row patch : DocumentTemplate J) : DocumentTemplate J :=
  { row with
    blocks := patch.blocks
    source := patch.source
    schema := patch.schema
    form := patch.form
    expected := patch.expected }

/-- The template with blocks and what they compile to. -/
def withBlocks (row : DocumentTemplate J) (blocks : J) (compiled : Compiled J) : DocumentTemplate J :=
  { row with
    blocks := some blocks
    source := compiled.source
    schema := compiled.schema
    form := compiled.form
    expected := some compiled.expected }

/-- The column check `ck_document_templates_blocks`. -/
def BlocksMatchMode (row : DocumentTemplate J) : Prop := row.mode = .blocks ↔ row.blocks.isSome

instance (row : DocumentTemplate J) : Decidable row.BlocksMatchMode :=
  inferInstanceAs (Decidable (_ ↔ _))

/-- The columns that `document_templates_immutability` compares; only the status may differ. -/
def SameContents (old new : DocumentTemplate J) : Prop :=
  new.id = old.id ∧ new.orgId = old.orgId ∧ new.slug = old.slug ∧ new.version = old.version ∧
    new.mode = old.mode ∧ new.blocks = old.blocks ∧ new.source = old.source ∧
    new.schema = old.schema ∧ new.form = old.form ∧ new.expected = old.expected

instance [DecidableEq J] (old new : DocumentTemplate J) : Decidable (SameContents old new) :=
  inferInstanceAs (Decidable (_ ∧ _))

end DocumentTemplate

/-- The row of `id` where it is one of the organisation. -/
def findTemplate (templates : List (DocumentTemplate J)) (org id : Uuid) : Option (DocumentTemplate J) :=
  (rowOf DocumentTemplate.id templates id).filter (·.orgId = some org)

/-- The order in which `resolve` takes the templates: those of the organisation before those of the
platform, and of each the highest version. -/
def DocumentTemplate.before (t t' : DocumentTemplate J) : Bool :=
  match t.orgId, t'.orgId with
  | some _, none => true
  | none, some _ => false
  | _, _ => decide (t'.version ≤ t.version)

/-- `resolve`: the template with which a document of the organisation is rendered, apart from those on
disk. -/
def resolve (templates : List (DocumentTemplate J)) (org : Uuid) (slug : String) :
    Option (DocumentTemplate J) :=
  let visible := templates.filter fun t =>
    t.slug = slug ∧ t.status = .published ∧ (t.orgId = some org ∨ t.orgId = none)
  visible.find? fun t => visible.all t.before

variable [DecidableEq J]

/-- `document_templates_immutability`, which runs before an update or a deletion of a row. -/
def documentTemplatesImmutability : RowOp (DocumentTemplate J) → Except TemplateError Unit
  | .insert _ => .ok ()
  | .delete old => if old.status = .published then .error .publishedDeleted else .ok ()
  | .update old new =>
    if old.status = .published then
      if new.status = .archived ∧ old.SameContents new then .ok () else .error .publishedChanged
    else .ok ()

/-- `create`. -/
def createTemplate (templates : List (DocumentTemplate J)) (draft : DocumentTemplate J) :
    Except TemplateError (List (DocumentTemplate J)) := do
  ensure (∀ t ∈ templates, ¬(t.id = draft.id)) .uniqueViolation
  ensure (∀ t ∈ templates, ¬(t.orgId = draft.orgId ∧ t.slug = draft.slug ∧ t.version = draft.version))
    .uniqueViolation
  ensure draft.BlocksMatchMode .checkViolation
  pure (templates ++ [draft])

/-- An update of one row by its id and organisation; `none` where there is no such row. -/
def updateTemplate (templates : List (DocumentTemplate J)) (org id : Uuid)
    (change : DocumentTemplate J → DocumentTemplate J) :
    Except TemplateError (Option (List (DocumentTemplate J))) :=
  match findTemplate templates org id with
  | none => .ok none
  | some old => do
    documentTemplatesImmutability (.update old (change old))
    ensure (change old).BlocksMatchMode .checkViolation
    pure (some (changeRow DocumentTemplate.id templates id change))

/-- `update_draft`. -/
def updateDraft (templates : List (DocumentTemplate J)) (org id : Uuid) (patch : DocumentTemplate J) :
    Except TemplateError (Option (List (DocumentTemplate J))) :=
  updateTemplate templates org id (·.edited patch)

/-- `set_status`. -/
def setTemplateStatus (templates : List (DocumentTemplate J)) (org id : Uuid) (status : TemplateStatus) :
    Except TemplateError (Option (List (DocumentTemplate J))) :=
  updateTemplate templates org id ({ · with status })

/-- The deletion of a row. -/
def deleteTemplate (templates : List (DocumentTemplate J)) (id : Uuid) :
    Except TemplateError (List (DocumentTemplate J)) :=
  match rowOf DocumentTemplate.id templates id with
  | none => .ok templates
  | some old => do
    documentTemplatesImmutability (.delete old)
    pure (templates.filter (·.id ≠ id))

/-! ### What the statements do -/

variable {templates templates' : List (DocumentTemplate J)} {org id : Uuid}

omit [DecidableEq J] in
theorem findTemplate_some {row : DocumentTemplate J} (h : findTemplate templates org id = some row) :
    rowOf DocumentTemplate.id templates id = some row ∧ row.orgId = some org := by
  obtain ⟨hRow, hOrg⟩ := Option.filter_eq_some_iff.mp h
  exact ⟨hRow, of_decide_eq_true hOrg⟩

omit [DecidableEq J] in
theorem createTemplate_ok {draft : DocumentTemplate J}
    (h : createTemplate templates draft = .ok templates') : (∀ t ∈ templates, t.id ≠ draft.id) ∧
      draft.BlocksMatchMode ∧ templates' = templates ++ [draft] := by
  simp only [createTemplate, bind_eq_ok, ensure_eq_ok, pure_eq_ok] at h
  obtain ⟨_, hNew, _, -, _, hCheck, rfl⟩ := h
  exact ⟨hNew, hCheck, rfl⟩

/-- An update finds its row, and the trigger lets it pass. -/
theorem updateTemplate_ok {change : DocumentTemplate J → DocumentTemplate J}
    (h : updateTemplate templates org id change = .ok (some templates')) :
    ∃ row, findTemplate templates org id = some row ∧
      (row.status = .published → (change row).status = .archived ∧ row.SameContents (change row)) ∧
      templates' = changeRow DocumentTemplate.id templates id change := by
  unfold updateTemplate at h
  cases hFind : findTemplate templates org id with
  | none =>
    rw [hFind] at h
    cases h
  | some row =>
    rw [hFind] at h
    simp only [bind_eq_ok, ensure_eq_ok, pure_eq_ok, Option.some.injEq] at h
    obtain ⟨_, hTrigger, _, -, rfl⟩ := h
    refine ⟨row, rfl, fun hPublished => ?_, rfl⟩
    simp only [documentTemplatesImmutability, hPublished, if_true] at hTrigger
    by_cases hLegal : (change row).status = .archived ∧ row.SameContents (change row)
    · exact hLegal
    · rw [if_neg hLegal] at hTrigger
      cases hTrigger

theorem deleteTemplate_ok (h : deleteTemplate templates id = .ok templates') :
    (∀ row, rowOf DocumentTemplate.id templates id = some row → row.status ≠ .published) ∧
      templates' = templates.filter (·.id ≠ id) := by
  unfold deleteTemplate at h
  cases hFind : rowOf DocumentTemplate.id templates id with
  | none =>
    rw [hFind] at h
    have hSame : templates.filter (·.id ≠ id) = templates := List.filter_eq_self.mpr fun t ht => by
      simpa using rowOf_eq_none.mp hFind t ht
    refine ⟨fun row hRow => (by cases hRow), ?_⟩
    rw [hSame]
    exact (Except.ok.inj h).symm
  | some old =>
    rw [hFind] at h
    simp only [bind_eq_ok, pure_eq_ok] at h
    obtain ⟨_, hTrigger, rfl⟩ := h
    refine ⟨fun row hRow hPublished => ?_, rfl⟩
    cases hRow
    rw [documentTemplatesImmutability, if_pos hPublished] at hTrigger
    cases hTrigger

end

end CyberAccountant.Docgen
