import CyberAccountant.Docgen.TemplateRuns

/-! What becomes of a template after it has been published: the trigger keeps its contents while it is
published, and nothing keeps them once it is archived. -/

namespace CyberAccountant.Docgen

open CyberAccountant.Library CyberAccountant.Ledger

variable {J : Type}

/-- The blocks, the source and the schema of the rows are the same. -/
def SameColumns (row row' : DocumentTemplate J) : Prop :=
  row'.blocks = row.blocks ∧ row'.source = row.source ∧ row'.schema = row.schema

/-- What is written to the row of `id` while it is archived is what it holds. -/
def Admits.archivedKept (id : Uuid) : Admits J where
  edit row patch := row.id = id → row.status = .archived → SameColumns row patch
  save row updated := row.id = id → row.status = .archived → SameColumns row updated
  publish _ _ := True

/-- The id is in use, and its row, if it is there, is no draft and holds what `row` does. -/
def Settled (w : TemplateWorld J) (id : Uuid) (row : DocumentTemplate J) : Prop :=
  id ∈ w.drawn ∧ ∀ row', w.templateOf id = some row' → row'.status ≠ .draft ∧ SameColumns row row'

variable [DecidableEq J] {compile : J → Except BlockError (Compiled J)} {accepts : J → Bool}

theorem Settled.step {w w' : TemplateWorld J} {id : Uuid} {row : DocumentTemplate J}
    (h : Settled w id row) (hStep : TemplateStep compile accepts (.archivedKept id) w w') :
    Settled w' id row := by
  refine ⟨hStep.drawn_kept h.1, fun row' hRow => ?_⟩
  rcases hStep.row_change hRow with ⟨before, hBefore, hChange⟩ | ⟨_, _, _, _, _, _, -, -, -, -, hNew, -⟩
  · obtain ⟨hStatus, hSame⟩ := h.2 before hBefore
    have hKey : before.id = id := rowOf_key hBefore
    -- A row that is neither a draft nor published is archived, which is where the condition helps.
    have hArchived : before.status ≠ .published → before.status = .archived := by
      cases hIs : before.status with
      | draft => exact absurd hIs hStatus
      | published => exact fun hNe => absurd rfl hNe
      | archived => exact fun _ => rfl
    have hEdited : ∀ patch : DocumentTemplate J, SameColumns before patch →
        SameColumns row (before.edited patch) := fun patch hPatch =>
      ⟨hPatch.1.trans hSame.1, hPatch.2.1.trans hSame.2.1, hPatch.2.2.trans hSame.2.2⟩
    cases hChange with
    | same => exact ⟨hStatus, hSame⟩
    | patch n org blocks patch hCall hFree hAdmits =>
      exact ⟨hStatus, hEdited patch (hAdmits hKey (hArchived hFree))⟩
    | save n org updated hCall hFree hAdmits =>
      exact ⟨hStatus, hEdited updated (hAdmits hKey (hArchived hFree))⟩
    | archive => exact ⟨fun hDraft => (by cases hDraft), hSame⟩
    | publish => exact ⟨fun hDraft => (by cases hDraft), hSame⟩
  · exact absurd h.1 hNew

/-- A template that has been published keeps its blocks, its source and its schema, through whatever
statuses it passes, in every run that writes to it, once it is archived, only what it holds. -/
theorem published_immutable {w₀ w w' : TemplateWorld J} (hEmpty : Untemplated w₀)
    (hBefore : Run (TemplateStep compile accepts .anything) w₀ w) {id : Uuid} {row row' : DocumentTemplate J}
    (hRow : w.templateOf id = some row) (hPublished : row.status = .published)
    (hRun : Run (TemplateStep compile accepts (.archivedKept id)) w w')
    (hRow' : w'.templateOf id = some row') :
    row'.blocks = row.blocks ∧ row'.source = row.source ∧ row'.schema = row.schema := by
  have hIds : IdsDrawn w :=
    hBefore.invariant (fun _ _ h hStep => h.step hStep) (IdsDrawn.of_untemplated hEmpty)
  have hNow : Settled w id row := by
    refine ⟨hIds id row hRow, fun found hFound => ?_⟩
    rw [hRow] at hFound
    cases hFound
    exact ⟨fun hDraft => (by rw [hPublished] at hDraft; cases hDraft), rfl, rfl, rfl⟩
  have hLater : Settled w' id row := hRun.invariant (fun _ _ h hStep => Settled.step h hStep) hNow
  exact (hLater.2 row' hRow').2

/-! ### An act in one block -/

/-- Blocks of plain text, which compile to themselves. -/
def plainBlocks (text : String) : Except BlockError (Compiled String) := .ok ⟨text, text, text, text⟩

/-- The template of the act, with its text and its status. -/
def act (text : String) (status : TemplateStatus) : DocumentTemplate String :=
  ⟨1, some 7, "act", 1, .blocks, some text, text, text, text, some text, status, none⟩

def noTemplates : TemplateWorld String := ⟨[], [], [], [], Table.empty, 0, Table.empty, []⟩

/-- The act has been drafted, and its publication asked for. -/
def actRequested : TemplateWorld String where
  templates := [act "first" .draft]
  replica := [act "first" .draft]
  drawn := [1]
  publishJobs := [(7, 1)]
  calls := (Table.empty.put 0 (.requesting 7 1)).drop 0
  started := 1
  authored := Table.empty.put 1 "first"
  rendered := []

theorem run_actRequested {ok : Admits String} :
    Run (TemplateStep plainBlocks (fun _ => true) ok) noTemplates actRequested := by
  have hDrafted : Run (TemplateStep plainBlocks (fun _ => true) ok) noTemplates _ :=
    .single (.create noTemplates 1 7 "act" 1 "first" _ none _ rfl (by simp [noTemplates]) rfl)
  have hCopied := hDrafted.tail (.catchUp _)
  have hAsked := hCopied.tail (.readRequest _ 7 1 (act "first" .draft) rfl rfl)
  exact hAsked.tail (.enqueue _ 0 7 1 rfl)

theorem find_actRequested {row : DocumentTemplate String}
    (h : findTemplate [act "first" .draft] 7 1 = some row) : row = act "first" .draft :=
  (Option.some.inj h).symm

/-- The publish job has rendered the act and saved it. -/
def actSaved : TemplateWorld String :=
  { actRequested with
    calls := ((actRequested.calls.put 1 (.gating 7 1 (act "first" .draft))).put 1
      (.passed 7 1 (act "first" .draft))).put 1 (.saved 7 1 (act "first" .draft))
    started := 2
    rendered := [(1, 1, "first")] }

theorem run_actSaved {ok : Admits String} (hSave : ok.save (act "first" .draft) (act "first" .draft)) :
    Run (TemplateStep plainBlocks (fun _ => true) ok) noTemplates actSaved := by
  have hAsked : Run (TemplateStep plainBlocks (fun _ => true) ok) noTemplates _ := run_actRequested
  have hRead := hAsked.tail (.readJob _ 7 1 (act "first" .draft) _ List.mem_cons_self rfl rfl rfl rfl)
  have hRendered := hRead.tail (.render _ 1 7 1 _ rfl)
  exact hRendered.tail (.save _ 1 7 1 _ [act "first" .draft] rfl rfl
    (fun row h => by rw [find_actRequested h]; exact hSave) rfl)

/-- The act is published. -/
theorem act_published : ∃ w, Run (TemplateStep plainBlocks (fun _ => true) .anything) noTemplates w ∧
    w.templates = [act "first" .published] ∧ w.replica = [act "first" .draft] := by
  have hSaved : Run (TemplateStep plainBlocks (fun _ => true) .anything) noTemplates _ := run_actSaved trivial
  have hDone := hSaved.tail (.publish _ 1 7 1 _ _ rfl (fun _ _ => trivial) rfl)
  exact ⟨_, hDone, rfl, rfl⟩

/-- The published act is archived. -/
theorem act_archived {ok : Admits String} : ∃ w w', Run (TemplateStep plainBlocks (fun _ => true) .anything) noTemplates w ∧
    w.templateOf 1 = some (act "first" .published) ∧ Run (TemplateStep plainBlocks (fun _ => true) ok) w w' ∧
    w'.templates = [act "first" .archived] ∧ w'.replica = [act "first" .draft] := by
  obtain ⟨w, hRun, hTemplates, hReplica⟩ := act_published
  have hRow : w.templateOf 1 = some (act "first" .published) := by
    rw [TemplateWorld.templateOf, hTemplates]
    rfl
  have hFind : findTemplate w.replica 7 1 = some (act "first" .draft) := by
    rw [hReplica]
    rfl
  have hWrite : setTemplateStatus w.templates 7 1 .archived = .ok (some [act "first" .archived]) := by
    rw [hTemplates]
    rfl
  have hRead : Run (TemplateStep plainBlocks (fun _ => true) ok) w _ := .single (.readArchive w 7 1 _ hFind)
  have hArchived := hRead.tail (.archive _ w.started 7 1 _ (Table.put_same _ _ _) hWrite)
  exact ⟨w, _, hRun, hRow, hArchived, rfl, hReplica⟩

/-- Archived, it still holds what it did. -/
theorem published_immutable_act : ∃ w w' row',
    Run (TemplateStep plainBlocks (fun _ => true) .anything) noTemplates w ∧
    w.templateOf 1 = some (act "first" .published) ∧
    Run (TemplateStep plainBlocks (fun _ => true) (.archivedKept 1)) w w' ∧
    w'.templateOf 1 = some row' ∧ row'.status = .archived ∧
    row'.blocks = some "first" ∧ row'.source = "first" ∧ row'.schema = "first" := by
  obtain ⟨w, w', hRun, hRow, hArchived, hTemplates, -⟩ := @act_archived (.archivedKept 1)
  have hRow' : w'.templateOf 1 = some (act "first" .archived) := by
    rw [TemplateWorld.templateOf, hTemplates]
    rfl
  exact ⟨w, w', _, hRun, hRow, hArchived, hRow', rfl,
    published_immutable ⟨rfl, rfl, rfl⟩ hRun hRow rfl hArchived hRow'⟩

/-- Archived, it is edited like a draft. -/
theorem archived_edited : ∃ w w' row',
    Run (TemplateStep plainBlocks (fun _ => true) .anything) noTemplates w ∧
    w.templateOf 1 = some (act "first" .published) ∧
    Run (TemplateStep plainBlocks (fun _ => true) .anything) w w' ∧ w'.templateOf 1 = some row' ∧
    row'.blocks = some "second" ∧ row'.source = "second" ∧ row'.schema = "second" := by
  obtain ⟨w, w', hRun, hRow, hArchived, hTemplates, hReplica⟩ := @act_archived .anything
  have hFind : findTemplate w'.replica 7 1 = some (act "first" .draft) := by
    rw [hReplica]
    rfl
  have hWrite : updateDraft w'.templates 7 1 (act "second" .draft) = .ok (some [act "second" .archived]) := by
    rw [hTemplates]
    rfl
  have hFound := hArchived.tail (.readPatch _ 7 1 _ "second" _ hFind rfl)
  have hEdited := hFound.tail (.patch _ w'.started 7 1 "second" _ _ (Table.put_same _ _ _)
    (fun _ _ => trivial) hWrite)
  exact ⟨w, _, act "second" .archived, hRun, hRow, hEdited, rfl, rfl, rfl, rfl⟩

end CyberAccountant.Docgen
