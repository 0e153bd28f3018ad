import CyberAccountant.Docgen.Immutability

/-! The gate before publication.  The rows hold what their blocks compile to whatever happens; that the
published source is the one that was rendered, that no edit is lost and that no archived template is
published holds where the writes of the publish job find what it read and wrote. -/

namespace CyberAccountant.Docgen

open CyberAccountant.Library CyberAccountant.Ledger

variable {J : Type}

/-- The save of a publish job finds the blocks that the job has read, and its change of the status finds
the source that the job has rendered, not archived. -/
def Admits.undisturbed : Admits J where
  edit _ _ := True
  save row updated := row.blocks = updated.blocks
  publish row updated := row.status ≠ .archived ∧ row.source = updated.source

section

variable (compile : J → Except BlockError (Compiled J))

/-- The template is one of blocks, and its source and its schema are what they compile to. -/
def CompiledFrom (row : DocumentTemplate J) : Prop :=
  row.mode = .blocks ∧ ∃ blocks compiled, row.blocks = some blocks ∧ compile blocks = .ok compiled ∧
    row.source = compiled.source ∧ row.schema = compiled.schema

/-- What holds of a call that is under way. -/
def GateCallOk (w : TemplateWorld J) (n : Nat) : TemplateCall J → Prop
  | .patching _ _ blocks patch => CompiledFrom compile patch ∧ patch.blocks = some blocks
  | .gating _ _ updated => CompiledFrom compile updated
  | .passed _ id updated | .saved _ id updated =>
    CompiledFrom compile updated ∧ (n, id, updated.source) ∈ w.rendered
  | _ => True

/-- Every row, also of the replica, is what its blocks compile to, and has the blocks of its last
author. -/
structure GateOk (w : TemplateWorld J) : Prop where
  rows : ∀ id row, w.templateOf id = some row → CompiledFrom compile row ∧ row.blocks = w.authored id
  replica : ∀ id row, rowOf DocumentTemplate.id w.replica id = some row → CompiledFrom compile row
  calls : ∀ n call, w.calls n = some call → GateCallOk compile w n call

variable {compile}

theorem CompiledFrom.edited {row patch : DocumentTemplate J} (hRow : CompiledFrom compile row)
    (hPatch : CompiledFrom compile patch) : CompiledFrom compile (row.edited patch) := ⟨hRow.1, hPatch.2⟩

/-- What the publish job makes of a row of blocks. -/
theorem CompiledFrom.of_recompiled {tpl updated : DocumentTemplate J} (hTpl : tpl.mode = .blocks)
    (h : recompiled compile tpl = some updated) : CompiledFrom compile updated := by
  unfold recompiled at h
  rw [hTpl] at h
  cases hBlocks : tpl.blocks with
  | none =>
    rw [hBlocks] at h
    cases h
  | some blocks =>
    rw [hBlocks] at h
    obtain ⟨compiled, hCompiled, rfl⟩ := Option.map_eq_some_iff.mp h
    cases hCompile : compile blocks with
    | error e =>
      rw [hCompile] at hCompiled
      cases hCompiled
    | ok found =>
      rw [hCompile] at hCompiled
      cases hCompiled
      exact ⟨hTpl, blocks, compiled, rfl, hCompile, rfl, rfl⟩

/-- More renders leave what is known of a call. -/
theorem GateCallOk.mono {w w' : TemplateWorld J} {n : Nat} {call : TemplateCall J}
    (hRendered : ∀ r ∈ w.rendered, r ∈ w'.rendered) (h : GateCallOk compile w n call) :
    GateCallOk compile w' n call := by
  cases call with
  | patching | archiving | requesting | gating => exact h
  | passed | saved => exact ⟨h.1, hRendered _ h.2⟩

variable [DecidableEq J] {accepts : J → Bool} {w w' : TemplateWorld J}

theorem GateOk.rows_step (hOk : GateOk compile w)
    (hStep : TemplateStep compile accepts .undisturbed w w') {id : Uuid} {row' : DocumentTemplate J}
    (hRow : w'.templateOf id = some row') : CompiledFrom compile row' ∧ row'.blocks = w'.authored id := by
  rcases hStep.row_change hRow with ⟨row, hBefore, hChange⟩ |
    ⟨org, slug, version, blocks, compiled, user, hCompile, rfl, hAuthored, -⟩
  · obtain ⟨hCompiled, hBlocks⟩ := hOk.rows id row hBefore
    cases hChange with
    | same hAuthored | archive hAuthored => exact ⟨hCompiled, hBlocks.trans hAuthored.symm⟩
    | patch n org blocks patch hCall hFree hAdmits hAuthored =>
      obtain ⟨hPatch, hNew⟩ := hOk.calls n _ hCall
      exact ⟨hCompiled.edited hPatch, hNew.trans hAuthored.symm⟩
    | save n org updated hCall hFree hAdmits hAuthored =>
      have hUpdated : CompiledFrom compile updated := (hOk.calls n _ hCall).1
      have hSame : row.blocks = updated.blocks := hAdmits
      exact ⟨hCompiled.edited hUpdated, (hSame.symm.trans hBlocks).trans hAuthored.symm⟩
    | publish n org updated hCall hEnds hFree hAdmits hAuthored =>
      exact ⟨hCompiled, hBlocks.trans hAuthored.symm⟩
  · exact ⟨⟨rfl, blocks, compiled, rfl, hCompile, rfl, rfl⟩, hAuthored.symm⟩

theorem GateOk.calls_step (hOk : GateOk compile w)
    (hStep : TemplateStep compile accepts .undisturbed w w') :
    ∀ n call, w'.calls n = some call → GateCallOk compile w' n call := by
  -- A call that begins or goes on, the others being left as they are.
  have hPut : ∀ {n : Nat} {call : TemplateCall J}, GateCallOk compile w n call → ∀ n' call',
      w.calls.put n call n' = some call' → GateCallOk compile w n' call' := by
    intro n call hCall n' call' h
    rcases Table.put_eq_some.mp h with ⟨rfl, rfl⟩ | ⟨-, h⟩
    · exact hCall
    · exact hOk.calls n' call' h
  have hDrop : ∀ {n : Nat} n' call', w.calls.drop n n' = some call' → GateCallOk compile w n' call' :=
    fun n' call' h => hOk.calls n' call' (Table.drop_eq_some.mp h).2
  cases hStep with
  | create | delete | catchUp =>
    exact fun n call h => (hOk.calls n call h).mono fun _ hr => hr
  | patch | archive | enqueue | publish | abandon =>
    exact fun n call h => (hDrop n call h).mono fun _ hr => hr
  | readArchive org id =>
    have hNew : GateCallOk compile w w.started (.archiving org id) := trivial
    exact fun n call h => (hPut hNew n call h).mono fun _ hr => hr
  | readRequest org id =>
    have hNew : GateCallOk compile w w.started (.requesting org id) := trivial
    exact fun n call h => (hPut hNew n call h).mono fun _ hr => hr
  | readPatch org id current blocks compiled hFind hCompile =>
    have hMode := (hOk.replica id current (findTemplate_some hFind).1).1
    have hPatch : GateCallOk compile w w.started (.patching org id blocks (current.withBlocks blocks compiled)) :=
      ⟨⟨hMode, blocks, compiled, rfl, hCompile, rfl, rfl⟩, rfl⟩
    exact fun n call h => (hPut hPatch n call h).mono fun _ hr => hr
  | readJob org id tpl updated hQueued hFind hDraft hCompiled hAccepts =>
    have hMode := (hOk.replica id tpl (findTemplate_some hFind).1).1
    have hGate : GateCallOk compile w w.started (.gating org id updated) := .of_recompiled hMode hCompiled
    exact fun n call h => (hPut hGate n call h).mono fun _ hr => hr
  | render n org id updated hCall =>
    intro n' call' h
    rcases Table.put_eq_some.mp h with ⟨rfl, rfl⟩ | ⟨-, h⟩
    · exact ⟨hOk.calls _ _ hCall, List.mem_cons_self⟩
    · exact (hOk.calls n' call' h).mono fun _ hr => List.mem_cons_of_mem _ hr
  | save n org id updated templates hCall hMode hAdmits hWrite =>
    have hPassed : GateCallOk compile w n (.passed org id updated) := hOk.calls n _ hCall
    have hSaved : GateCallOk compile w n (.saved org id updated) := hPassed
    exact fun n' call h => (hPut hSaved n' call h).mono fun _ hr => hr
  | skipSave n org id updated hCall hMode =>
    have hPassed : GateCallOk compile w n (.passed org id updated) := hOk.calls n _ hCall
    have hSaved : GateCallOk compile w n (.saved org id updated) := hPassed
    exact fun n' call h => (hPut hSaved n' call h).mono fun _ hr => hr

theorem GateOk.step (hOk : GateOk compile w)
    (hStep : TemplateStep compile accepts .undisturbed w w') : GateOk compile w' := by
  refine ⟨fun id row' hRow => hOk.rows_step hStep hRow, ?_, hOk.calls_step hStep⟩
  cases hStep with
  | catchUp => exact fun id row hRow => (hOk.rows id row hRow).1
  | _ => exact hOk.replica

/-- Whenever a row becomes published it was not archived, its source and its schema are what the blocks
that it holds compile to, these are the blocks of its author's last write, and the publish job that sets
the status has rendered that source: in every run in which the writes of publish jobs find what the
jobs have read and rendered. -/
theorem publish_gate {w₀ w w' : TemplateWorld J} (hEmpty : Untemplated w₀)
    (hRun : Run (TemplateStep compile accepts .undisturbed) w₀ w)
    (hStep : TemplateStep compile accepts .undisturbed w w') {id : Uuid} {row' : DocumentTemplate J}
    (hRow : w'.templateOf id = some row') (hPublished : row'.status = .published)
    (hBefore : ∀ row, w.templateOf id = some row → row.status ≠ .published) :
    ∃ row, w.templateOf id = some row ∧ row.status = .draft ∧
      (∃ blocks compiled, row'.blocks = some blocks ∧ compile blocks = .ok compiled ∧
        row'.source = compiled.source ∧ row'.schema = compiled.schema ∧ w'.authored id = some blocks) ∧
      ∃ n org updated, w.calls n = some (.saved org id updated) ∧ w'.calls n = none ∧
        (n, id, row'.source) ∈ w.rendered := by
  have hStart : GateOk compile w₀ := by
    refine ⟨fun id row h => ?_, fun id row h => ?_, fun n call h => ?_⟩
    · rw [TemplateWorld.templateOf, hEmpty.templates] at h
      cases h
    · rw [hEmpty.replica] at h
      cases h
    · rw [hEmpty.calls] at h
      cases h
  have hOk : GateOk compile w := hRun.invariant (fun _ _ h hStep => GateOk.step h hStep) hStart
  obtain ⟨⟨-, blocks, compiled, hBlocks, hCompile, hSource, hSchema⟩, hAuthored⟩ :=
    (hOk.step hStep).rows id row' hRow
  rcases hStep.row_change hRow with ⟨row, hThere, hChange⟩ | ⟨_, _, _, _, _, _, -, rfl, -⟩
  · have hFree := hBefore row hThere
    cases hChange with
    | same | patch | save => exact absurd hPublished hFree
    | archive => cases hPublished
    | publish n org updated hCall hEnds _ hAdmits hSame =>
      obtain ⟨hNotArchived, hRendered⟩ : row.status ≠ .archived ∧ row.source = updated.source := hAdmits
      have hDraft : row.status = .draft := by
        cases hIs : row.status with
        | draft => rfl
        | published => exact absurd hIs hFree
        | archived => exact absurd hIs hNotArchived
      refine ⟨row, hThere, hDraft, ⟨blocks, compiled, hBlocks, hCompile, hSource, hSchema,
        hAuthored.symm.trans hBlocks⟩, n, org, updated, hCall, hEnds, ?_⟩
      have hLogged := (hOk.calls n _ hCall).2
      rwa [← hRendered] at hLogged
  · cases hPublished

end

/-- The act is published, and nobody else works on it. -/
theorem publish_gate_act : ∃ w w' row', Run (TemplateStep plainBlocks (fun _ => true) .undisturbed) noTemplates w ∧
    TemplateStep plainBlocks (fun _ => true) .undisturbed w w' ∧ w'.templateOf 1 = some row' ∧
    row'.status = .published ∧ ∃ row, w.templateOf 1 = some row ∧ row.status = .draft ∧
      (∃ blocks compiled, row'.blocks = some blocks ∧ plainBlocks blocks = .ok compiled ∧
        row'.source = compiled.source ∧ row'.schema = compiled.schema ∧ w'.authored 1 = some blocks) ∧
      ∃ n org updated, w.calls n = some (.saved org 1 updated) ∧ w'.calls n = none ∧
        (n, 1, row'.source) ∈ w.rendered := by
  have hSaved : Run (TemplateStep plainBlocks (fun _ => true) .undisturbed) noTemplates _ := run_actSaved rfl
  have hLast : TemplateStep plainBlocks (fun _ => true) .undisturbed actSaved _ :=
    .publish actSaved 1 7 1 _ [act "first" .published] rfl
      (fun row h => by rw [find_actRequested h]; exact ⟨fun hArchived => (by cases hArchived), rfl⟩) rfl
  refine ⟨_, _, act "first" .published, hSaved, hLast, rfl, rfl,
    publish_gate ⟨rfl, rfl, rfl⟩ hSaved hLast rfl rfl fun row h hPublished => ?_⟩
  rw [show row = act "first" .draft from (Option.some.inj h).symm] at hPublished
  cases hPublished

/-- An edit that comes between the save and the change of the status is published unrendered; one that
comes before the save is lost; and a template that is archived before the change is published. -/
theorem gate_passed_by :
    (∃ w row, Run (TemplateStep plainBlocks (fun _ => true) .anything) noTemplates w ∧
      w.templateOf 1 = some row ∧ row.status = .published ∧ row.source = "second" ∧
      ∀ n, (n, 1, "second") ∉ w.rendered) ∧
    (∃ w row, Run (TemplateStep plainBlocks (fun _ => true) .anything) noTemplates w ∧
      w.templateOf 1 = some row ∧ row.status = .published ∧ row.blocks = some "first" ∧
      w.authored 1 = some "second") ∧
    ∃ w w' row row', Run (TemplateStep plainBlocks (fun _ => true) .anything) noTemplates w ∧
      w.templateOf 1 = some row ∧ row.status = .archived ∧
      TemplateStep plainBlocks (fun _ => true) .anything w w' ∧ w'.templateOf 1 = some row' ∧
      row'.status = .published := by
  have hAsked : Run (TemplateStep plainBlocks (fun _ => true) .anything) noTemplates _ := run_actRequested
  have hRead := hAsked.tail (.readJob _ 7 1 (act "first" .draft) _ List.mem_cons_self rfl rfl rfl rfl)
  have hRendered := hRead.tail (.render _ 1 7 1 _ rfl)
  have hSaved : Run (TemplateStep plainBlocks (fun _ => true) .anything) noTemplates _ := run_actSaved trivial
  refine ⟨?_, ?_, ?_⟩
  · have hFound := hSaved.tail (.readPatch _ 7 1 (act "first" .draft) "second" _ rfl rfl)
    have hEdited := hFound.tail (.patch _ 2 7 1 "second" _ [act "second" .draft] rfl (fun _ _ => trivial) rfl)
    have hDone := hEdited.tail (.publish _ 1 7 1 _ [act "second" .published] rfl (fun _ _ => trivial) rfl)
    refine ⟨_, act "second" .published, hDone, rfl, rfl, rfl, fun n h => ?_⟩
    have hOnly : (n, 1, "second") ∈ [((1 : Nat), (1 : Uuid), "first")] := h
    simp at hOnly
  · have hFound := hRendered.tail (.readPatch _ 7 1 (act "first" .draft) "second" _ rfl rfl)
    have hEdited := hFound.tail (.patch _ 2 7 1 "second" _ [act "second" .draft] rfl (fun _ _ => trivial) rfl)
    have hLost := hEdited.tail (.save _ 1 7 1 _ [act "first" .draft] rfl rfl (fun _ _ => trivial) rfl)
    have hDone := hLost.tail (.publish _ 1 7 1 _ [act "first" .published] rfl (fun _ _ => trivial) rfl)
    exact ⟨_, act "first" .published, hDone, rfl, rfl, rfl, rfl⟩
  · have hFound := hSaved.tail (.readArchive _ 7 1 (act "first" .draft) rfl)
    have hArchived := hFound.tail (.archive _ 2 7 1 [act "first" .archived] rfl rfl)
    exact ⟨_, _, act "first" .archived, act "first" .published, hArchived, rfl, rfl,
      .publish _ 1 7 1 _ [act "first" .published] rfl (fun _ _ => trivial) rfl, rfl, rfl⟩

end CyberAccountant.Docgen
