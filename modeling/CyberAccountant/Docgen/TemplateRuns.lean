import CyberAccountant.Docgen.Templates
import CyberAccountant.Library.Transition

/-! Any number of template requests and publish jobs at once.  A request reads its template, perhaps from
a replica that lags, and then writes it; a publish job reads, compiles, renders, saves and sets the
status, each in a transaction of its own, and may fail between any two. -/

namespace CyberAccountant.Docgen

open CyberAccountant.Library CyberAccountant.Ledger

variable {J : Type}

/-- How far a request or a publish job has come. -/
inductive TemplateCall (J : Type) where
  | patching (org id : Uuid) (blocks : J) (patch : DocumentTemplate J)
  | archiving (org id : Uuid)
  | requesting (org id : Uuid)
  | gating (org id : Uuid) (updated : DocumentTemplate J)
  | passed (org id : Uuid) (updated : DocumentTemplate J)
  | saved (org id : Uuid) (updated : DocumentTemplate J)

/-- The table and its replica, the ids that have been given to rows, the payloads of publish jobs, the
calls under way and the number of those that have been; and, which no table holds, the blocks of the
last author's write to each template and what each publish job has rendered. -/
structure TemplateWorld (J : Type) where
  templates : List (DocumentTemplate J)
  replica : List (DocumentTemplate J)
  drawn : List Uuid
  publishJobs : List (Uuid × Uuid)
  calls : Table Nat (TemplateCall J)
  started : Nat
  authored : Table Uuid J
  rendered : List (Nat × Uuid × String)

namespace TemplateWorld

def begin (w : TemplateWorld J) (call : TemplateCall J) : TemplateWorld J :=
  { w with calls := w.calls.put w.started call, started := w.started + 1 }

/-- The call `n` is as far as `call` says. -/
def setCall (w : TemplateWorld J) (n : Nat) (call : TemplateCall J) : TemplateWorld J :=
  { w with calls := w.calls.put n call }

def endCall (w : TemplateWorld J) (n : Nat) : TemplateWorld J := { w with calls := w.calls.drop n }

def templateOf (w : TemplateWorld J) (id : Uuid) : Option (DocumentTemplate J) :=
  rowOf DocumentTemplate.id w.templates id

end TemplateWorld

/-- The draft that `createTemplate` makes of blocks. -/
def newDraft (id org : Uuid) (slug : String) (version : Int) (blocks : J) (compiled : Compiled J)
    (user : Option Uuid) : DocumentTemplate J where
  id := id
  orgId := some org
  slug := slug
  version := version
  mode := .blocks
  blocks := some blocks
  source := compiled.source
  schema := compiled.schema
  form := compiled.form
  expected := some compiled.expected
  status := .draft
  createdBy := user

section

variable (compile : J → Except BlockError (Compiled J)) (accepts : J → Bool)

/-- What the publish job renders: for a template of blocks, what they compile to. -/
def recompiled (tpl : DocumentTemplate J) : Option (DocumentTemplate J) :=
  match tpl.mode, tpl.blocks with
  | .blocks, some blocks => (compile blocks).toOption.map (tpl.withBlocks blocks)
  | .blocks, none => none
  | .source, _ => some tpl

/-- Which writes a run admits, by the row that they find and what they write. -/
structure Admits (J : Type) where
  edit (row patch : DocumentTemplate J) : Prop
  save (row updated : DocumentTemplate J) : Prop
  publish (row updated : DocumentTemplate J) : Prop

/-- Every write is admitted. -/
def Admits.anything : Admits J where
  edit _ _ := True
  save _ _ := True
  publish _ _ := True

variable [DecidableEq J]

/-- One step of the system; `accepts` says of a schema whether it accepts the fixture made from it. -/
inductive TemplateStep (ok : Admits J) : TemplateWorld J → TemplateWorld J → Prop where
  | create (w : TemplateWorld J) (id org : Uuid) (slug : String) (version : Int) (blocks : J)
      (compiled : Compiled J) (user : Option Uuid) (templates : List (DocumentTemplate J))
      (hCompile : compile blocks = .ok compiled) (hDrawn : id ∉ w.drawn)
      (hWrite : createTemplate w.templates (newDraft id org slug version blocks compiled user) = .ok templates) :
      TemplateStep ok w
        { w with templates, drawn := id :: w.drawn, authored := w.authored.put id blocks }
  | readPatch (w : TemplateWorld J) (org id : Uuid) (current : DocumentTemplate J) (blocks : J)
      (compiled : Compiled J) (hFind : findTemplate w.replica org id = some current)
      (hCompile : compile blocks = .ok compiled) :
      TemplateStep ok w (w.begin (.patching org id blocks (current.withBlocks blocks compiled)))
  | patch (w : TemplateWorld J) (n : Nat) (org id : Uuid) (blocks : J) (patch : DocumentTemplate J)
      (templates : List (DocumentTemplate J)) (hCall : w.calls n = some (.patching org id blocks patch))
      (hAdmits : ∀ row, findTemplate w.templates org id = some row → ok.edit row patch)
      (hWrite : updateDraft w.templates org id patch = .ok (some templates)) :
      TemplateStep ok w { w.endCall n with templates, authored := w.authored.put id blocks }
  | readArchive (w : TemplateWorld J) (org id : Uuid) (current : DocumentTemplate J)
      (hFind : findTemplate w.replica org id = some current) :
      TemplateStep ok w (w.begin (.archiving org id))
  | archive (w : TemplateWorld J) (n : Nat) (org id : Uuid) (templates : List (DocumentTemplate J))
      (hCall : w.calls n = some (.archiving org id))
      (hWrite : setTemplateStatus w.templates org id .archived = .ok (some templates)) :
      TemplateStep ok w { w.endCall n with templates }
  | readRequest (w : TemplateWorld J) (org id : Uuid) (current : DocumentTemplate J)
      (hFind : findTemplate w.replica org id = some current) (hDraft : current.status = .draft) :
      TemplateStep ok w (w.begin (.requesting org id))
  | enqueue (w : TemplateWorld J) (n : Nat) (org id : Uuid)
      (hCall : w.calls n = some (.requesting org id)) :
      TemplateStep ok w { w.endCall n with publishJobs := (org, id) :: w.publishJobs }
  | readJob (w : TemplateWorld J) (org id : Uuid) (tpl updated : DocumentTemplate J)
      (hQueued : (org, id) ∈ w.publishJobs) (hFind : findTemplate w.replica org id = some tpl)
      (hDraft : tpl.status = .draft) (hCompiled : recompiled compile tpl = some updated)
      (hAccepts : accepts updated.schema = true) :
      TemplateStep ok w (w.begin (.gating org id updated))
  | render (w : TemplateWorld J) (n : Nat) (org id : Uuid) (updated : DocumentTemplate J)
      (hCall : w.calls n = some (.gating org id updated)) :
      TemplateStep ok w
        { w.setCall n (.passed org id updated) with rendered := (n, id, updated.source) :: w.rendered }
  | save (w : TemplateWorld J) (n : Nat) (org id : Uuid) (updated : DocumentTemplate J)
      (templates : List (DocumentTemplate J)) (hCall : w.calls n = some (.passed org id updated))
      (hMode : updated.mode = .blocks)
      (hAdmits : ∀ row, findTemplate w.templates org id = some row → ok.save row updated)
      (hWrite : updateDraft w.templates org id updated = .ok (some templates)) :
      TemplateStep ok w { w.setCall n (.saved org id updated) with templates }
  | skipSave (w : TemplateWorld J) (n : Nat) (org id : Uuid) (updated : DocumentTemplate J)
      (hCall : w.calls n = some (.passed org id updated)) (hMode : updated.mode = .source) :
      TemplateStep ok w (w.setCall n (.saved org id updated))
  | publish (w : TemplateWorld J) (n : Nat) (org id : Uuid) (updated : DocumentTemplate J)
      (templates : List (DocumentTemplate J)) (hCall : w.calls n = some (.saved org id updated))
      (hAdmits : ∀ row, findTemplate w.templates org id = some row → ok.publish row updated)
      (hWrite : setTemplateStatus w.templates org id .published = .ok (some templates)) :
      TemplateStep ok w { w.endCall n with templates }
  | delete (w : TemplateWorld J) (id : Uuid) (templates : List (DocumentTemplate J))
      (hWrite : deleteTemplate w.templates id = .ok templates) : TemplateStep ok w { w with templates }
  | catchUp (w : TemplateWorld J) : TemplateStep ok w { w with replica := w.templates }
  /-- A call ends with an error, with a write that matched no row, or in a crash. -/
  | abandon (w : TemplateWorld J) (n : Nat) : TemplateStep ok w (w.endCall n)

end

/-- There are no templates and there have been none. -/
structure Untemplated (w : TemplateWorld J) : Prop where
  templates : w.templates = []
  replica : w.replica = []
  calls : w.calls = Table.empty

/-! ### What is written to the table -/

/-- What a step may do to the row of an id: leave it, write its contents, or set its status; and what the
call is that does so. -/
inductive RowChange (ok : Admits J) (w w' : TemplateWorld J) (id : Uuid) (row : DocumentTemplate J) :
    DocumentTemplate J → Prop where
  | same (hAuthored : w'.authored id = w.authored id) : RowChange ok w w' id row row
  | patch (n : Nat) (org : Uuid) (blocks : J) (patch : DocumentTemplate J)
      (hCall : w.calls n = some (.patching org id blocks patch)) (hFree : row.status ≠ .published)
      (hAdmits : ok.edit row patch) (hAuthored : w'.authored id = some blocks) :
      RowChange ok w w' id row (row.edited patch)
  | save (n : Nat) (org : Uuid) (updated : DocumentTemplate J)
      (hCall : w.calls n = some (.passed org id updated)) (hFree : row.status ≠ .published)
      (hAdmits : ok.save row updated) (hAuthored : w'.authored id = w.authored id) :
      RowChange ok w w' id row (row.edited updated)
  | archive (hAuthored : w'.authored id = w.authored id) :
      RowChange ok w w' id row { row with status := .archived }
  | publish (n : Nat) (org : Uuid) (updated : DocumentTemplate J)
      (hCall : w.calls n = some (.saved org id updated)) (hEnds : w'.calls n = none)
      (hFree : row.status ≠ .published) (hAdmits : ok.publish row updated)
      (hAuthored : w'.authored id = w.authored id) :
      RowChange ok w w' id row { row with status := .published }

section

variable [DecidableEq J] {compile : J → Except BlockError (Compiled J)} {accepts : J → Bool} {ok : Admits J}
  {w w' : TemplateWorld J}

/-- An update changes the row that it names and no other. -/
theorem rowOf_updateTemplate {templates templates' : List (DocumentTemplate J)} {org id k : Uuid}
    {change : DocumentTemplate J → DocumentTemplate J}
    (h : updateTemplate templates org id change = .ok (some templates')) (hKey : ∀ t, (change t).id = t.id)
    {row' : DocumentTemplate J} (hRow : rowOf DocumentTemplate.id templates' k = some row') :
    (k ≠ id ∧ rowOf DocumentTemplate.id templates k = some row') ∨
      ∃ row, k = id ∧ findTemplate templates org id = some row ∧
        rowOf DocumentTemplate.id templates k = some row ∧ row' = change row ∧
        (row.status = .published → (change row).status = .archived) := by
  obtain ⟨row, hFind, hTrigger, rfl⟩ := updateTemplate_ok h
  rw [rowOf_changeRow hKey] at hRow
  by_cases hSame : k = id
  · subst hSame
    have hThere := (findTemplate_some hFind).1
    rw [if_pos rfl, hThere] at hRow
    exact .inr ⟨row, rfl, hFind, hThere, (Option.some.inj hRow).symm, fun h => (hTrigger h).1⟩
  · rw [if_neg hSame] at hRow
    exact .inl ⟨hSame, hRow⟩

/-- A row that is there after a step was there before, or is a draft under a new id. -/
theorem TemplateStep.row_change (hStep : TemplateStep compile accepts ok w w') {id : Uuid}
    {row' : DocumentTemplate J} (hRow : w'.templateOf id = some row') :
    (∃ row, w.templateOf id = some row ∧ RowChange ok w w' id row row') ∨
      ∃ org slug version blocks compiled user, compile blocks = .ok compiled ∧
        row' = newDraft id org slug version blocks compiled user ∧ w'.authored id = some blocks ∧
        w.templateOf id = none ∧ id ∉ w.drawn ∧ id ∈ w'.drawn := by
  -- What `edited` leaves of a published row is published, which the trigger refuses.
  have hUnpublished : ∀ {row patch : DocumentTemplate J},
      (row.status = .published → (row.edited patch).status = .archived) → row.status ≠ .published := by
    intro row patch hTrigger hPublished
    have hArchived : row.status = .archived := hTrigger hPublished
    rw [hPublished] at hArchived
    cases hArchived
  cases hStep with
  | create id' org slug version blocks compiled user templates hCompile hDrawn hWrite =>
    obtain ⟨hNew, -, rfl⟩ := createTemplate_ok hWrite
    have hFound : (if id = id' then some (newDraft id' org slug version blocks compiled user) else
        rowOf DocumentTemplate.id w.templates id) = some row' := (rowOf_append_new hNew).symm.trans hRow
    by_cases hSame : id = id'
    · subst hSame
      rw [if_pos rfl] at hFound
      exact .inr ⟨org, slug, version, blocks, compiled, user, hCompile, (Option.some.inj hFound).symm,
        Table.put_same _ _ _, rowOf_eq_none.mpr hNew, hDrawn, List.mem_cons_self⟩
    · rw [if_neg hSame] at hFound
      exact .inl ⟨row', hFound, .same (Table.put_ne hSame)⟩
  | patch n org k blocks patch templates hCall hAdmits hWrite =>
    rcases rowOf_updateTemplate hWrite (fun _ => rfl) hRow with ⟨hNe, hSame⟩ |
      ⟨row, rfl, hFind, hBefore, rfl, hTrigger⟩
    · exact .inl ⟨row', hSame, .same (Table.put_ne hNe)⟩
    · exact .inl ⟨row, hBefore, .patch n org blocks patch hCall (hUnpublished hTrigger) (hAdmits row hFind)
        (Table.put_same _ _ _)⟩
  | save n org k updated templates hCall hMode hAdmits hWrite =>
    rcases rowOf_updateTemplate hWrite (fun _ => rfl) hRow with ⟨-, hSame⟩ |
      ⟨row, rfl, hFind, hBefore, rfl, hTrigger⟩
    · exact .inl ⟨row', hSame, .same rfl⟩
    · exact .inl ⟨row, hBefore, .save n org updated hCall (hUnpublished hTrigger) (hAdmits row hFind) rfl⟩
  | archive n org k templates hCall hWrite =>
    rcases rowOf_updateTemplate hWrite (fun _ => rfl) hRow with ⟨-, hSame⟩ | ⟨row, -, -, hBefore, rfl, -⟩
    · exact .inl ⟨row', hSame, .same rfl⟩
    · exact .inl ⟨row, hBefore, .archive rfl⟩
  | publish n org k updated templates hCall hAdmits hWrite =>
    rcases rowOf_updateTemplate hWrite (fun _ => rfl) hRow with ⟨-, hSame⟩ |
      ⟨row, rfl, hFind, hBefore, rfl, hTrigger⟩
    · exact .inl ⟨row', hSame, .same rfl⟩
    · refine .inl ⟨row, hBefore, .publish n org updated hCall (Table.drop_same _ _) (fun hPublished => ?_)
        (hAdmits row hFind) rfl⟩
      cases hTrigger hPublished
  | delete k templates hWrite =>
    obtain ⟨-, rfl⟩ := deleteTemplate_ok hWrite
    by_cases hSame : id = k
    · subst hSame
      have hGone : rowOf DocumentTemplate.id (w.templates.filter (·.id ≠ id)) id = none :=
        rowOf_eq_none.mpr fun t ht => of_decide_eq_true (List.mem_filter.mp ht).2
      rw [TemplateWorld.templateOf, hGone] at hRow
      cases hRow
    · exact .inl ⟨row', (rowOf_filter_ne hSame).symm.trans hRow, .same rfl⟩
  | readPatch | readArchive | readRequest | enqueue | readJob | render | skipSave | catchUp | abandon =>
    exact .inl ⟨row', hRow, .same rfl⟩

/-- Ids that have been drawn stay so. -/
theorem TemplateStep.drawn_kept (hStep : TemplateStep compile accepts ok w w') {id : Uuid} (h : id ∈ w.drawn) :
    id ∈ w'.drawn := by
  cases hStep <;> first | exact h | exact List.mem_cons_of_mem _ h

/-- The ids of the rows have been drawn. -/
def IdsDrawn (w : TemplateWorld J) : Prop := ∀ id row, w.templateOf id = some row → id ∈ w.drawn

theorem IdsDrawn.step (h : IdsDrawn w) (hStep : TemplateStep compile accepts ok w w') : IdsDrawn w' := by
  intro id row' hRow
  rcases hStep.row_change hRow with ⟨row, hBefore, -⟩ | ⟨_, _, _, _, _, _, -, -, -, -, -, hDrawn⟩
  · exact hStep.drawn_kept (h id row hBefore)
  · exact hDrawn

omit [DecidableEq J] in
theorem IdsDrawn.of_untemplated (h : Untemplated w) : IdsDrawn w := by
  intro id row hRow
  rw [TemplateWorld.templateOf, h.templates] at hRow
  cases hRow

end

end CyberAccountant.Docgen
