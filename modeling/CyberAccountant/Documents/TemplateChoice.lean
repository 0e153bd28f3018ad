import CyberAccountant.Docgen.Immutability
import CyberAccountant.Docgen.TemplateRegistry
import CyberAccountant.Documents.Integrity

/-! The template of a version.  A request checks its input against the template on disk and records the
label of that; the worker renders with a published template of the table where there is one for the
slug. -/

namespace CyberAccountant.Documents

open CyberAccountant.Library CyberAccountant.Library.Program CyberAccountant.Ledger CyberAccountant.Docgen

variable {J : Type}

/-- The operations as the API makes them, and the jobs that the worker runs: `policy` makes the input of an
edit from the slug and the snapshot that it starts from. -/
inductive Requested (r : Renderer J) (registry : TemplateRegistry J) (templates : List (DocumentTemplate J))
    (sha256Hex : ByteArray → String) : Operation J → DocumentM J Unit → Prop where
  | generate (org id versionId : Uuid) (slug templateVersion : String) (input : J) (linkEntryId : Option Uuid)
      (hChecked : checkInput r.validateAgainst registry slug input = some (input, templateVersion)) :
      Requested r registry templates sha256Hex
        (.generate org id versionId slug templateVersion input linkEntryId)
        (generate org id versionId slug templateVersion input linkEntryId)
  | createVersion (org id versionId : Uuid) (edit : String → Option J → Option (J × String))
      (policy : String → Option J → Option J)
      (hChecked : ∀ slug snapshot,
        edit slug snapshot = (policy slug snapshot).bind (checkInput r.validateAgainst registry slug)) :
      Requested r registry templates sha256Hex (.createVersion org id versionId edit)
        (createVersion org id versionId edit)
  | processJob (payload : RenderPayload J) (bytes : ByteArray) (engine : String)
      (hRendered : r.renderAndCompile registry templates payload.slug payload.input (some payload.orgId) =
        .ok (bytes, engine)) :
      Requested r registry templates sha256Hex (.processJob payload bytes engine)
        (processJob sha256Hex payload bytes engine)
  | startUpload (org id versionId : Uuid) (s3Key mime : String) (inputSnapshot : J) :
      Requested r registry templates sha256Hex (.startUpload org id versionId s3Key mime inputSnapshot)
        (startUpload org id versionId s3Key mime inputSnapshot)
  | confirmUpload (org id : Uuid) (checksum : String) (sizeBytes : Nat) :
      Requested r registry templates sha256Hex (.confirmUpload org id checksum sizeBytes)
        (confirmUpload org id checksum sizeBytes)
  | remove (org id : Uuid) : Requested r registry templates sha256Hex (.remove org id) (removeDocument org id)
  | voidDocument (org id : Uuid) (voiding : Voiding) :
      Requested r registry templates sha256Hex (.voidDocument org id voiding) (voidDocument org id voiding)

section

variable (validateAgainst : J → J → Option String) (registry : TemplateRegistry J)

/-- The label is that of the template on disk. -/
def Labelled (slug : String) (label : Option String) : Prop :=
  ∃ info, registry.latest slug = .ok (some info) ∧ label = some info.versionStr

/-- The template on disk accepts the input. -/
def Accepted (slug : String) (input : J) : Prop :=
  ∃ info, registry.latest slug = .ok (some info) ∧ validateAgainst info.schema input = none

/-- The document, while there is one, is of the slug. -/
def IsOfSlug (slug : String) (id : Uuid) (s : Store J) : Prop :=
  id ∈ s.known ∧ ∀ row, s.tables.documents id = some row → row.templateSlug = some slug

/-- The version, while there is one, is of a document of the slug. -/
def VersionOfSlug (slug : String) (version : Uuid) (s : Store J) : Prop :=
  version ∈ s.known ∧ ∀ v ∈ s.tables.versions, v.id = version → IsOfSlug slug v.documentId s

/-- A render job that the API has submitted. -/
structure JobOk (s : Store J) (payload : RenderPayload J) : Prop where
  accepted : Accepted validateAgainst registry payload.slug payload.input
  version : ∀ version, payload.versionId = some version → VersionOfSlug payload.slug version s

/-- Every version is labelled, and every job has an input that the template on disk accepts. -/
structure TemplatesOk (s : Store J) : Prop where
  ok : s.Ok
  versions : ∀ v ∈ s.tables.versions, ∀ row slug, s.tables.documents v.documentId = some row →
    row.templateSlug = some slug → Labelled registry slug v.templateVersion
  jobs : ∀ payload ∈ s.jobs, JobOk validateAgainst registry s payload

/-- What has to be when a command is called. -/
def Recorded : DocumentCommand J → Store J → Prop
  | .create _ d, _ => ∀ slug, d.templateSlug = some slug → Labelled registry slug d.templateVersion
  | .addVersion _ document _ _ templateVersion, s =>
    ∃ slug, IsOfSlug slug document s ∧ Labelled registry slug templateVersion
  | .submit payload, s => JobOk validateAgainst registry s payload
  | _, _ => True

end

section

variable {validateAgainst : J → J → Option String} {registry : TemplateRegistry J} {s s' : Store J} {slug : String}

theorem IsOfSlug.grows {id : Uuid} (h : IsOfSlug slug id s) (hGrows : StoreGrows s s') : IsOfSlug slug id s' := by
  obtain ⟨hKnown, hSlug⟩ := h
  refine ⟨hGrows.known id hKnown, fun row' hRow' => ?_⟩
  obtain ⟨row, hRow, -, -, hSame⟩ := hGrows.tables.document id hKnown row' hRow'
  exact hSame.trans (hSlug row hRow)

theorem VersionOfSlug.grows {version : Uuid} (h : VersionOfSlug slug version s) (hGrows : StoreGrows s s') :
    VersionOfSlug slug version s' := by
  obtain ⟨hKnown, hSlug⟩ := h
  refine ⟨hGrows.known version hKnown, fun v' hv' hId => ?_⟩
  obtain ⟨v, hv, hContinues⟩ := hGrows.tables.origin v' hv' (by rw [hId]; exact hKnown)
  rw [hContinues.documentId]
  exact (hSlug v hv (hContinues.id.symm.trans hId)).grows hGrows

theorem JobOk.grows {payload : RenderPayload J} (h : JobOk validateAgainst registry s payload)
    (hGrows : StoreGrows s s') : JobOk validateAgainst registry s' payload :=
  ⟨h.accepted, fun version hVersion => (h.version version hVersion).grows hGrows⟩

/-- A step that makes no versions but labelled ones, and no jobs but good ones. -/
theorem TemplatesOk.grows (h : TemplatesOk validateAgainst registry s) (hOk : s'.Ok) (hGrows : StoreGrows s s')
    (hVersions : ∀ v ∈ s'.tables.versions, v.id ∉ s.known → ∀ row slug, s'.tables.documents v.documentId = some row →
      row.templateSlug = some slug → Labelled registry slug v.templateVersion)
    (hJobs : ∀ payload ∈ s'.jobs, payload ∈ s.jobs ∨ JobOk validateAgainst registry s' payload) :
    TemplatesOk validateAgainst registry s' where
  ok := hOk
  versions v' hv' row' slug hRow' hSlug := by
    by_cases hKnown : v'.id ∈ s.known
    · obtain ⟨v, hv, hContinues⟩ := hGrows.tables.origin v' hv' hKnown
      obtain ⟨parent, hParent, -⟩ := h.ok.parent v hv
      rw [hContinues.documentId] at hRow'
      obtain ⟨row, hRow, -, -, hSame⟩ :=
        hGrows.tables.document _ (h.ok.documentKnown _ parent hParent) row' hRow'
      rw [hContinues.templateVersion]
      exact h.versions v hv row slug hRow (hSame.symm.trans hSlug)
    · exact hVersions v' hv' hKnown row' slug hRow' hSlug
  jobs payload hJob := by
    rcases hJobs payload hJob with hOld | hNew
    · exact (h.jobs payload hOld).grows hGrows
    · exact hNew

/-- A step that makes neither versions nor jobs. -/
theorem TemplatesOk.of_same (h : TemplatesOk validateAgainst registry s) (hOk : s'.Ok) (hGrows : StoreGrows s s')
    (hKnown : s'.known = s.known) (hJobs : s'.jobs = s.jobs) : TemplatesOk validateAgainst registry s' := by
  refine h.grows hOk hGrows (fun v hv hNew => ?_) fun payload hJob => ?_
  · rw [← hKnown] at hNew
    exact absurd (hOk.versionKnown v hv) hNew
  · rw [hJobs] at hJob
    exact .inl hJob

/-- A version that is appended is labelled as its document's template. -/
theorem TemplatesOk.append (h : TemplatesOk validateAgainst registry s) (hOk : s'.Ok) (hGrows : StoreGrows s s')
    {v : VersionRow J} (hVersions : s'.tables.versions = s.tables.versions ++ [v]) (hJobs : s'.jobs = s.jobs)
    (hLabelled : ∀ row slug, s'.tables.documents v.documentId = some row → row.templateSlug = some slug →
      Labelled registry slug v.templateVersion) : TemplatesOk validateAgainst registry s' := by
  refine h.grows hOk hGrows (fun v' hv' hNew => ?_) fun payload hJob => ?_
  · rw [hVersions] at hv'
    rcases List.mem_append.mp hv' with hv' | hv'
    · exact absurd (h.ok.versionKnown v' hv') hNew
    · rw [List.mem_singleton.mp hv']
      exact hLabelled
  · rw [hJobs] at hJob
    exact .inl hJob

theorem Effect.templatesOk {c : DocumentCommand J} (hEffect : Effect s c s') (h : TemplatesOk validateAgainst registry s)
    (hRecorded : Recorded validateAgainst registry c s) : TemplatesOk validateAgainst registry s' := by
  obtain ⟨hOk, hGrows⟩ := hEffect.ok h.ok
  cases hEffect with
  | create org d hNew hNewVersion =>
    refine h.append hOk hGrows rfl rfl fun row slug hRow hSlug => ?_
    obtain rfl := Option.some.inj ((Table.put_same _ _ _).symm.trans hRow)
    exact hRecorded slug hSlug
  | addVersion org document versionId inputSnapshot templateVersion row v hRow hNew hBlank =>
    refine h.append hOk hGrows rfl rfl fun row' slug' hRow' hSlug' => ?_
    obtain ⟨slug, ⟨-, hSlug⟩, hLabelled⟩ := hRecorded
    subst hBlank
    obtain rfl := Option.some.inj ((hSlug row' hRow').symm.trans hSlug')
    exact hLabelled
  | submit payload =>
    refine h.grows hOk hGrows (fun v hv hNew => absurd (hOk.versionKnown v hv) hNew) fun payload' hJob => ?_
    rcases List.mem_cons.mp hJob with rfl | hJob
    · exact .inr (JobOk.grows hRecorded hGrows)
    · exact .inl hJob
  | nothing | setPendingUpload | setVersionFile | setCurrentVersion | setStatus | setStatusIf | linkEntry | remove
    | voidDocument | putObject => exact h.of_same hOk hGrows rfl rfl

/-! ### The operations -/

variable (validateAgainst registry) in
abbrev RecordedFrom {α : Type} (p : DocumentM J α) (s : Store J) : Prop :=
  SoundAlone exec (TemplatesOk validateAgainst registry) StoreGrows p s

theorem Recorded.keeps {c : DocumentCommand J} (h : Recorded validateAgainst registry c s) :
    Keeps exec (TemplatesOk validateAgainst registry) StoreGrows c s :=
  fun hTemplates => ⟨(exec_effect c s).templatesOk hTemplates h, (exec_ok hTemplates.ok c).2⟩

theorem RecordedFrom.call {α : Type} {c : DocumentCommand J} {next : c.Reply → DocumentM J α}
    (hRecorded : ∀ s', StoreGrows s s' → TemplatesOk validateAgainst registry s' → Recorded validateAgainst registry c s')
    (hNext : ∀ s', StoreGrows s s' → TemplatesOk validateAgainst registry s' →
      RecordedFrom validateAgainst registry (next (exec c s').1) (exec c s').2) :
    RecordedFrom validateAgainst registry (.call c next) s :=
  SoundAlone.call (fun s' hGrows hTemplates => (hRecorded s' hGrows hTemplates).keeps) hNext

theorem create_isOfSlug {org : Uuid} {d : NewDocument J} (hSlug : d.templateSlug = some slug)
    (h : (exec (.create org d) s).1 = true) : IsOfSlug slug d.id (exec (.create org d) s).2 := by
  obtain ⟨hKnown, hRow⟩ := create_row h
  refine ⟨hKnown, fun row hRow' => ?_⟩
  obtain rfl := Option.some.inj (hRow.symm.trans hRow')
  exact hSlug

/-- A version that has just been read or made is of its document's slug. -/
theorem IsOfSlug.version {id : Uuid} (h : IsOfSlug slug id s) (hOk : s.Ok) {v : VersionRow J}
    (hv : v ∈ s.tables.versions) (hDocument : v.documentId = id) : VersionOfSlug slug v.id s := by
  refine ⟨hOk.versionKnown v hv, fun v' hv' hId => ?_⟩
  rw [hOk.versionIds v' hv' v hv hId, hDocument]
  exact h

theorem addVersion_ofSlug {org id versionId : Uuid} {inputSnapshot : Option J} {templateVersion : Option String}
    {v : VersionRow J} (hSlug : IsOfSlug slug id s) (hOk : s.Ok)
    (h : (exec (.addVersion org id versionId inputSnapshot templateVersion) s).1 = some v) :
    VersionOfSlug slug v.id (exec (.addVersion org id versionId inputSnapshot templateVersion) s).2 := by
  obtain ⟨hOk', hGrows⟩ := exec_ok hOk (.addVersion org id versionId inputSnapshot templateVersion)
  cases hResult : s.tables.addVersion org id versionId inputSnapshot templateVersion with
  | none =>
    simp only [exec, hResult] at h
    cases h
  | some found =>
    obtain ⟨v', t'⟩ := found
    simp only [exec, hResult] at h hOk' hGrows ⊢
    obtain ⟨row, -, -, rfl, rfl⟩ := Tables.addVersion_some hResult
    split at h
    · cases h
    · rename_i hNew
      rw [if_neg hNew] at hOk' hGrows ⊢
      cases h
      exact (hSlug.grows hGrows).version hOk' (List.mem_append_right _ List.mem_cons_self) rfl

/-- The end of every request that generates a document. -/
theorem submitLatest_recorded {org id : Uuid} {input : J} (hSlug : IsOfSlug slug id s)
    (hAccepted : Accepted validateAgainst registry slug input) :
    RecordedFrom validateAgainst registry (do
      let first ← call (.latestVersion org id true)
      call (.submit ⟨org, id, first.map VersionRow.id, slug, input⟩)) s := by
  refine .call (fun _ _ _ => trivial) fun s' hGrows hTemplates => .call (fun s'' hMore _ => ?_) fun _ _ _ => trivial
  refine ⟨hAccepted, fun version hVersion => ?_⟩
  obtain ⟨v, hLatest, rfl⟩ := Option.map_eq_some_iff.mp hVersion
  obtain ⟨hv, hDocument⟩ := Tables.latestVersion_some hLatest
  exact ((hSlug.grows hGrows).version hTemplates.ok hv hDocument).grows hMore

theorem generate_recorded {org id versionId : Uuid} {templateVersion : String} {input : J} {linkEntryId : Option Uuid}
    (hChecked : checkInput validateAgainst registry slug input = some (input, templateVersion)) :
    RecordedFrom validateAgainst registry (generate org id versionId slug templateVersion input linkEntryId) s := by
  obtain ⟨-, info, hLatest, hValid, rfl⟩ := checkInput_some hChecked
  let d : NewDocument J := ⟨id, versionId, .generated, .draft, some slug, some info.versionStr, some input⟩
  refine .call (fun _ _ _ slug' hSlug => ?_) fun s' _ _ => ?_
  · cases hSlug
    exact ⟨info, hLatest, rfl⟩
  · cases hCreated : (exec (.create org d) s').1 with
    | false => trivial
    | true =>
      have hSlug : IsOfSlug slug id (exec (.create org d) s').2 := create_isOfSlug rfl hCreated
      cases linkEntryId with
      | none => exact submitLatest_recorded hSlug ⟨info, hLatest, hValid⟩
      | some entry =>
        refine .call (fun _ _ _ => trivial) fun s'' hGrows hTemplates => ?_
        have hLinked : StoreGrows s'' (exec (.linkEntry org id entry) s'').2 := (exec_ok hTemplates.ok _).2
        exact submitLatest_recorded ((hSlug.grows hGrows).grows hLinked) ⟨info, hLatest, hValid⟩

theorem editableSlug?_some {found : Document J} (h : editableSlug? found = some slug) : found.templateSlug = some slug := by
  unfold editableSlug? at h
  split at h
  · cases h
  · exact (Option.filter_eq_some_iff.mp h).1

theorem createVersion_recorded {org id versionId : Uuid} {edit : String → Option J → Option (J × String)}
    {policy : String → Option J → Option J}
    (hChecked : ∀ slug snapshot,
      edit slug snapshot = (policy slug snapshot).bind (checkInput validateAgainst registry slug)) :
    RecordedFrom validateAgainst registry (createVersion org id versionId edit) s := by
  refine .call (fun _ _ _ => trivial) fun s' _ hTemplates => ?_
  cases hFound : (exec (.findInOrg id org true) s').1 with
  | none => trivial
  | some found =>
    simp only [Program.bind]
    split
    · trivial
    · rename_i slug hEditable
      have hRow : s'.tables.documents id = some found.toDocumentRow := Tables.findInOrg_some hFound
      have hSlug : IsOfSlug slug id s' := by
        refine ⟨hTemplates.ok.documentKnown id _ hRow, fun row hRow' => ?_⟩
        obtain rfl := Option.some.inj (hRow.symm.trans hRow')
        exact editableSlug?_some hEditable
      refine .call (fun _ _ _ => trivial) fun s'' hGrows _ => ?_
      cases (exec (.latestVersion org id false) s'').1 with
      | none => trivial
      | some previous =>
        simp only [Program.bind]
        split
        · trivial
        · rename_i input templateVersion hEdit
          rw [hChecked] at hEdit
          obtain ⟨input', -, hInput⟩ := Option.bind_eq_some_iff.mp hEdit
          obtain ⟨rfl, info, hLatest, hValid, rfl⟩ := checkInput_some hInput
          have hNow := hSlug.grows hGrows
          refine .call (fun _ hMore _ => ⟨slug, hNow.grows hMore, info, hLatest, rfl⟩) fun s₃ hMore hTemplates => ?_
          cases hAdded : (exec (.addVersion org id versionId (some input) (some info.versionStr)) s₃).1 with
          | none => trivial
          | some v =>
            refine .call (fun s₄ hGrows₄ _ => ⟨⟨info, hLatest, hValid⟩, fun version hVersion => ?_⟩) fun _ _ _ => trivial
            cases hVersion
            exact (addVersion_ofSlug (hNow.grows hMore) hTemplates.ok hAdded).grows hGrows₄

/-- An operation that makes no document of a slug, adds no version and submits no job. -/
theorem other_recorded (sha256Hex : ByteArray → String) (op : Operation J)
    (hCreate : ∀ org d, op.MayCall sha256Hex (.create org d) → d.templateSlug = none)
    (hAddVersion : ∀ org document versionId inputSnapshot templateVersion,
      ¬ op.MayCall sha256Hex (.addVersion org document versionId inputSnapshot templateVersion))
    (hSubmit : ∀ payload, ¬ op.MayCall sha256Hex (.submit payload)) :
    RecordedFrom validateAgainst registry (op.program sha256Hex) s := by
  refine .of_calls ((op.program_calls sha256Hex).mono fun c hMay s => Recorded.keeps ?_) s
  cases c with
  | create org d =>
    intro slug hSlug
    cases (hCreate org d hMay).symm.trans hSlug
  | addVersion => exact absurd hMay (hAddVersion _ _ _ _ _)
  | submit => exact absurd hMay (hSubmit _)
  | setPendingUpload | findInOrg | latestVersion | versionRenderState | setVersionFile | setCurrentVersion
  | setStatus | setStatusIf | linkEntry | remove | voidDocument | putObject | objectExists => trivial

theorem requested_recorded {r : Renderer J} {templates : List (DocumentTemplate J)} {sha256Hex : ByteArray → String}
    {op : Operation J} {program : DocumentM J Unit} (h : Requested r registry templates sha256Hex op program) :
    RecordedFrom r.validateAgainst registry program s := by
  cases h with
  | generate org id versionId slug templateVersion input linkEntryId hChecked => exact generate_recorded hChecked
  | createVersion org id versionId edit policy hChecked => exact createVersion_recorded hChecked
  | startUpload org id versionId s3Key mime inputSnapshot =>
    exact other_recorded sha256Hex (.startUpload org id versionId s3Key mime inputSnapshot)
      (fun _ _ h => h) (fun _ _ _ _ _ h => h) fun _ h => h
  | confirmUpload org id checksum sizeBytes =>
    exact other_recorded sha256Hex (.confirmUpload org id checksum sizeBytes)
      (fun _ _ h => h.elim) (fun _ _ _ _ _ h => h) fun _ h => h
  | remove org id =>
    exact other_recorded sha256Hex (.remove org id)
      (fun _ _ h => h.elim) (fun _ _ _ _ _ h => h) fun _ h => h
  | voidDocument org id voiding =>
    exact other_recorded sha256Hex (.voidDocument org id voiding)
      (fun _ _ h => h.elim) (fun _ _ _ _ _ h => h) fun _ h => h
  | processJob payload bytes engine =>
    exact other_recorded sha256Hex (.processJob payload bytes engine)
      (fun _ _ h => h.elim) (fun _ _ _ _ _ h => h) fun _ h => h

theorem NoDocuments.templatesOk (h : NoDocuments s) (hJobs : s.jobs = []) : TemplatesOk validateAgainst registry s where
  ok := h.ok
  versions v hv := by
    rw [h.versions] at hv
    cases hv
  jobs payload hJob := by
    rw [hJobs] at hJob
    cases hJob

theorem Elsewhere.jobs (h : Elsewhere s s') : s'.known = s.known ∧ s'.jobs = s.jobs := by
  cases h with
  | replicate | upload | others => exact ⟨rfl, rfl⟩

theorem Elsewhere.templatesOk (h : Elsewhere s s') (hTemplates : TemplatesOk validateAgainst registry s) :
    TemplatesOk validateAgainst registry s' := by
  obtain ⟨hOk, hGrows⟩ := elsewhere_ok hTemplates.ok h
  exact hTemplates.of_same hOk hGrows h.jobs.1 h.jobs.2

end

/-! ### With the templates of the table -/

structure RenderWorld (J : Type) where
  documents : DocumentSystem J
  templates : TemplateWorld J

section

variable [DecidableEq J] (r : Renderer J) (registry : TemplateRegistry J)
  (compile : J → Except BlockError (Compiled J)) (accepts : J → Bool) (sha256Hex : ByteArray → String)

/-- The documents and the templates, in any order.  The worker reads the templates from a replica. -/
inductive RenderWorldStep : RenderWorld J → RenderWorld J → Prop where
  | documents (w : RenderWorld J) (documents : DocumentSystem J)
      (hStep : SystemStep exec (Requested r registry w.templates.replica sha256Hex) (fun _ => Always) Elsewhere
        w.documents documents) : RenderWorldStep w { w with documents }
  | templates (w : RenderWorld J) (templates : TemplateWorld J)
      (hStep : TemplateStep compile accepts .anything w.templates templates) :
      RenderWorldStep w { w with templates }

/-- What the render of the job would hand to the compiler now: the input passes its check, and the text is
that of the template with the slug and the label that the version has recorded. -/
def RendersAsRecorded (w : RenderWorld J) (payload : RenderPayload J) (v : VersionRow J) : Prop :=
  ∃ label source data, v.templateVersion = some label ∧ registry.sourceOf payload.slug label = some source ∧
    r.staged registry w.templates.replica payload.slug payload.input (some payload.orgId) = .ok (source, data)

/-- A published template that the worker would take instead of the one on disk has the same text, and it
accepts the input. -/
def NothingElsePublished (w : RenderWorld J) (payload : RenderPayload J) (v : VersionRow J) : Prop :=
  ∀ custom, resolve w.templates.replica payload.orgId payload.slug = some custom →
    v.templateVersion.bind (registry.sourceOf payload.slug) = some custom.source ∧
      r.validateAgainst custom.schema payload.input = none

variable {r registry compile accepts sha256Hex} {w₀ w : RenderWorld J}

theorem documents_run (hRun : Run (RenderWorldStep r registry compile accepts sha256Hex) w₀ w) :
    Run (SystemStep exec (fun op program => ∃ templates, Requested r registry templates sha256Hex op program)
      (fun _ => Always) Elsewhere) w₀.documents w.documents := by
  induction hRun with
  | refl => exact .refl
  | tail _ hStep ih =>
    cases hStep with
    | documents d hStep => exact ih.tail (hStep.mono fun _ _ h => ⟨_, h⟩)
    | templates t hStep => exact ih

theorem templatesOk_run (hEmpty : NoDocuments w₀.documents.state) (hJobs : w₀.documents.state.jobs = [])
    (hIdle : w₀.documents.processes = Table.empty)
    (hRun : Run (RenderWorldStep r registry compile accepts sha256Hex) w₀ w) :
    TemplatesOk r.validateAgainst registry w.documents.state :=
  SoundAlone.run (fun _ => .refl _) (fun _ _ _ hAB hBC => hAB.trans hBC)
    (fun _ _ ⟨_, hRequested⟩ _ _ => requested_recorded hRequested)
    (fun _ _ hTemplates hElsewhere => ⟨hElsewhere.templatesOk hTemplates, (elsewhere_ok hTemplates.ok hElsewhere).2⟩)
    (hEmpty.templatesOk hJobs) hIdle (documents_run hRun)

/-- In every run, a job that the API has submitted renders the template that its version has recorded, with
an input that passes, just where no other published template comes before it. -/
theorem template_recorded (hEmpty : NoDocuments w₀.documents.state) (hJobs : w₀.documents.state.jobs = [])
    (hIdle : w₀.documents.processes = Table.empty)
    (hRun : Run (RenderWorldStep r registry compile accepts sha256Hex) w₀ w) {payload : RenderPayload J}
    (hJob : payload ∈ w.documents.state.jobs) {v : VersionRow J} (hv : v ∈ w.documents.state.tables.versions)
    (hVersion : payload.versionId = some v.id) :
    RendersAsRecorded r registry w payload v ↔ NothingElsePublished r registry w payload v := by
  have hTemplates := templatesOk_run hEmpty hJobs hIdle hRun
  obtain ⟨⟨info, hLatest, hValid⟩, hOfSlug⟩ := hTemplates.jobs payload hJob
  obtain ⟨-, hSlug⟩ := hOfSlug v.id hVersion
  obtain ⟨row, hRow, -⟩ := hTemplates.ok.parent v hv
  obtain ⟨info', hLatest', hLabel⟩ :=
    hTemplates.versions v hv row payload.slug hRow ((hSlug v hv rfl).2 row hRow)
  obtain rfl : info' = info := Option.some.inj (Except.ok.inj (hLatest'.symm.trans hLatest))
  obtain ⟨-, hSource⟩ := TemplateRegistry.latest_ok hLatest
  have hRecorded : RendersAsRecorded r registry w payload v ↔
      ∃ data, r.staged registry w.templates.replica payload.slug payload.input (some payload.orgId) =
        .ok (info'.source, data) := by
    constructor
    · rintro ⟨label, source, data, hLabel', hSource', hStaged⟩
      cases hLabel.symm.trans hLabel'
      cases hSource.symm.trans hSource'
      exact ⟨data, hStaged⟩
    · rintro ⟨data, hStaged⟩
      exact ⟨info'.versionStr, info'.source, data, hLabel, hSource, hStaged⟩
  rw [hRecorded, Renderer.staged_source hLatest hValid, NothingElsePublished, hLabel]
  simp only [Option.bind_some, hSource, Option.some.injEq, eq_comm]

theorem run_documents {d : DocumentSystem J}
    (hRun : Run (SystemStep exec (Requested r registry w.templates.replica sha256Hex) (fun _ => Always) Elsewhere)
      w.documents d) : Run (RenderWorldStep r registry compile accepts sha256Hex) w { w with documents := d } := by
  induction hRun with
  | refl => exact .refl
  | tail _ hStep ih => exact ih.tail (.documents _ _ hStep)

theorem run_templates {t : TemplateWorld J} (hRun : Run (TemplateStep compile accepts .anything) w.templates t) :
    Run (RenderWorldStep r registry compile accepts sha256Hex) w { w with templates := t } := by
  induction hRun with
  | refl => exact .refl
  | tail _ hStep ih => exact ih.tail (.templates _ _ hStep)

end

/-! ### A template that is published before the render -/

def avrSource : String := "#json(\"input.json\").total"

def avrSchema : String := "\x7b\"required\":[\"number\",\"total\"]\x7d"

def avrInput : String := "\x7b\"number\":\"1\",\"total\":\"100\"\x7d"

def avrRegistry : TemplateRegistry String := [⟨"avr", "v1", some avrSource, some (.ok avrSchema)⟩]

def buyerSchema : String := "\x7b\"required\":[\"buyer\"]\x7d"

/-- The input has no buyer, and nothing to be filled in. -/
def avrRenderer : Renderer String where
  validateAgainst schema input :=
    if schema = buyerSchema then some ("At  of " ++ input ++ " - required property 'buyer' not found in object\n")
    else none
  normalizeInput _ input := input
  compileTypst _ _ := .ok .empty
  engineVersion := "typst 0.15.1"

/-- A block for the number of the act and one for its buyer. -/
def avrBlocks (blocks : String) : Except BlockError (Compiled String) :=
  if blocks = "buyer" then .ok ⟨"#json(\"input.json\").buyer", buyerSchema, blocks, blocks⟩
  else .ok ⟨"#json(\"input.json\").number", avrSchema, blocks, blocks⟩

abbrev AvrStep : RenderWorld String → RenderWorld String → Prop :=
  RenderWorldStep avrRenderer avrRegistry avrBlocks (fun _ => true) sha256OfNothing

/-- A template of the organisation 7 that has been published, as the worker sees it. -/
theorem published_run {blocks : String} {compiled : Compiled String} (hCompile : avrBlocks blocks = .ok compiled) :
    ∃ t, Run (TemplateStep avrBlocks (fun _ => true) .anything) noTemplates t ∧
      t.replica = [{ newDraft 1 7 "avr" 1 blocks compiled none with status := .published }] := by
  let draft := newDraft 1 7 "avr" 1 blocks compiled none
  have hSame : recompiled avrBlocks draft = some draft := by
    simp only [recompiled, draft, newDraft, hCompile]
    rfl
  have hDrafted : Run (TemplateStep avrBlocks (fun _ => true) .anything) noTemplates _ :=
    .single (.create noTemplates 1 7 "avr" 1 blocks compiled none [draft] hCompile (by simp [noTemplates]) rfl)
  have hCopied := hDrafted.tail (.catchUp _)
  have hAsked := hCopied.tail (.readRequest _ 7 1 draft rfl rfl)
  have hQueued := hAsked.tail (.enqueue _ 0 7 1 rfl)
  have hRead := hQueued.tail (.readJob _ 7 1 draft draft List.mem_cons_self rfl rfl hSame rfl)
  have hRendered := hRead.tail (.render _ 1 7 1 draft rfl)
  have hSaved := hRendered.tail (.save _ 1 7 1 draft [draft] rfl rfl (fun _ _ => trivial) rfl)
  have hPublished := hSaved.tail (.publish _ 1 7 1 draft [{ draft with status := .published }] rfl
    (fun _ _ => trivial) rfl)
  exact ⟨_, hPublished.tail (.catchUp _), rfl⟩

def avrPayload : RenderPayload String := ⟨7, 10, some 11, "avr", avrInput⟩

/-- An act that is generated while no template is published. -/
def avrGenerated : DocumentSystem String :=
  noDocuments.launch exec 0 (.generate 7 10 11 "avr" "v1" avrInput none) (generate 7 10 11 "avr" "v1" avrInput none) 3

def avrVersion : VersionRow String := .blank 11 7 10 1 (some "v1") (some avrInput)

theorem avrGenerated_run : Run AvrStep ⟨noDocuments, noTemplates⟩ ⟨avrGenerated, noTemplates⟩ :=
  run_documents (run_launch 3 rfl (.generate 7 10 11 "avr" "v1" avrInput none (by decide +kernel)) fun _ _ => trivial)

/-- It is rendered with the template that it has recorded. -/
theorem template_recorded_avr : ∃ w, Run AvrStep ⟨noDocuments, noTemplates⟩ w ∧
    avrPayload ∈ w.documents.state.jobs ∧ avrVersion ∈ w.documents.state.tables.versions ∧
    RendersAsRecorded avrRenderer avrRegistry w avrPayload avrVersion := by
  have hNone : NothingElsePublished avrRenderer avrRegistry ⟨avrGenerated, noTemplates⟩ avrPayload avrVersion := by
    intro custom hCustom
    cases hCustom
  exact ⟨_, avrGenerated_run, List.mem_cons_self, List.mem_cons_self,
    (template_recorded ⟨rfl, rfl⟩ rfl rfl avrGenerated_run List.mem_cons_self List.mem_cons_self rfl).mpr hNone⟩

/-- A template is published before the render: it is rendered with that one, or not at all. -/
theorem template_published_between :
    (∃ w, Run AvrStep ⟨noDocuments, noTemplates⟩ w ∧ avrPayload ∈ w.documents.state.jobs ∧
      avrVersion ∈ w.documents.state.tables.versions ∧ avrRegistry.sourceOf "avr" "v1" = some avrSource ∧
      avrRenderer.staged avrRegistry w.templates.replica "avr" avrInput (some 7) =
        .ok ("#json(\"input.json\").number", avrInput)) ∧
    ∃ w, Run AvrStep ⟨noDocuments, noTemplates⟩ w ∧ avrPayload ∈ w.documents.state.jobs ∧
      avrVersion ∈ w.documents.state.tables.versions ∧
      avrRenderer.renderAndCompile avrRegistry w.templates.replica "avr" avrInput (some 7) =
        .error ("docgen: schema validation failed: At  of " ++ avrInput ++
          " - required property 'buyer' not found in object\n") := by
  constructor
  · obtain ⟨t, hPublished, hReplica⟩ := published_run (show avrBlocks "number" = .ok _ from rfl)
    refine ⟨⟨avrGenerated, t⟩, avrGenerated_run.trans (run_templates hPublished), List.mem_cons_self,
      List.mem_cons_self, rfl, ?_⟩
    rw [hReplica]
    rfl
  · obtain ⟨t, hPublished, hReplica⟩ := published_run (show avrBlocks "buyer" = .ok _ from rfl)
    refine ⟨⟨avrGenerated, t⟩, avrGenerated_run.trans (run_templates hPublished), List.mem_cons_self,
      List.mem_cons_self, ?_⟩
    rw [hReplica]
    rfl

end CyberAccountant.Documents
