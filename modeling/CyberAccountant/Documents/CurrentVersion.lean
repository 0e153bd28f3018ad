import CyberAccountant.Documents.Integrity

/-! The current version of a document.  `set_current_version` only follows a file that has been stored and
recorded; `set_pending_upload` publishes the key of an upload before the file is there. -/

namespace CyberAccountant.Documents

open CyberAccountant.Library CyberAccountant.Library.Program CyberAccountant.Ledger CyberAccountant.Files

variable {J : Type}

/-- The version's file is in the object storage, or is still to be uploaded by a client. -/
def Stored (s : Store J) (source : DocumentSource) (v : VersionRow J) (key : String) : Prop :=
  ((s.objects key).isSome ∧ v.checksumSha256.isSome) ∨ (source = .uploaded ∧ key ∈ s.uploads)

structure FilesOk (s : Store J) : Prop where
  ok : s.Ok
  keyed : ∀ v ∈ s.tables.versions, ∀ key row, v.s3Key = some key → s.tables.documents v.documentId = some row →
    Stored s row.source v key
  current : ∀ id row c, s.tables.documents id = some row → row.currentVersionId = some c →
    ∃ v ∈ s.tables.versions, v.id = c ∧ v.documentId = id ∧ v.s3Key.isSome

/-- The document, while there is one, is an upload. -/
def IsUpload (id : Uuid) (s : Store J) : Prop :=
  id ∈ s.known ∧ ∀ row, s.tables.documents id = some row → row.source = .uploaded

/-- The version, while there is one, has a key. -/
def IsKeyed (version : Uuid) (s : Store J) : Prop :=
  version ∈ s.known ∧ ∀ v ∈ s.tables.versions, v.id = version → v.s3Key.isSome

/-- What has to be when a command is called, so that it publishes no file that is not there. -/
def Founded : DocumentCommand J → Store J → Prop
  | .setPendingUpload _ id _ _, s => IsUpload id s
  | .setVersionFile _ _ file, s => (s.objects file.s3Key).isSome
  | .setCurrentVersion _ _ version, s => IsKeyed version s
  | _, _ => True

section

variable {s s' : Store J}

theorem IsUpload.grows {id : Uuid} (h : IsUpload id s) (hGrows : StoreGrows s s') : IsUpload id s' := by
  obtain ⟨hKnown, hSource⟩ := h
  refine ⟨hGrows.known id hKnown, fun row' hRow' => ?_⟩
  obtain ⟨row, hRow, -, hSame, -⟩ := hGrows.tables.document id hKnown row' hRow'
  exact hSame.trans (hSource row hRow)

theorem IsKeyed.grows {version : Uuid} (h : IsKeyed version s) (hGrows : StoreGrows s s') : IsKeyed version s' := by
  obtain ⟨hKnown, hKeyed⟩ := h
  refine ⟨hGrows.known version hKnown, fun v' hv' hId => ?_⟩
  obtain ⟨v, hv, hContinues⟩ := hGrows.tables.origin v' hv' (by rw [hId]; exact hKnown)
  exact hContinues.filed (hKeyed v hv (hContinues.id.symm.trans hId))

theorem Stored.more {source : DocumentSource} {v : VersionRow J} {key : String} (h : Stored s source v key)
    (hObjects : ∀ key, (s.objects key).isSome → (s'.objects key).isSome)
    (hUploads : ∀ key ∈ s.uploads, key ∈ s'.uploads) : Stored s' source v key := by
  rcases h with ⟨hObject, hSum⟩ | ⟨hSource, hKey⟩
  · exact .inl ⟨hObjects key hObject, hSum⟩
  · exact .inr ⟨hSource, hUploads key hKey⟩

/-- A step that leaves the versions, and the pointers but for those that it moves to versions with a key. -/
theorem FilesOk.of_documents (h : FilesOk s) (hOk : s'.Ok) (hVersions : s'.tables.versions = s.tables.versions)
    (hObjects : ∀ key, (s.objects key).isSome → (s'.objects key).isSome)
    (hUploads : ∀ key ∈ s.uploads, key ∈ s'.uploads)
    (hDocuments : ∀ id row', s'.tables.documents id = some row' → ∃ row, s.tables.documents id = some row ∧
      row'.source = row.source ∧ (row'.currentVersionId = row.currentVersionId ∨
        ∃ v ∈ s.tables.versions, row'.currentVersionId = some v.id ∧ v.documentId = id ∧ v.s3Key.isSome)) :
    FilesOk s' where
  ok := hOk
  keyed v hv key row' hKey hRow' := by
    rw [hVersions] at hv
    obtain ⟨row, hRow, hSource, -⟩ := hDocuments _ row' hRow'
    rw [hSource]
    exact (h.keyed v hv key row hKey hRow).more hObjects hUploads
  current id row' c hRow' hCurrent := by
    rw [hVersions]
    obtain ⟨row, hRow, -, hStays | ⟨v, hv, hMoved, hDocument, hKeyed⟩⟩ := hDocuments id row' hRow'
    · exact h.current id row c hRow (hStays.symm.trans hCurrent)
    · rw [hMoved] at hCurrent
      cases hCurrent
      exact ⟨v, hv, rfl, hDocument, hKeyed⟩

/-- A step that writes neither documents nor versions. -/
theorem FilesOk.of_same (h : FilesOk s) (hOk : s'.Ok) (hDocuments : s'.tables.documents = s.tables.documents)
    (hVersions : s'.tables.versions = s.tables.versions)
    (hObjects : ∀ key, (s.objects key).isSome → (s'.objects key).isSome)
    (hUploads : ∀ key ∈ s.uploads, key ∈ s'.uploads) : FilesOk s' :=
  h.of_documents hOk hVersions hObjects hUploads fun _ row' hRow' =>
    ⟨row', by rw [← hDocuments, hRow'], rfl, .inl rfl⟩

/-- A new version, of an old document or of one that has just been made, has no file. -/
theorem FilesOk.append (h : FilesOk s) (hOk : s'.Ok) {v : VersionRow J} (hBlank : v.s3Key = none)
    (hVersions : s'.tables.versions = s.tables.versions ++ [v]) (hObjects : s'.objects = s.objects)
    (hUploads : s'.uploads = s.uploads)
    (hDocuments : ∀ id row', s'.tables.documents id = some row' → s.tables.documents id = some row' ∨
      (s.tables.documents id = none ∧ row'.currentVersionId = none)) : FilesOk s' where
  ok := hOk
  keyed v' hv' key row' hKey hRow' := by
    rw [hVersions] at hv'
    rcases List.mem_append.mp hv' with hv' | hv'
    · rcases hDocuments _ row' hRow' with hRow | ⟨hNone, -⟩
      · exact (h.keyed v' hv' key row' hKey hRow).more (fun _ hSome => by rw [hObjects]; exact hSome)
          (fun _ hMem => by rw [hUploads]; exact hMem)
      · obtain ⟨row, hRow, -⟩ := h.ok.parent v' hv'
        cases hNone.symm.trans hRow
    · rw [List.mem_singleton.mp hv', hBlank] at hKey
      cases hKey
  current id row' c hRow' hCurrent := by
    rcases hDocuments id row' hRow' with hRow | ⟨-, hNone⟩
    · obtain ⟨v', hv', hFound⟩ := h.current id row' c hRow hCurrent
      exact ⟨v', by rw [hVersions]; exact List.mem_append_left _ hv', hFound⟩
    · cases hNone.symm.trans hCurrent

/-- A version gets a key, under which its file is stored or which is that of an upload. -/
theorem FilesOk.changeVersion (h : FilesOk s) (hOk : s'.Ok) {version : Uuid} {f : VersionRow J → VersionRow J}
    (hf : ∀ v, Continues v (f v)) (hDocuments : s'.tables.documents = s.tables.documents)
    (hVersions : s'.tables.versions = changeRow VersionRow.id s.tables.versions version f)
    (hObjects : s'.objects = s.objects) (hUploads : ∀ key ∈ s.uploads, key ∈ s'.uploads)
    (hStored : ∀ v ∈ s.tables.versions, v.id = version → ∀ key row, (f v).s3Key = some key →
      s.tables.documents v.documentId = some row → Stored s' row.source (f v) key) : FilesOk s' where
  ok := hOk
  keyed v' hv' key row hKey hRow := by
    rw [hVersions] at hv'
    rw [hDocuments] at hRow
    obtain ⟨v, hv, rfl⟩ := mem_changeRow.mp hv'
    by_cases hMine : v.id = version
    · rw [if_pos hMine] at hKey hRow ⊢
      rw [(hf v).documentId] at hRow
      exact hStored v hv hMine key row hKey hRow
    · rw [if_neg hMine] at hKey hRow ⊢
      exact (h.keyed v hv key row hKey hRow).more (fun _ hSome => by rw [hObjects]; exact hSome) hUploads
  current id row c hRow hCurrent := by
    rw [hDocuments] at hRow
    obtain ⟨v, hv, hId, hDocument, hKeyed⟩ := h.current id row c hRow hCurrent
    have hChanged : ∃ v' ∈ changeRow VersionRow.id s.tables.versions version f, Continues v v' :=
      changeRow_of_mem hf hv
    obtain ⟨v', hv', hContinues⟩ := hChanged
    exact ⟨v', by rw [hVersions]; exact hv', hContinues.id.trans hId, hContinues.documentId.trans hDocument,
      hContinues.filed hKeyed⟩

theorem FilesOk.deleteDocument (h : FilesOk s) (hOk : s'.Ok) (document : Uuid)
    (hTables : s'.tables = s.tables.deleteDocument document) (hObjects : s'.objects = s.objects)
    (hUploads : s'.uploads = s.uploads) : FilesOk s' where
  ok := hOk
  keyed v hv key row hKey hRow := by
    rw [hTables] at hv hRow
    exact (h.keyed v (List.mem_filter.mp hv).1 key row hKey (Table.drop_eq_some.mp hRow).2).more
      (fun _ hSome => by rw [hObjects]; exact hSome) (fun _ hMem => by rw [hUploads]; exact hMem)
  current id row c hRow hCurrent := by
    rw [hTables] at hRow ⊢
    obtain ⟨hNe, hRow⟩ := Table.drop_eq_some.mp hRow
    obtain ⟨v, hv, hId, hDocument, hKeyed⟩ := h.current id row c hRow hCurrent
    exact ⟨v, List.mem_filter.mpr ⟨hv, decide_eq_true (by rw [hDocument]; exact hNe)⟩, hId, hDocument, hKeyed⟩

/-- An update of the row of a document that leaves its pointer or moves it to a version with a key. -/
theorem FilesOk.putDocument (h : FilesOk s) {id : Uuid} {row row' : DocumentRow} (hOk : s'.Ok)
    (hRow : s.tables.documents id = some row) (hDocuments : s'.tables.documents = s.tables.documents.put id row')
    (hSource : row'.source = row.source) (hPointer : row'.currentVersionId = row.currentVersionId ∨
      ∃ v ∈ s.tables.versions, row'.currentVersionId = some v.id ∧ v.documentId = id ∧ v.s3Key.isSome)
    (hVersions : s'.tables.versions = s.tables.versions) (hObjects : s'.objects = s.objects)
    (hUploads : s'.uploads = s.uploads) : FilesOk s' := by
  refine h.of_documents hOk hVersions (fun _ h => by rw [hObjects]; exact h) (fun _ h => by rw [hUploads]; exact h)
    fun id' found hFound => ?_
  rw [hDocuments] at hFound
  rcases Table.put_eq_some.mp hFound with ⟨rfl, rfl⟩ | ⟨-, hFound⟩
  · exact ⟨row, hRow, hSource, hPointer⟩
  · exact ⟨found, hFound, rfl, .inl rfl⟩

/-- A command that is called where it may be publishes no file that is not there. -/
theorem Effect.filesOk {c : DocumentCommand J} (hEffect : Effect s c s') (h : FilesOk s) (hFounded : Founded c s) :
    FilesOk s' := by
  have hOk : s'.Ok := (hEffect.ok h.ok).1
  cases hEffect with
  | nothing => exact h
  | create org d hNew hNewVersion =>
    refine h.append hOk (v := .blank d.versionId org d.id 1 d.templateVersion d.inputSnapshot) rfl rfl rfl rfl
      fun id row' hRow' => ?_
    rcases Table.put_eq_some.mp hRow' with ⟨rfl, rfl⟩ | ⟨-, hRow⟩
    · refine .inr ⟨?_, rfl⟩
      exact Option.eq_none_iff_forall_ne_some.mpr fun row hRow => hNew (h.ok.documentKnown d.id row hRow)
    · exact .inl hRow
  | setPendingUpload org id s3Key mime row v hRow hVersion hDocument hNewest =>
    have hf := continues_pending (J := J) s3Key mime
    have hSource : row.source = .uploaded := hFounded.2 row hRow
    -- The version gets its key first, and then becomes the current one.
    let changed : Store J :=
      { s.withTables { s.tables with
          versions := changeRow VersionRow.id s.tables.versions v.id (.pending s3Key mime) } with
        uploads := s3Key :: s.uploads }
    have hChanged : FilesOk changed := by
      refine h.changeVersion (TablesOk.changeVersion h.ok hf) hf rfl rfl rfl
        (fun _ h => List.mem_cons_of_mem _ h) fun v' hv' hId key row' hKey hRow' => ?_
      cases hKey
      rw [h.ok.versionIds v' hv' v hVersion hId, hDocument, hRow] at hRow'
      cases hRow'
      exact .inr ⟨hSource, List.mem_cons_self⟩
    have hPending : v.pending s3Key mime ∈ changed.tables.versions :=
      mem_changeRow.mpr ⟨v, hVersion, by rw [if_pos rfl]⟩
    exact hChanged.putDocument hOk hRow rfl rfl (.inr ⟨_, hPending, rfl, hDocument, rfl⟩) rfl rfl rfl
  | addVersion org document versionId inputSnapshot templateVersion row v hRow hNew hBlank =>
    exact h.append hOk (by rw [hBlank]; rfl) rfl rfl rfl fun _ _ hRow => .inl hRow
  | setVersionFile org version file =>
    refine h.changeVersion hOk (continues_filed file) rfl rfl rfl (fun _ h => h) fun v _ _ key row hKey _ => ?_
    cases hKey
    exact .inl ⟨hFounded, rfl⟩
  | setCurrentVersion org document version row v hRow hVersion hId hDocument hNewest =>
    subst hId
    have hKeyed : v.s3Key.isSome := hFounded.2 v hVersion rfl
    exact h.putDocument hOk hRow rfl rfl (.inr ⟨v, hVersion, rfl, hDocument, hKeyed⟩) rfl rfl rfl
  | setStatus org id status row hRow => exact h.putDocument hOk hRow rfl rfl (.inl rfl) rfl rfl rfl
  | setStatusIf org id source target row hRow => exact h.putDocument hOk hRow rfl rfl (.inl rfl) rfl rfl rfl
  | voidDocument org id voiding row hRow hLive => exact h.putDocument hOk hRow rfl rfl (.inl rfl) rfl rfl rfl
  | linkEntry org document entry => exact h.of_same hOk rfl rfl (fun _ h => h) fun _ h => h
  | remove org document row hRow hLive => exact h.deleteDocument hOk document rfl rfl rfl
  | putObject key bytes => exact h.of_same hOk rfl rfl (fun _ h => isSome_put h) fun _ h => h
  | submit payload => exact h.of_same hOk rfl rfl (fun _ h => h) fun _ h => h

theorem Elsewhere.filesOk (h : Elsewhere s s') (hFiles : FilesOk s) : FilesOk s' := by
  obtain ⟨hOk, hGrows⟩ := elsewhere_ok hFiles.ok h
  obtain ⟨hDocuments, hVersions⟩ := h.same
  exact hFiles.of_same hOk hDocuments hVersions hGrows.objects hGrows.uploads

end

/-! ### The operations -/

/-- Every command that the program comes to is called where it may be, whatever the others do meanwhile. -/
abbrev FoundedFrom {α : Type} (p : DocumentM J α) (s : Store J) : Prop := SoundAlone exec FilesOk StoreGrows p s

section

variable {s : Store J} {α : Type}

theorem Founded.keeps {c : DocumentCommand J} (h : Founded c s) : Keeps exec FilesOk StoreGrows c s :=
  fun hFiles => ⟨(exec_effect c s).filesOk hFiles h, (exec_ok hFiles.ok c).2⟩

theorem FoundedFrom.call {c : DocumentCommand J} {next : c.Reply → DocumentM J α}
    (hFounded : ∀ s', StoreGrows s s' → Founded c s')
    (hNext : ∀ s', StoreGrows s s' → FilesOk s' → FoundedFrom (next (exec c s').1) (exec c s').2) :
    FoundedFrom (.call c next) s :=
  SoundAlone.call (fun s' hGrows _ => (hFounded s' hGrows).keeps) hNext

theorem create_isUpload {org : Uuid} {d : NewDocument J} (hSource : d.source = .uploaded)
    (h : (exec (.create org d) s).1 = true) : IsUpload d.id (exec (.create org d) s).2 := by
  obtain ⟨hKnown, hRow⟩ := create_row h
  refine ⟨hKnown, fun row hRow' => ?_⟩
  obtain rfl := Option.some.inj (hRow.symm.trans hRow')
  exact hSource

theorem setVersionFile_isKeyed {org version : Uuid} {file : StoredFile} (hFiles : FilesOk s)
    (h : (exec (.setVersionFile org version file) s).1 = true) :
    IsKeyed version (exec (.setVersionFile org version file) s).2 := by
  cases hResult : s.tables.setVersionFile org version file with
  | none =>
    simp only [exec, hResult, Store.write] at h
    cases h
  | some t' =>
    simp only [exec, hResult, Store.write]
    obtain ⟨v, hv, hId, -, rfl⟩ := Tables.setVersionFile_some hResult
    refine ⟨by rw [← hId]; exact hFiles.ok.versionKnown v hv, fun v' hv' hId' => ?_⟩
    obtain ⟨before, -, rfl⟩ := mem_changeRow.mp hv'
    by_cases hMine : before.id = version
    · rw [if_pos hMine]
      rfl
    · rw [if_neg hMine] at hId'
      exact absurd hId' hMine

theorem startUpload_founded (org id versionId : Uuid) (s3Key mime : String) (inputSnapshot : J) :
    FoundedFrom (startUpload org id versionId s3Key mime inputSnapshot) s := by
  refine .call (fun _ _ => trivial) fun s' _ _ => ?_
  cases hCreated : (exec (.create org ⟨id, versionId, .uploaded, .draft, none, none, some inputSnapshot⟩) s').1 with
  | false => trivial
  | true =>
    have hUpload := create_isUpload rfl hCreated
    exact .call (fun _ hGrows => hUpload.grows hGrows) fun _ _ _ => .call (fun _ _ => trivial) fun _ _ _ => trivial

theorem confirmUpload_founded (org id : Uuid) (checksum : String) (sizeBytes : Nat) :
    FoundedFrom (confirmUpload org id checksum sizeBytes : DocumentM J Unit) s := by
  refine .call (fun _ _ => trivial) fun s' _ _ => ?_
  cases (exec (.findInOrg id org true) s').1 with
  | none => trivial
  | some found =>
    simp only [Program.bind]
    split
    · trivial
    · rename_i version s3Key mime _
      refine .call (fun _ _ => trivial) fun s'' _ _ => ?_
      cases hExists : (exec (.objectExists s3Key) s'').1 with
      | false => trivial
      | true =>
        refine .call (fun s₃ hGrows => hGrows.objects s3Key hExists) fun s₃ _ _ => ?_
        exact .call (fun _ _ => trivial) fun _ _ _ => .call (fun _ _ => trivial) fun _ _ _ => trivial

/-- A render puts its object, records it, and only then publishes it. -/
theorem publish_founded (org document version : Uuid) (file : StoredFile) (bytes : ByteArray) :
    FoundedFrom (do
      call (.putObject file.s3Key bytes)
      if ← call (.setVersionFile org version file) then do
        if ← call (.setCurrentVersion org document version) then do
          let _ ← call (.setStatusIf org document .draft .final)
          pure ()
        else pure ()
      else pure () : DocumentM J Unit) s := by
  refine .call (fun _ _ => trivial) fun s' _ _ => ?_
  have hPut : ((exec (.putObject file.s3Key bytes) s').2.objects file.s3Key).isSome := by
    show (s'.objects.put file.s3Key bytes file.s3Key).isSome
    rw [Table.put_same]
    rfl
  refine .call (fun _ hGrows => hGrows.objects file.s3Key hPut) fun s'' _ hFiles => ?_
  cases hRecorded : (exec (.setVersionFile org version file) s'').1 with
  | false => trivial
  | true =>
    have hKeyed := setVersionFile_isKeyed hFiles hRecorded
    refine .call (fun _ hGrows => hKeyed.grows hGrows) fun s₃ _ _ => ?_
    cases (exec (.setCurrentVersion org document version) s₃).1 with
    | false => trivial
    | true => exact .call (fun _ _ => trivial) fun _ _ _ => trivial

theorem storeRender_founded {sha256Hex : ByteArray → String} (payload : RenderPayload J) (version : Uuid)
    (bytes : ByteArray) (engine : String) :
    FoundedFrom (storeRender sha256Hex payload version bytes engine) s := by
  refine .call (fun _ _ => trivial) fun s' _ _ => ?_
  cases (exec (.versionRenderState payload.orgId payload.documentId version) s').1 with
  | missing | alreadyRendered | superseded | voided => trivial
  | renderable => exact publish_founded payload.orgId payload.documentId version ⟨_, _, _, _, _⟩ bytes

theorem processJob_founded {sha256Hex : ByteArray → String} (payload : RenderPayload J) (bytes : ByteArray)
    (engine : String) : FoundedFrom (processJob sha256Hex payload bytes engine) s := by
  unfold processJob
  split
  · exact storeRender_founded payload _ bytes engine
  · refine .call (fun _ _ => trivial) fun s' _ _ => ?_
    cases (exec (.latestVersion payload.orgId payload.documentId true) s').1 with
    | none => trivial
    | some latest =>
      simp only [Program.bind]
      split
      · trivial
      · exact storeRender_founded payload latest.id bytes engine

theorem operation_founded {sha256Hex : ByteArray → String} {op : Operation J} {program : DocumentM J Unit}
    (h : Starts sha256Hex op program) : FoundedFrom program s := by
  -- The other operations neither record keys nor move pointers.
  have hOther : (∀ c, op.MayCall sha256Hex c → ∀ s, Founded c s) → FoundedFrom (op.program sha256Hex) s := fun hAll =>
    .of_calls ((op.program_calls sha256Hex).mono fun c hMay s => (hAll c hMay s).keeps) s
  rw [h]
  cases op with
  | startUpload org id versionId s3Key mime inputSnapshot =>
    exact startUpload_founded org id versionId s3Key mime inputSnapshot
  | confirmUpload org id checksum sizeBytes => exact confirmUpload_founded org id checksum sizeBytes
  | processJob payload bytes engine => exact processJob_founded payload bytes engine
  | generate | createVersion | remove | voidDocument =>
    refine hOther fun c hMay s => ?_
    cases c with
    | setPendingUpload | setVersionFile | setCurrentVersion => exact hMay.elim
    | create | addVersion | findInOrg | latestVersion | versionRenderState | setStatus | setStatusIf | linkEntry
    | remove | voidDocument | putObject | objectExists | submit => trivial

theorem NoDocuments.filesOk (h : NoDocuments s) : FilesOk s where
  ok := h.ok
  keyed v hv := by
    rw [h.versions] at hv
    cases hv
  current id row c hRow := by
    rw [h.documents] at hRow
    cases hRow

theorem filesOk_run {sha256Hex : ByteArray → String} {w w' : DocumentSystem J} (hEmpty : NoDocuments w.state)
    (hIdle : w.processes = Table.empty) (hRun : Run (DocumentStep sha256Hex Always) w w') : FilesOk w'.state :=
  SoundAlone.run (fun _ => .refl _) (fun _ _ _ hAB hBC => hAB.trans hBC)
    (fun _ _ hStarts _ _ => operation_founded hStarts)
    (fun _ _ hFiles hElsewhere => ⟨hElsewhere.filesOk hFiles, (elsewhere_ok hFiles.ok hElsewhere).2⟩)
    hEmpty.filesOk hIdle hRun

end

/-! ### Every run -/

/-- A pointer leads to a version of the same document and organisation, with a file that is stored or that a
client is to upload. -/
def CurrentValid (s : Store J) : Prop :=
  ∀ id row c, s.tables.documents id = some row → row.currentVersionId = some c →
    ∃ v ∈ s.tables.versions, v.id = c ∧ v.documentId = id ∧ v.orgId = row.orgId ∧
      ∃ key, v.s3Key = some key ∧ Stored s row.source v key

/-- A pointer only moves to versions with higher numbers. -/
def CurrentForward (s s' : Store J) : Prop :=
  ∀ id row row', s.tables.documents id = some row → s'.tables.documents id = some row' →
    ∀ v ∈ s.tables.versions, row.currentVersionId = some v.id →
      ∃ v' ∈ s'.tables.versions, row'.currentVersionId = some v'.id ∧ v'.documentId = id ∧ v.versionNo ≤ v'.versionNo

/-- A number of a document stays that of one version. -/
def NumbersKept (s s' : Store J) : Prop :=
  ∀ v ∈ s.tables.versions, ∀ v' ∈ s'.tables.versions, v.documentId = v'.documentId → v.versionNo = v'.versionNo →
    v'.id = v.id

theorem FilesOk.currentValid {s : Store J} (h : FilesOk s) : CurrentValid s := by
  intro id row c hRow hCurrent
  obtain ⟨v, hv, hId, rfl, hKeyed⟩ := h.current id row c hRow hCurrent
  obtain ⟨key, hKey⟩ := Option.isSome_iff_exists.mp hKeyed
  obtain ⟨parent, hParent, hOrg⟩ := h.ok.parent v hv
  rw [hRow] at hParent
  cases hParent
  exact ⟨v, hv, hId, rfl, hOrg.symm, key, hKey, h.keyed v hv key row hKey hRow⟩

theorem StoreGrows.currentForward {s s' : Store J} (h : StoreGrows s s') (hOk : s.Ok) (hOk' : s'.Ok) :
    CurrentForward s s' := by
  intro id row row' hRow hRow' v hv hCurrent
  obtain ⟨v', hv', hCurrent', hLe⟩ :=
    h.tables.current id (hOk.documentKnown id row hRow) row row' v.id hRow hRow' hCurrent v hv rfl
  obtain ⟨found, hFound, hId, hDocument⟩ := hOk'.current id row' v'.id hRow' hCurrent'
  rw [hOk'.versionIds found hFound v' hv' hId] at hDocument
  exact ⟨v', hv', hCurrent', hDocument, hLe⟩

theorem StoreGrows.numbersKept {s s' : Store J} (h : StoreGrows s s') (hOk : s.Ok) (hOk' : s'.Ok) :
    NumbersKept s s' := by
  intro v hv v' hv' hDocument hNo
  obtain ⟨row, hRow, -⟩ := hOk.parent v hv
  obtain ⟨row', hRow', -⟩ := hOk'.parent v' hv'
  -- The document is still there, and so is the version that has the number.
  obtain ⟨kept, hKept, hContinues⟩ := h.tables.version v hv (hOk.documentKnown _ row hRow)
    (by rw [hDocument, hRow']; rfl)
  have hSame : kept.id = v'.id := hOk'.numbers kept hKept v' hv' (hContinues.documentId.trans hDocument)
    (hContinues.versionNo.trans hNo)
  exact hSame.symm.trans hContinues.id

def contractMade : DocumentSystem String :=
  ran sha256OfNothing noDocuments 0 (.generate 1 10 11 "contract" "v1" "input" none) 3

/-- The contract has been rendered. -/
def contractRendered : DocumentSystem String :=
  ran sha256OfNothing contractMade 1 (.processJob ⟨1, 10, some 11, "contract", "input"⟩ .empty "typst") 5

/-- It has a second version, for which the replica has caught up. -/
def contractEdited : DocumentSystem String :=
  ran sha256OfNothing
    { contractRendered with state := { contractRendered.state with replica := contractRendered.state.tables } } 2
    (.createVersion 1 10 12 fun _ _ => some ("edited", "v1")) 4

def contractRenderedAgain : DocumentSystem String :=
  ran sha256OfNothing contractEdited 3 (.processJob ⟨1, 10, some 12, "contract", "edited"⟩ .empty "typst") 5

def receiptKey : String := "org/1/inbox/7-receipt.pdf"

/-- A receipt that a client is to upload. -/
def receiptStarted : DocumentSystem String :=
  ran sha256OfNothing noDocuments 0 (.startUpload 1 20 21 receiptKey "application/pdf" "receipt.pdf") 3

end CyberAccountant.Documents
