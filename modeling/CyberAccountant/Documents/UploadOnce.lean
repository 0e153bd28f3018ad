import CyberAccountant.Documents.Integrity

/-! Confirmations of an upload.  A request checks that the document is a draft, records the file in its
version and then sets the status, each in a transaction of its own. -/

namespace CyberAccountant.Documents

open CyberAccountant.Library CyberAccountant.Library.Program CyberAccountant.Ledger

variable {J : Type}

/-- A `confirmUpload` request that has passed the checks of its body. -/
structure ConfirmRequest where
  org : Uuid
  document : Uuid
  checksum : String
  sizeBytes : Nat

/-- How far a request has come; from `pending` on with the version, its key and its mime. -/
inductive ConfirmStage where
  | received
  | pending (version : Uuid) (s3Key mime : String)
  | present (version : Uuid) (s3Key mime : String)
  | filed (version : Uuid) (s3Key mime : String)
  | finalised (version : Uuid) (s3Key mime : String)
  | answered (version : Uuid) (s3Key mime : String)
  | refused

namespace ConfirmRequest

def file (r : ConfirmRequest) (s3Key mime : String) : StoredFile := ⟨s3Key, r.checksum, mime, r.sizeBytes, none⟩

def afterFind : Option (Document J) → ConfirmStage
  | none => .refused
  | some found =>
    match pendingUpload? found with
    | none => .refused
    | some (version, s3Key, mime) => .pending version s3Key mime

def afterExists (version : Uuid) (s3Key mime : String) : Bool → ConfirmStage
  | true => .present version s3Key mime
  | false => .refused

/-- What the request has yet to do. -/
def rest (r : ConfirmRequest) : ConfirmStage → DocumentM J Unit
  | .received => confirmUpload r.org r.document r.checksum r.sizeBytes
  | .pending version s3Key mime => do
    if ← call (.objectExists s3Key) then do
      let _ ← call (.setVersionFile r.org version (r.file s3Key mime))
      let _ ← call (.setStatus r.org r.document .final)
      let _ ← call (.findInOrg r.document r.org true)
      pure ()
    else pure ()
  | .present version s3Key mime => do
    let _ ← call (.setVersionFile r.org version (r.file s3Key mime))
    let _ ← call (.setStatus r.org r.document .final)
    let _ ← call (.findInOrg r.document r.org true)
    pure ()
  | .filed _ _ _ => do
    let _ ← call (.setStatus r.org r.document .final)
    let _ ← call (.findInOrg r.document r.org true)
    pure ()
  | .finalised _ _ _ => do
    let _ ← call (.findInOrg r.document r.org true)
    pure ()
  | .answered _ _ _ | .refused => pure ()

variable (r : ConfirmRequest) (version : Uuid) (s3Key mime : String)

theorem rest_received : (r.rest .received : DocumentM J Unit) =
    .call (.findInOrg r.document r.org true) fun found => r.rest (afterFind found) := by
  refine congrArg (Program.call _) (funext fun found => ?_)
  cases found with
  | none => rfl
  | some found =>
    simp only [Program.bind, afterFind]
    cases pendingUpload? found with
    | none => rfl
    | some pending =>
      refine congrArg (Program.call _) (funext fun isThere => ?_)
      cases isThere <;> rfl

theorem rest_pending : (r.rest (.pending version s3Key mime) : DocumentM J Unit) =
    .call (.objectExists s3Key) fun isThere => r.rest (afterExists version s3Key mime isThere) := by
  refine congrArg (Program.call _) (funext fun isThere => ?_)
  cases isThere <;> rfl

theorem rest_present : (r.rest (.present version s3Key mime) : DocumentM J Unit) =
    .call (.setVersionFile r.org version (r.file s3Key mime)) fun _ => r.rest (.filed version s3Key mime) := rfl

theorem rest_filed : (r.rest (.filed version s3Key mime) : DocumentM J Unit) =
    .call (.setStatus r.org r.document .final) fun _ => r.rest (.finalised version s3Key mime) := rfl

theorem rest_finalised : (r.rest (.finalised version s3Key mime) : DocumentM J Unit) =
    .call (.findInOrg r.document r.org true) fun _ => r.rest (.answered version s3Key mime) := rfl

end ConfirmRequest

/-- The document, if it is there, is not an upload. -/
def NotUploaded (s : Store J) (id : Uuid) : Prop := ∀ row, s.tables.documents id = some row → row.source ≠ .uploaded

/-- The calls that the other operations make: an upload begins as a draft, it gets its key once, and only its
confirmations write its file and its status. -/
def LeavesUploads (s : Store J) : DocumentCommand J → Prop
  | .create _ d => d.source = .uploaded → d.status = .draft
  | .setPendingUpload _ id _ _ => ∀ row, s.tables.documents id = some row → row.source = .uploaded →
      row.currentVersionId = none
  | .setVersionFile _ version _ => ∀ v ∈ s.tables.versions, v.id = version → NotUploaded s v.documentId
  | .setCurrentVersion _ document _ | .setStatus _ document _ | .setStatusIf _ document _ _ => NotUploaded s document
  | _ => True

structure ConfirmWorld (J : Type) where
  store : Store J
  requests : Table Nat (ConfirmRequest × ConfirmStage)

/-- The next step of a request; it writes only where `Guard` admits it. -/
inductive Confirming (Guard : Store J → ConfirmRequest → ConfirmStage → Prop) :
    ConfirmWorld J → ConfirmWorld J → Prop where
  | find (w : ConfirmWorld J) (n : Nat) (r : ConfirmRequest) (hHere : w.requests n = some (r, .received)) :
      Confirming Guard w { w with
        requests := w.requests.put n (r, ConfirmRequest.afterFind (w.store.tables.findInOrg r.document r.org)) }
  | exists (w : ConfirmWorld J) (n : Nat) (r : ConfirmRequest) (version : Uuid) (s3Key mime : String)
      (hHere : w.requests n = some (r, .pending version s3Key mime)) :
      Confirming Guard w { w with
        requests := w.requests.put n
          (r, ConfirmRequest.afterExists version s3Key mime (w.store.objects s3Key).isSome) }
  | setVersionFile (w : ConfirmWorld J) (n : Nat) (r : ConfirmRequest) (version : Uuid) (s3Key mime : String)
      (hHere : w.requests n = some (r, .present version s3Key mime))
      (hGuard : Guard w.store r (.present version s3Key mime)) :
      Confirming Guard w {
        store := (exec (.setVersionFile r.org version (r.file s3Key mime)) w.store).2
        requests := w.requests.put n (r, .filed version s3Key mime) }
  | setStatus (w : ConfirmWorld J) (n : Nat) (r : ConfirmRequest) (version : Uuid) (s3Key mime : String)
      (hHere : w.requests n = some (r, .filed version s3Key mime))
      (hGuard : Guard w.store r (.filed version s3Key mime)) :
      Confirming Guard w {
        store := (exec (.setStatus r.org r.document .final) w.store).2
        requests := w.requests.put n (r, .finalised version s3Key mime) }
  | answer (w : ConfirmWorld J) (n : Nat) (r : ConfirmRequest) (version : Uuid) (s3Key mime : String)
      (hHere : w.requests n = some (r, .finalised version s3Key mime)) :
      Confirming Guard w { w with requests := w.requests.put n (r, .answered version s3Key mime) }

inductive ConfirmStep (Guard : Store J → ConfirmRequest → ConfirmStage → Prop) :
    ConfirmWorld J → ConfirmWorld J → Prop where
  | start (w : ConfirmWorld J) (n : Nat) (r : ConfirmRequest) (hFree : w.requests n = none) :
      ConfirmStep Guard w { w with requests := w.requests.put n (r, .received) }
  | confirm (w w' : ConfirmWorld J) (hStep : Confirming Guard w w') : ConfirmStep Guard w w'
  | other (w : ConfirmWorld J) (c : DocumentCommand J) (hLeaves : LeavesUploads w.store c) :
      ConfirmStep Guard w { w with store := (exec c w.store).2 }
  | elsewhere (w : ConfirmWorld J) (s : Store J) (hChange : Elsewhere w.store s) :
      ConfirmStep Guard w { w with store := s }

/-- The file that a request has written is that of the version. -/
def HasFile (s : Store J) (r : ConfirmRequest) (version : Uuid) (s3Key mime : String) : Prop :=
  ∃ v ∈ s.tables.versions, v.id = version ∧ v.s3Key = some s3Key ∧ v.checksumSha256 = some r.checksum ∧
    v.mime = some mime ∧ v.sizeBytes = some r.sizeBytes

def IsDraft (s : Store J) (id : Uuid) : Prop := ∃ row, s.tables.documents id = some row ∧ row.status = .draft

/-- The document is still a draft where the request writes the file, and where it sets the status the version
still has that file. -/
def StillPending (s : Store J) (r : ConfirmRequest) : ConfirmStage → Prop
  | .filed version s3Key mime => IsDraft s r.document ∧ HasFile s r version s3Key mime
  | _ => IsDraft s r.document

/-- The request has answered that the upload is confirmed. -/
def Answered (w : ConfirmWorld J) (n : Nat) (r : ConfirmRequest) (version : Uuid) (s3Key mime : String) : Prop :=
  w.requests n = some (r, .answered version s3Key mime)

/-- A final upload points to a version of its own that has a checksum and a size. -/
def Complete (s : Store J) : Prop :=
  ∀ id row, s.tables.documents id = some row → row.source = .uploaded → row.status = .final →
    ∃ v ∈ s.tables.versions, row.currentVersionId = some v.id ∧ v.documentId = id ∧ v.checksumSha256.isSome ∧
      v.sizeBytes.isSome

/-- At most one request of a document answers so; then the document, while it is there, is final with the file
of that request in the version that it points to. -/
structure WriteOnce (w : ConfirmWorld J) : Prop where
  unique : ∀ n m r r' version version' s3Key s3Key' mime mime', Answered w n r version s3Key mime →
    Answered w m r' version' s3Key' mime' → r.document = r'.document → n = m
  written : ∀ n r version s3Key mime, Answered w n r version s3Key mime → ∀ row,
    w.store.tables.documents r.document = some row →
      row.status = .final ∧ row.currentVersionId = some version ∧ HasFile w.store r version s3Key mime
  complete : Complete w.store

/-- What is not an upload is as it was. -/
def OthersKept (s s' : Store J) : Prop :=
  ∀ id row, s.tables.documents id = some row → row.source ≠ .uploaded →
    s'.tables.documents id = some row ∧ s'.tables.versionsOf id = s.tables.versionsOf id

/-! ### What the other operations leave -/

def SameFile (v v' : VersionRow J) : Prop :=
  v'.s3Key = v.s3Key ∧ v'.checksumSha256 = v.checksumSha256 ∧ v'.mime = v.mime ∧ v'.sizeBytes = v.sizeBytes

/-- Uploads keep their status, and, once they point to a version, that version and its file. -/
structure UploadsKept (s s' : Store J) : Prop where
  row : ∀ id ∈ s.known, ∀ row', s'.tables.documents id = some row' → row'.source = .uploaded →
    ∃ row, s.tables.documents id = some row ∧ row'.status = row.status ∧
      (row.currentVersionId.isSome → row'.currentVersionId = row.currentVersionId)
  new : ∀ id row', s'.tables.documents id = some row' → id ∉ s.known → row'.source = .uploaded → row'.status = .draft
  file : ∀ v ∈ s.tables.versions, ∀ row, s.tables.documents v.documentId = some row → row.source = .uploaded →
    row.currentVersionId.isSome → (s'.tables.documents v.documentId).isSome →
    ∃ v' ∈ s'.tables.versions, v'.id = v.id ∧ v'.documentId = v.documentId ∧ SameFile v v'

section

variable {s s' : Store J}

/-- A step that writes no document, and no version but new ones. -/
theorem UploadsKept.of_documents (hOk : s.Ok) (hDocuments : s'.tables.documents = s.tables.documents)
    (hVersions : ∀ v ∈ s.tables.versions, v ∈ s'.tables.versions) : UploadsKept s s' where
  row id _ row' hRow' _ := ⟨row', by rw [← hDocuments, hRow'], rfl, fun _ => rfl⟩
  new id row' hRow' hNew _ := by
    rw [hDocuments] at hRow'
    exact absurd (hOk.documentKnown id row' hRow') hNew
  file v hv _ _ _ _ _ := ⟨v, hVersions v hv, rfl, rfl, rfl, rfl, rfl, rfl⟩

/-- A step that writes the row of a document. -/
theorem UploadsKept.putDocument (hOk : s.Ok) {id : Uuid} {row row' : DocumentRow}
    (hRow : s.tables.documents id = some row) (hDocuments : s'.tables.documents = s.tables.documents.put id row')
    (hVersions : s'.tables.versions = s.tables.versions)
    (hSame : row'.source = .uploaded → row'.status = row.status ∧
      (row.currentVersionId.isSome → row'.currentVersionId = row.currentVersionId)) : UploadsKept s s' where
  row id' _ row'' hRow'' hUploaded := by
    rw [hDocuments] at hRow''
    rcases Table.put_eq_some.mp hRow'' with ⟨rfl, rfl⟩ | ⟨-, hRow''⟩
    · exact ⟨row, hRow, hSame hUploaded⟩
    · exact ⟨row'', hRow'', rfl, fun _ => rfl⟩
  new id' row'' hRow'' hNew _ := by
    rw [hDocuments] at hRow''
    rcases Table.put_eq_some.mp hRow'' with ⟨rfl, -⟩ | ⟨-, hRow''⟩
    · exact absurd (hOk.documentKnown _ row hRow) hNew
    · exact absurd (hOk.documentKnown id' row'' hRow'') hNew
  file v hv _ _ _ _ _ := ⟨v, by rw [hVersions]; exact hv, rfl, rfl, rfl, rfl, rfl, rfl⟩

theorem UploadsKept.create (hOk : s.Ok) {org : Uuid} {d : NewDocument J} (hDraft : d.source = .uploaded → d.status = .draft)
    (hNew : d.id ∉ s.known) :
    UploadsKept s { s.withTables (s.tables.create org d) with known := d.versionId :: d.id :: s.known } where
  row id hKnown row' hRow' _ := by
    rcases Table.put_eq_some.mp hRow' with ⟨rfl, -⟩ | ⟨-, hRow'⟩
    · exact absurd hKnown hNew
    · exact ⟨row', hRow', rfl, fun _ => rfl⟩
  new id row' hRow' hFresh hUploaded := by
    rcases Table.put_eq_some.mp hRow' with ⟨-, rfl⟩ | ⟨-, hRow'⟩
    · exact hDraft hUploaded
    · exact absurd (hOk.documentKnown id row' hRow') hFresh
  file v hv _ _ _ _ _ := ⟨v, List.mem_append_left _ hv, rfl, rfl, rfl, rfl, rfl, rfl⟩

theorem UploadsKept.deleteDocument (hOk : s.Ok) (document : Uuid) :
    UploadsKept s (s.withTables (s.tables.deleteDocument document)) where
  row id _ row' hRow' _ := ⟨row', (Table.drop_eq_some.mp hRow').2, rfl, fun _ => rfl⟩
  new id row' hRow' hNew _ := absurd (hOk.documentKnown id row' (Table.drop_eq_some.mp hRow').2) hNew
  file v hv _ _ _ _ hThere := by
    obtain ⟨row', hRow'⟩ := Option.isSome_iff_exists.mp hThere
    refine ⟨v, List.mem_filter.mpr ⟨hv, ?_⟩, rfl, rfl, rfl, rfl, rfl, rfl⟩
    simpa using (Table.drop_eq_some.mp hRow').1

/-- A version is changed that is of no upload, or of one that points to none. -/
theorem UploadsKept.changeVersion {documents : Table Uuid DocumentRow} {uploads : List String} {version : Uuid}
    {f : VersionRow J → VersionRow J}
    (hRows : UploadsKept s { s.withTables { s.tables with documents } with uploads })
    (hApart : ∀ v ∈ s.tables.versions, v.id = version → ∀ row, s.tables.documents v.documentId = some row →
      row.source = .uploaded → row.currentVersionId = none) :
    UploadsKept s { s.withTables { s.tables with
      versions := changeRow VersionRow.id s.tables.versions version f, documents } with uploads } where
  row := hRows.row
  new := hRows.new
  file v hv row hRow hUploaded hPoints _ := by
    have hNot : v.id ≠ version := fun hId => by
      rw [hApart v hv hId row hRow hUploaded] at hPoints
      cases hPoints
    exact ⟨v, mem_changeRow.mpr ⟨v, hv, (if_neg hNot).symm⟩, rfl, rfl, rfl, rfl, rfl, rfl⟩

theorem exec_uploadsKept (hOk : s.Ok) {c : DocumentCommand J} (hLeaves : LeavesUploads s c) :
    UploadsKept s (exec c s).2 := by
  have hEffect := exec_effect c s
  generalize hAfter : (exec c s).2 = s' at hEffect
  cases hEffect with
  | nothing => exact .of_documents hOk rfl fun _ h => h
  | create org d hNew hNewVersion => exact .create hOk hLeaves hNew
  | setPendingUpload org id s3Key mime row v hRow hVersion hDocument hNewest =>
    have hFirst : row.source = .uploaded → row.currentVersionId = none := hLeaves row hRow
    refine .changeVersion (.putDocument hOk hRow rfl rfl fun hUploaded => ⟨rfl, fun hPoints => ?_⟩)
      fun u hu hId row' hRow' hUploaded => ?_
    · rw [hFirst hUploaded] at hPoints
      cases hPoints
    · rw [hOk.versionIds u hu v hVersion hId, hDocument, hRow] at hRow'
      cases hRow'
      exact hFirst hUploaded
  | addVersion org document versionId inputSnapshot templateVersion row v hRow hNew hBlank =>
    exact .of_documents hOk rfl fun _ h => List.mem_append_left _ h
  | setVersionFile org version file =>
    refine UploadsKept.changeVersion (.of_documents hOk rfl fun _ h => h) fun v hv hId row hRow hUploaded => ?_
    exact absurd hUploaded (hLeaves v hv hId row hRow)
  | setCurrentVersion org document version row v hRow =>
    exact .putDocument hOk hRow rfl rfl fun hUploaded => absurd hUploaded (hLeaves row hRow)
  | setStatus org id status row hRow =>
    exact .putDocument hOk hRow rfl rfl fun hUploaded => absurd hUploaded (hLeaves row hRow)
  | setStatusIf org id source target row hRow =>
    exact .putDocument hOk hRow rfl rfl fun hUploaded => absurd hUploaded (hLeaves row hRow)
  | linkEntry | putObject | submit => exact .of_documents hOk rfl fun _ h => h
  | remove org document => exact .deleteDocument hOk document
  | voidDocument org id voiding row hRow => exact .putDocument hOk hRow rfl rfl fun _ => ⟨rfl, fun _ => rfl⟩

theorem Elsewhere.uploadsKept (hOk : s.Ok) (h : Elsewhere s s') : UploadsKept s s' :=
  .of_documents hOk h.same.1 fun v hv => by rwa [h.same.2]

end

/-! ### The requests -/

def ConfirmStage.version? : ConfirmStage → Option Uuid
  | .received | .refused => none
  | .pending version _ _ | .present version _ _ | .filed version _ _ | .finalised version _ _
  | .answered version _ _ => some version

/-- The version of a request is the one that its document, an upload, points to. -/
structure OfUpload (s : Store J) (r : ConfirmRequest) (version : Uuid) : Prop where
  known : r.document ∈ s.known
  versionKnown : version ∈ s.known
  document : ∀ v ∈ s.tables.versions, v.id = version → v.documentId = r.document
  row : ∀ row, s.tables.documents r.document = some row →
    row.source = .uploaded ∧ row.orgId = r.org ∧ row.currentVersionId = some version

structure ConfirmBase (w : ConfirmWorld J) : Prop where
  ok : w.store.Ok
  requests : ∀ n r stage version, w.requests n = some (r, stage) → stage.version? = some version →
    OfUpload w.store r version

section

variable {s s' : Store J} {r : ConfirmRequest} {version : Uuid}

/-- Where uploads that point to a version go on pointing to it. -/
theorem OfUpload.stays (h : OfUpload s r version) (hGrows : StoreGrows s s')
    (hPoints : ∀ row row', s.tables.documents r.document = some row → s'.tables.documents r.document = some row' →
      row.source = .uploaded → row.currentVersionId.isSome → row'.currentVersionId = row.currentVersionId) :
    OfUpload s' r version where
  known := hGrows.known _ h.known
  versionKnown := hGrows.known _ h.versionKnown
  document v' hv' hId := by
    obtain ⟨v, hv, hContinues⟩ := hGrows.tables.origin v' hv' (by rw [hId]; exact h.versionKnown)
    exact hContinues.documentId.trans (h.document v hv (hContinues.id.symm.trans hId))
  row row' hRow' := by
    obtain ⟨row, hRow, hOrg, hSource, -⟩ := hGrows.tables.document _ h.known row' hRow'
    obtain ⟨hUploaded, hSame, hCurrent⟩ := h.row row hRow
    have hPoint := hPoints row row' hRow hRow' hUploaded (by rw [hCurrent]; rfl)
    exact ⟨hSource.trans hUploaded, hOrg.trans hSame, hPoint.trans hCurrent⟩

theorem OfUpload.kept (h : OfUpload s r version) (hGrows : StoreGrows s s') (hKept : UploadsKept s s') :
    OfUpload s' r version := by
  refine h.stays hGrows fun row row' hRow hRow' hUploaded hPoints => ?_
  obtain ⟨row₀, hRow₀, -, hSame⟩ := hKept.row _ h.known row' hRow'
    (by obtain ⟨row₁, hRow₁, -, hSource, -⟩ := hGrows.tables.document _ h.known row' hRow'
        rw [hSource, ← Option.some.inj (hRow.symm.trans hRow₁)]
        exact hUploaded)
  cases hRow.symm.trans hRow₀
  exact hSame hPoints

/-- The version of a draft that has been found. -/
theorem ofUpload_found {found : Document J} {s3Key mime : String} (hOk : s.Ok)
    (hFound : s.tables.findInOrg r.document r.org = some found)
    (hPending : pendingUpload? found = some (version, s3Key, mime)) : OfUpload s r version := by
  have hRow := Tables.findInOrg_some hFound
  have hOrg : found.orgId = r.org := by
    obtain ⟨row, hRow', rfl⟩ := Option.map_eq_some_iff.mp hFound
    exact of_decide_eq_true (Option.filter_eq_some_iff.mp hRow').2
  obtain ⟨hUploaded, hCurrent⟩ : found.source = .uploaded ∧ found.currentVersionId = some version := by
    unfold pendingUpload? at hPending
    split at hPending
    · cases hPending
    · rename_i hState
      split at hPending
      · rename_i key current hKey hCurrent
        split at hPending
        · cases hPending
        · cases hPending
          exact ⟨by_contra fun hNot => hState (.inl hNot), hCurrent⟩
      · cases hPending
  obtain ⟨v, hv, hId, hDocument⟩ := hOk.current _ _ version hRow hCurrent
  refine ⟨hOk.documentKnown _ _ hRow, hId ▸ hOk.versionKnown v hv, fun u hu hSame => ?_, fun row hRow' => ?_⟩
  · rw [hOk.versionIds u hu v hv (hSame.trans hId.symm), hDocument]
  · cases hRow.symm.trans hRow'
    exact ⟨hUploaded, hOrg, hCurrent⟩

theorem afterFind_version {stage : ConfirmStage} (hOk : s.Ok)
    (hStage : ConfirmRequest.afterFind (s.tables.findInOrg r.document r.org) = stage)
    (hVersion : stage.version? = some version) : OfUpload s r version := by
  cases hFound : s.tables.findInOrg r.document r.org with
  | none =>
    rw [hFound] at hStage
    subst hStage
    cases hVersion
  | some found =>
    rw [hFound] at hStage
    cases hPending : pendingUpload? found with
    | none =>
      simp only [ConfirmRequest.afterFind, hPending] at hStage
      subst hStage
      cases hVersion
    | some pending =>
      obtain ⟨version', s3Key, mime⟩ := pending
      simp only [ConfirmRequest.afterFind, hPending] at hStage
      subst hStage
      cases hVersion
      exact ofUpload_found hOk hFound hPending

/-- A write of a request leaves the pointers of documents. -/
theorem pointers_setVersionFile {file : StoredFile} {org : Uuid} :
    (exec (.setVersionFile org version file) s).2.tables.documents = s.tables.documents := by
  have hEffect := exec_effect (.setVersionFile org version file) s
  generalize (exec (.setVersionFile org version file) s).2 = s' at hEffect
  cases hEffect <;> rfl

theorem pointers_setStatus {org id : Uuid} {status : DocumentStatus} {row row' : DocumentRow} {id' : Uuid}
    (hRow : s.tables.documents id' = some row)
    (hRow' : (exec (.setStatus org id status) s).2.tables.documents id' = some row') :
    row'.currentVersionId = row.currentVersionId := by
  have hEffect := exec_effect (.setStatus org id status) s
  generalize (exec (.setStatus org id status) s).2 = s' at hEffect hRow'
  cases hEffect with
  | nothing =>
    cases hRow.symm.trans hRow'
    rfl
  | setStatus org id status row₀ hRow₀ =>
    rcases Table.put_eq_some.mp hRow' with ⟨rfl, rfl⟩ | ⟨-, hRow'⟩
    · cases hRow.symm.trans hRow₀
      rfl
    · cases hRow.symm.trans hRow'
      rfl

end

section

variable {Guard : Store J → ConfirmRequest → ConfirmStage → Prop} {w w' : ConfirmWorld J}

/-- A step of one request to a stage with the version that it had. -/
theorem ConfirmBase.advance (h : ConfirmBase w) {n : Nat} {r : ConfirmRequest} {stage : ConfirmStage}
    (hVersion : ∀ version, stage.version? = some version → OfUpload w.store r version) :
    ConfirmBase { w with requests := w.requests.put n (r, stage) } where
  ok := h.ok
  requests n' r' stage' version hHere hStage := by
    rcases Table.put_eq_some.mp hHere with ⟨-, hSame⟩ | ⟨-, hHere⟩
    · cases hSame
      exact hVersion version hStage
    · exact h.requests n' r' stage' version hHere hStage

/-- A step of the store. -/
theorem ConfirmBase.write (h : ConfirmBase w) {s' : Store J} (hOk : s'.Ok) (hGrows : StoreGrows w.store s')
    (hPoints : ∀ id row row', w.store.tables.documents id = some row → s'.tables.documents id = some row' →
      row.source = .uploaded → row.currentVersionId.isSome → row'.currentVersionId = row.currentVersionId) :
    ConfirmBase { w with store := s' } where
  ok := hOk
  requests n r stage version hHere hStage :=
    (h.requests n r stage version hHere hStage).stays hGrows (hPoints r.document)

theorem ConfirmBase.confirming (h : ConfirmBase w) (hStep : Confirming Guard w w') : ConfirmBase w' := by
  cases hStep with
  | find n r hHere => exact h.advance fun version hVersion => afterFind_version h.ok rfl hVersion
  | «exists» n r version s3Key mime hHere =>
    refine h.advance fun version' hVersion => ?_
    cases hThere : (w.store.objects s3Key).isSome with
    | true =>
      rw [hThere] at hVersion
      exact h.requests n r _ version' hHere hVersion
    | false =>
      rw [hThere] at hVersion
      cases hVersion
  | setVersionFile n r version s3Key mime hHere hGuard =>
    obtain ⟨hOk, hGrows⟩ := exec_ok h.ok (.setVersionFile r.org version (r.file s3Key mime))
    have hWritten := h.write hOk hGrows fun id row row' hRow hRow' _ _ => by
      rw [pointers_setVersionFile, hRow] at hRow'
      cases hRow'
      rfl
    exact hWritten.advance fun version' hVersion => hWritten.requests n r _ version' hHere hVersion
  | setStatus n r version s3Key mime hHere hGuard =>
    obtain ⟨hOk, hGrows⟩ := exec_ok h.ok (.setStatus r.org r.document .final)
    have hWritten := h.write hOk hGrows fun id row row' hRow hRow' _ _ => pointers_setStatus hRow hRow'
    exact hWritten.advance fun version' hVersion => hWritten.requests n r _ version' hHere hVersion
  | answer n r version s3Key mime hHere =>
    exact h.advance fun version' hVersion => h.requests n r _ version' hHere hVersion

theorem ConfirmBase.step (h : ConfirmBase w) (hStep : ConfirmStep Guard w w') : ConfirmBase w' := by
  cases hStep with
  | start n r hFree => exact h.advance fun version hVersion => by cases hVersion
  | confirm _ hStep => exact h.confirming hStep
  | other c hLeaves =>
    obtain ⟨hOk, hGrows⟩ := exec_ok h.ok c
    have hKept := exec_uploadsKept h.ok hLeaves
    exact ⟨hOk, fun n r stage version hHere hStage => (h.requests n r stage version hHere hStage).kept hGrows hKept⟩
  | elsewhere s hChange =>
    obtain ⟨hOk, hGrows⟩ := elsewhere_ok h.ok hChange
    have hKept := hChange.uploadsKept h.ok
    exact ⟨hOk, fun n r stage version hHere hStage => (h.requests n r stage version hHere hStage).kept hGrows hKept⟩

/-- A request writes nothing but its upload. -/
theorem Confirming.othersKept (h : ConfirmBase w) (hStep : Confirming Guard w w') : OthersKept w.store w'.store := by
  cases hStep with
  | find | «exists» | answer => exact fun id row hRow _ => ⟨hRow, rfl⟩
  | setVersionFile n r version s3Key mime hHere hGuard =>
    intro id row hRow hNot
    have hOf := h.requests n r _ version hHere rfl
    have hApart : ∀ v ∈ w.store.tables.versions, v.id = version → v.documentId ≠ id := fun v hv hId hSame => by
      rw [← hSame, hOf.document v hv hId] at hRow
      exact hNot (hOf.row row hRow).1
    refine ⟨by rw [pointers_setVersionFile, hRow], ?_⟩
    have hEffect := exec_effect (.setVersionFile r.org version (r.file s3Key mime)) w.store
    show (exec _ w.store).2.tables.versionsOf id = _
    generalize (exec _ w.store).2 = s' at hEffect
    cases hEffect with
    | nothing => rfl
    | setVersionFile =>
      show (w.store.tables.versions.map _).filter _ = w.store.tables.versions.filter _
      generalize w.store.tables.versions = rows at hApart
      induction rows with
      | nil => rfl
      | cons v rest ih =>
        have hRest := ih fun u hu => hApart u (List.mem_cons_of_mem v hu)
        rw [List.map_cons, List.filter_cons, List.filter_cons, hRest]
        by_cases hId : v.id = version
        · have hOther := hApart v List.mem_cons_self hId
          simp [hId, hOther, VersionRow.filed]
        · simp [hId]
  | setStatus n r version s3Key mime hHere hGuard =>
    intro id row hRow hNot
    have hOf := h.requests n r _ version hHere rfl
    have hNe : id ≠ r.document := fun hSame => hNot (hOf.row row (hSame ▸ hRow)).1
    have hEffect := exec_effect (.setStatus r.org r.document .final) w.store
    show (exec _ w.store).2.tables.documents id = _ ∧ (exec _ w.store).2.tables.versionsOf id = _
    generalize (exec _ w.store).2 = s' at hEffect
    cases hEffect with
    | nothing => exact ⟨hRow, rfl⟩
    | setStatus => exact ⟨(Table.put_ne hNe).trans hRow, rfl⟩

/-! ### Requests that find their document pending -/

/-- The request has set the status. -/
def ConfirmStage.Done (stage : ConfirmStage) (version : Uuid) (s3Key mime : String) : Prop :=
  stage = .finalised version s3Key mime ∨ stage = .answered version s3Key mime

def DoneOk (s : Store J) (r : ConfirmRequest) (version : Uuid) (s3Key mime : String) : Prop :=
  ∀ row, s.tables.documents r.document = some row → row.status = .final ∧ HasFile s r version s3Key mime

structure ConfirmOk (w : ConfirmWorld J) : Prop where
  base : ConfirmBase w
  done : ∀ n r stage version s3Key mime, w.requests n = some (r, stage) → stage.Done version s3Key mime →
    DoneOk w.store r version s3Key mime
  unique : ∀ n m r r' stage stage' version version' s3Key s3Key' mime mime', w.requests n = some (r, stage) →
    w.requests m = some (r', stage') → stage.Done version s3Key mime → stage'.Done version' s3Key' mime' →
    r.document = r'.document → n = m
  complete : Complete w.store

theorem ConfirmStage.Done.version {stage : ConfirmStage} {version : Uuid} {s3Key mime : String}
    (h : stage.Done version s3Key mime) : stage.version? = some version := by
  rcases h with rfl | rfl <;> rfl

/-- A step by which no request comes to set the status. -/
theorem ConfirmOk.of_done (h : ConfirmOk w) (hBase : ConfirmBase w')
    (hRequests : ∀ n r stage version s3Key mime, w'.requests n = some (r, stage) → stage.Done version s3Key mime →
      ∃ stage₀, w.requests n = some (r, stage₀) ∧ stage₀.Done version s3Key mime)
    (hDone : ∀ n r stage version s3Key mime, w.requests n = some (r, stage) → stage.Done version s3Key mime →
      DoneOk w'.store r version s3Key mime)
    (hComplete : Complete w'.store) : ConfirmOk w' where
  base := hBase
  done n r stage version s3Key mime hHere hStage := by
    obtain ⟨stage₀, hBefore, hStage₀⟩ := hRequests n r stage version s3Key mime hHere hStage
    exact hDone n r stage₀ version s3Key mime hBefore hStage₀
  unique n m r r' stage stage' version version' s3Key s3Key' mime mime' hHere hHere' hStage hStage' hSame := by
    obtain ⟨_, hBefore, hStage₀⟩ := hRequests n r stage version s3Key mime hHere hStage
    obtain ⟨_, hBefore', hStage₀'⟩ := hRequests m r' stage' version' s3Key' mime' hHere' hStage'
    exact h.unique _ _ _ _ _ _ _ _ _ _ _ _ hBefore hBefore' hStage₀ hStage₀' hSame
  complete := hComplete

/-- The request moves to a stage at which the status is not set, or was set before. -/
theorem requests_put {n : Nat} {r : ConfirmRequest} {stage : ConfirmStage} {requests : Table Nat (ConfirmRequest × ConfirmStage)}
    (hStage : ∀ version s3Key mime, stage.Done version s3Key mime →
      ∃ stage₀, requests n = some (r, stage₀) ∧ stage₀.Done version s3Key mime) :
    ∀ n' r' stage' version s3Key mime, requests.put n (r, stage) n' = some (r', stage') →
      stage'.Done version s3Key mime → ∃ stage₀, requests n' = some (r', stage₀) ∧ stage₀.Done version s3Key mime := by
  intro n' r' stage' version s3Key mime hHere hDone
  rcases Table.put_eq_some.mp hHere with ⟨rfl, hSame⟩ | ⟨-, hHere⟩
  · cases hSame
    exact hStage version s3Key mime hDone
  · exact ⟨stage', hHere, hDone⟩

theorem afterFind_not_done (found : Option (Document J)) (version : Uuid) (s3Key mime : String) :
    ¬ (ConfirmRequest.afterFind found).Done version s3Key mime := by
  cases found with
  | none => exact fun hDone => by rcases hDone with h | h <;> cases h
  | some found =>
    simp only [ConfirmRequest.afterFind]
    cases pendingUpload? found with
    | none => exact fun hDone => by rcases hDone with h | h <;> cases h
    | some pending => exact fun hDone => by rcases hDone with h | h <;> cases h

theorem HasFile.kept {s s' : Store J} {r : ConfirmRequest} {version : Uuid} {s3Key mime : String}
    (h : HasFile s r version s3Key mime)
    (hFile : ∀ v ∈ s.tables.versions, v.id = version → ∃ v' ∈ s'.tables.versions, v'.id = v.id ∧ SameFile v v') :
    HasFile s' r version s3Key mime := by
  obtain ⟨v, hv, hId, hKey, hChecksum, hMime, hSize⟩ := h
  obtain ⟨v', hv', hSame, hKey', hChecksum', hMime', hSize'⟩ := hFile v hv hId
  exact ⟨v', hv', hSame.trans hId, hKey'.trans hKey, hChecksum'.trans hChecksum, hMime'.trans hMime,
    hSize'.trans hSize⟩

/-- A step of another operation. -/
theorem ConfirmOk.kept (h : ConfirmOk w) {s' : Store J} (hBase : ConfirmBase { w with store := s' })
    (hGrows : StoreGrows w.store s') (hKept : UploadsKept w.store s') : ConfirmOk { w with store := s' } := by
  refine h.of_done hBase (fun n r stage version s3Key mime hHere hDone => ⟨stage, hHere, hDone⟩)
    (fun n r stage version s3Key mime hHere hDone row' hRow' => ?_) fun id row' hRow' hUploaded hFinal => ?_
  · have hOf := h.base.requests n r stage version hHere hDone.version
    have hUploaded := ((hBase.requests n r stage version hHere hDone.version).row row' hRow').1
    obtain ⟨row, hRow, hStatus, -⟩ := hKept.row _ hOf.known row' hRow' hUploaded
    obtain ⟨hUploaded₀, -, hCurrent⟩ := hOf.row row hRow
    obtain ⟨hFinal, hFile⟩ := h.done n r stage version s3Key mime hHere hDone row hRow
    refine ⟨hStatus.trans hFinal, hFile.kept fun v hv hId => ?_⟩
    have hDocument := hOf.document v hv hId
    obtain ⟨v', hv', hSame, -, hSameFile⟩ := hKept.file v hv row (by rw [hDocument, hRow]) hUploaded₀
      (by rw [hCurrent]; rfl) (by rw [hDocument, hRow']; rfl)
    exact ⟨v', hv', hSame, hSameFile⟩
  · by_cases hKnown : id ∈ w.store.known
    · obtain ⟨row, hRow, hStatus, hSamePointer⟩ := hKept.row id hKnown row' hRow' hUploaded
      obtain ⟨row₀, hRow₀, -, hSource, -⟩ := hGrows.tables.document id hKnown row' hRow'
      cases hRow.symm.trans hRow₀
      have hUploaded₀ : row.source = .uploaded := hSource.symm.trans hUploaded
      obtain ⟨v, hv, hCurrent, hDocument, hChecksum, hSize⟩ :=
        h.complete id row hRow hUploaded₀ (hStatus.symm.trans hFinal)
      have hPoints : row.currentVersionId.isSome := by rw [hCurrent]; rfl
      obtain ⟨v', hv', hSame, hSameDocument, -, hChecksum', -, hSize'⟩ := hKept.file v hv row
        (by rw [hDocument, hRow]) hUploaded₀ hPoints (by rw [hDocument, hRow']; rfl)
      exact ⟨v', hv', by rw [hSamePointer hPoints, hCurrent, hSame], hSameDocument.trans hDocument,
        by rw [hChecksum']; exact hChecksum, by rw [hSize']; exact hSize⟩
    · rw [hKept.new id row' hRow' hKnown hUploaded] at hFinal
      cases hFinal

/-- The file of a draft is written: no final document changes. -/
theorem ConfirmOk.setVersionFile (h : ConfirmOk w) {n : Nat} {r : ConfirmRequest} {version : Uuid} {s3Key mime : String}
    (hHere : w.requests n = some (r, .present version s3Key mime)) (hDraft : IsDraft w.store r.document)
    (hBase : ConfirmBase {
      store := (exec (.setVersionFile r.org version (r.file s3Key mime)) w.store).2
      requests := w.requests.put n (r, .filed version s3Key mime) }) :
    ConfirmOk {
      store := (exec (.setVersionFile r.org version (r.file s3Key mime)) w.store).2
      requests := w.requests.put n (r, .filed version s3Key mime) } := by
  have hOf := h.base.requests n r _ version hHere rfl
  obtain ⟨draft, hRow, hIsDraft⟩ := hDraft
  -- What belongs to a final document is not the version that is written.
  have hOther : ∀ v ∈ w.store.tables.versions, ∀ row, w.store.tables.documents v.documentId = some row →
      row.status = .final → v ∈ (exec (.setVersionFile r.org version (r.file s3Key mime)) w.store).2.tables.versions := by
    intro v hv row hRow' hFinal
    have hEffect := exec_effect (.setVersionFile r.org version (r.file s3Key mime)) w.store
    generalize (exec (.setVersionFile r.org version (r.file s3Key mime)) w.store).2 = s' at hEffect
    cases hEffect with
    | nothing => exact hv
    | setVersionFile =>
      have hNot : v.id ≠ version := fun hId => by
        rw [hOf.document v hv hId, hRow] at hRow'
        cases hRow'
        rw [hIsDraft] at hFinal
        cases hFinal
      exact mem_changeRow.mpr ⟨v, hv, (if_neg hNot).symm⟩
  refine h.of_done hBase (requests_put fun _ _ _ hDone => by rcases hDone with h | h <;> cases h)
    (fun n' r' stage version' s3Key' mime' hThere hDone row hRow' => ?_) fun id row hRow' hUploaded hFinal => ?_
  · rw [pointers_setVersionFile] at hRow'
    obtain ⟨hFinal, hFile⟩ := h.done n' r' stage version' s3Key' mime' hThere hDone row hRow'
    have hOf' := h.base.requests n' r' stage version' hThere hDone.version
    exact ⟨hFinal, hFile.kept fun v hv hId =>
      ⟨v, hOther v hv row (by rw [hOf'.document v hv hId, hRow']) hFinal, rfl, rfl, rfl, rfl, rfl⟩⟩
  · rw [pointers_setVersionFile] at hRow'
    obtain ⟨v, hv, hCurrent, hDocument, hSet⟩ := h.complete id row hRow' hUploaded hFinal
    exact ⟨v, hOther v hv row (by rw [hDocument, hRow']) hFinal, hCurrent, hDocument, hSet⟩

theorem exec_setStatus {s : Store J} {org id : Uuid} {status : DocumentStatus} {row : DocumentRow}
    (hRow : s.tables.documents id = some row) (hOrg : row.orgId = org) :
    (exec (.setStatus org id status) s).2 =
      s.withTables { s.tables with documents := s.tables.documents.put id { row with status } } := by
  subst hOrg
  simp [exec, Tables.setStatus, Tables.updateDocument, hRow, Option.filter, Store.write]

/-- The status of a draft is set whose version has the file of the request. -/
theorem ConfirmOk.setStatus (h : ConfirmOk w) {n : Nat} {r : ConfirmRequest} {version : Uuid} {s3Key mime : String}
    (hHere : w.requests n = some (r, .filed version s3Key mime)) (hDraft : IsDraft w.store r.document)
    (hFile : HasFile w.store r version s3Key mime)
    (hBase : ConfirmBase {
      store := (exec (.setStatus r.org r.document .final) w.store).2
      requests := w.requests.put n (r, .finalised version s3Key mime) }) :
    ConfirmOk {
      store := (exec (.setStatus r.org r.document .final) w.store).2
      requests := w.requests.put n (r, .finalised version s3Key mime) } := by
  have hOf := h.base.requests n r _ version hHere rfl
  obtain ⟨draft, hRow, hIsDraft⟩ := hDraft
  obtain ⟨-, hOrg, hCurrent⟩ := hOf.row draft hRow
  rw [exec_setStatus hRow hOrg] at hBase ⊢
  -- No other request has set the status of this document.
  have hFirst : ∀ n' r' stage version' s3Key' mime', w.requests n' = some (r', stage) →
      stage.Done version' s3Key' mime' → r'.document ≠ r.document := by
    intro n' r' stage version' s3Key' mime' hThere hDone hSame
    have hFinal := (h.done n' r' stage version' s3Key' mime' hThere hDone draft (by rw [hSame, hRow])).1
    rw [hIsDraft] at hFinal
    cases hFinal
  refine ⟨hBase, fun n' r' stage version' s3Key' mime' hThere hDone row' hRow' => ?_, ?_, ?_⟩
  · rcases Table.put_eq_some.mp hThere with ⟨-, hSame⟩ | ⟨-, hThere⟩
    · cases hSame
      rcases hDone with hDone | hDone
      · cases hDone
        rw [Option.some.inj (hRow'.symm.trans (Table.put_same _ _ _))]
        exact ⟨rfl, hFile⟩
      · cases hDone
    · exact h.done n' r' stage version' s3Key' mime' hThere hDone row'
        ((Table.put_ne (hFirst n' r' stage version' s3Key' mime' hThere hDone)).symm.trans hRow')
  · intro n₁ n₂ r₁ r₂ stage₁ stage₂ version₁ version₂ key₁ key₂ mime₁ mime₂ h₁ h₂ hDone₁ hDone₂ hSame
    rcases Table.put_eq_some.mp h₁ with ⟨rfl, hIs₁⟩ | ⟨-, hOther₁⟩ <;>
      rcases Table.put_eq_some.mp h₂ with ⟨rfl, hIs₂⟩ | ⟨-, hOther₂⟩
    · rfl
    · cases hIs₁
      exact absurd hSame.symm (hFirst _ _ _ _ _ _ hOther₂ hDone₂)
    · cases hIs₂
      exact absurd hSame (hFirst _ _ _ _ _ _ hOther₁ hDone₁)
    · exact h.unique _ _ _ _ _ _ _ _ _ _ _ _ hOther₁ hOther₂ hDone₁ hDone₂ hSame
  · intro id row' hRow' hUploaded hFinal
    rcases Table.put_eq_some.mp hRow' with ⟨rfl, rfl⟩ | ⟨-, hRow'⟩
    · obtain ⟨v, hv, hId, -, hChecksum, -, hSize⟩ := hFile
      exact ⟨v, hv, by rw [hId]; exact hCurrent, hOf.document v hv hId, by rw [hChecksum]; rfl, by rw [hSize]; rfl⟩
    · exact h.complete id row' hRow' hUploaded hFinal

theorem ConfirmOk.confirming (h : ConfirmOk w) (hStep : Confirming StillPending w w') : ConfirmOk w' := by
  have hBase := h.base.confirming hStep
  have hSame : ∀ n r stage version s3Key mime, w.requests n = some (r, stage) → stage.Done version s3Key mime →
      DoneOk w.store r version s3Key mime := h.done
  cases hStep with
  | find n r hHere =>
    exact h.of_done hBase (requests_put fun _ _ _ hDone => absurd hDone (afterFind_not_done _ _ _ _)) hSame h.complete
  | «exists» n r version s3Key mime hHere =>
    refine h.of_done hBase (requests_put fun _ _ _ hDone => ?_) hSame h.complete
    cases hThere : (w.store.objects s3Key).isSome with
    | true =>
      rw [hThere] at hDone
      rcases hDone with h | h <;> cases h
    | false =>
      rw [hThere] at hDone
      rcases hDone with h | h <;> cases h
  | setVersionFile n r version s3Key mime hHere hGuard => exact h.setVersionFile hHere hGuard hBase
  | setStatus n r version s3Key mime hHere hGuard => exact h.setStatus hHere hGuard.1 hGuard.2 hBase
  | answer n r version s3Key mime hHere =>
    refine h.of_done hBase (requests_put fun version' s3Key' mime' hDone => ?_) hSame h.complete
    refine ⟨.finalised version s3Key mime, hHere, ?_⟩
    rcases hDone with hDone | hDone
    · cases hDone
    · cases hDone
      exact .inl rfl

theorem ConfirmOk.step (h : ConfirmOk w) (hStep : ConfirmStep StillPending w w') : ConfirmOk w' := by
  have hBase := h.base.step hStep
  cases hStep with
  | start n r hFree =>
    exact h.of_done hBase (requests_put fun _ _ _ hDone => by rcases hDone with h | h <;> cases h) h.done h.complete
  | confirm _ hStep => exact h.confirming hStep
  | other c hLeaves => exact h.kept hBase (exec_ok h.base.ok c).2 (exec_uploadsKept h.base.ok hLeaves)
  | elsewhere s hChange => exact h.kept hBase (elsewhere_ok h.base.ok hChange).2 (hChange.uploadsKept h.base.ok)

theorem ConfirmOk.writeOnce (h : ConfirmOk w) : WriteOnce w where
  unique n m r r' version version' s3Key s3Key' mime mime' hHere hHere' hSame :=
    h.unique n m r r' _ _ version version' s3Key s3Key' mime mime' hHere hHere' (.inr rfl) (.inr rfl) hSame
  written n r version s3Key mime hHere row hRow := by
    obtain ⟨hFinal, hFile⟩ := h.done n r _ version s3Key mime hHere (.inr rfl) row hRow
    exact ⟨hFinal, ((h.base.requests n r _ version hHere rfl).row row hRow).2.2, hFile⟩
  complete := h.complete

theorem NoDocuments.confirmBase (h : NoDocuments w.store) (hIdle : w.requests = Table.empty) : ConfirmBase w where
  ok := h.ok
  requests n r stage version hHere := by
    rw [hIdle] at hHere
    cases hHere

theorem NoDocuments.confirmOk (h : NoDocuments w.store) (hIdle : w.requests = Table.empty) : ConfirmOk w where
  base := h.confirmBase hIdle
  done n r stage version s3Key mime hHere := by
    rw [hIdle] at hHere
    cases hHere
  unique n m r r' stage stage' version version' s3Key s3Key' mime mime' hHere := by
    rw [hIdle] at hHere
    cases hHere
  complete id row hRow := by
    rw [h.documents] at hRow
    cases hRow

end

/-- In every run where the requests find their documents pending as they write, a confirmed upload is written
once; and in any run at all a request changes nothing but uploads. -/
theorem upload_once {w₀ : ConfirmWorld J} (hEmpty : NoDocuments w₀.store) (hIdle : w₀.requests = Table.empty) :
    (∀ w, Run (ConfirmStep StillPending) w₀ w → WriteOnce w) ∧
      ∀ w w', Run (ConfirmStep fun _ _ _ => True) w₀ w → Confirming (fun _ _ _ => True) w w' →
        OthersKept w.store w'.store := by
  constructor
  · intro w hRun
    have hOk : ConfirmOk w := hRun.invariant (fun _ _ h hStep => h.step hStep) (hEmpty.confirmOk hIdle)
    exact hOk.writeOnce
  · intro w w' hRun hStep
    have hBase : ConfirmBase w := hRun.invariant (fun _ _ h hStep => h.step hStep) (hEmpty.confirmBase hIdle)
    exact hStep.othersKept hBase

/-! ### Two confirmations at once -/

theorem versions_setStatus {s : Store J} {org id : Uuid} {status : DocumentStatus} :
    (exec (.setStatus org id status) s).2.tables.versions = s.tables.versions := by
  have hEffect := exec_effect (.setStatus org id status) s
  generalize (exec (.setStatus org id status) s).2 = s' at hEffect
  cases hEffect <;> rfl

theorem versions_setVersionFile {s : Store J} {v : VersionRow J} (file : StoredFile) (hVersions : s.tables.versions = [v]) :
    (exec (.setVersionFile v.orgId v.id file) s).2.tables.versions = [v.filed file] := by
  simp [exec, Tables.setVersionFile, hVersions, rowOf, changeRow, Store.write, Store.withTables, Option.filter]

def noUploads : ConfirmWorld String := ⟨noDocuments.state, Table.empty⟩

def uploadedDocument : NewDocument String := ⟨1, 10, .uploaded, .draft, none, none, none⟩

def confirmRequest (checksum : String) : ConfirmRequest := ⟨7, 1, checksum, 0⟩

/-- Two requests have found the object of the upload. -/
theorem uploads_present (Guard : Store String → ConfirmRequest → ConfirmStage → Prop) :
    ∃ w, Run (ConfirmStep Guard) noUploads w ∧ IsDraft w.store 1 ∧
      w.store.tables.versions = [(VersionRow.blank 10 7 1 1 none none).pending "key" "pdf"] ∧
      w.requests 0 = some (confirmRequest "a", .present 10 "key" "pdf") ∧
      w.requests 1 = some (confirmRequest "b", .present 10 "key" "pdf") := by
  have hMade : Run (ConfirmStep Guard) noUploads _ := .single (.other noUploads (.create 7 uploadedDocument) fun _ => rfl)
  have hPending := hMade.tail (.other _ (.setPendingUpload 7 1 "key" "pdf") fun row hRow _ => by
    obtain rfl := Option.some.inj hRow
    rfl)
  have hThere := hPending.tail (.elsewhere _ _ (.upload "key" .empty List.mem_cons_self))
  have hStarted := hThere.tail (.start _ 0 (confirmRequest "a") rfl)
  have hFound := hStarted.tail (.confirm _ _ (.find _ 0 (confirmRequest "a") rfl))
  have hPresent := hFound.tail (.confirm _ _ (.exists _ 0 (confirmRequest "a") 10 "key" "pdf" rfl))
  have hStarted' := hPresent.tail (.start _ 1 (confirmRequest "b") rfl)
  have hFound' := hStarted'.tail (.confirm _ _ (.find _ 1 (confirmRequest "b") rfl))
  have hPresent' := hFound'.tail (.confirm _ _ (.exists _ 1 (confirmRequest "b") 10 "key" "pdf" rfl))
  exact ⟨_, hPresent', ⟨_, rfl, rfl⟩, rfl, rfl, rfl⟩

def confirmedVersion (checksum : String) : VersionRow String :=
  ((VersionRow.blank 10 7 1 1 none none).pending "key" "pdf").filed ((confirmRequest checksum).file "key" "pdf")

/-- The first answers that the upload is confirmed, with its file. -/
theorem upload_once_first : ∃ w, Run (ConfirmStep StillPending) noUploads w ∧
    Answered w 0 (confirmRequest "a") 10 "key" "pdf" ∧ w.store.tables.versions = [confirmedVersion "a"] ∧ WriteOnce w := by
  obtain ⟨w, hPresent, hDraft, hVersions, hFirst, -⟩ := uploads_present StillPending
  have hFiled := hPresent.tail (.confirm _ _ (.setVersionFile w 0 (confirmRequest "a") 10 "key" "pdf" hFirst hDraft))
  have hStillDraft : IsDraft (exec (.setVersionFile 7 10 ((confirmRequest "a").file "key" "pdf")) w.store).2 1 := by
    obtain ⟨row, hRow, hStatus⟩ := hDraft
    exact ⟨row, by rw [pointers_setVersionFile, hRow], hStatus⟩
  have hChanged : (exec (.setVersionFile 7 10 ((confirmRequest "a").file "key" "pdf")) w.store).2.tables.versions =
      [confirmedVersion "a"] := versions_setVersionFile _ hVersions
  have hFile : HasFile (exec (.setVersionFile 7 10 ((confirmRequest "a").file "key" "pdf")) w.store).2
      (confirmRequest "a") 10 "key" "pdf" :=
    ⟨confirmedVersion "a", by rw [hChanged]; exact List.mem_singleton_self _, rfl, rfl, rfl, rfl, rfl⟩
  have hFinal := hFiled.tail (.confirm _ _ (.setStatus _ 0 (confirmRequest "a") 10 "key" "pdf" rfl ⟨hStillDraft, hFile⟩))
  have hAnswered := hFinal.tail (.confirm _ _ (.answer _ 0 (confirmRequest "a") 10 "key" "pdf" rfl))
  exact ⟨_, hAnswered, rfl, versions_setStatus.trans hChanged, (upload_once ⟨rfl, rfl⟩ rfl).1 _ hAnswered⟩

/-- Both answer so, and the file is that of the second. -/
theorem upload_confirmed_twice : ∃ w, Run (ConfirmStep fun _ _ _ => True) noUploads w ∧
    Answered w 0 (confirmRequest "a") 10 "key" "pdf" ∧ Answered w 1 (confirmRequest "b") 10 "key" "pdf" ∧
    w.store.tables.versions = [confirmedVersion "b"] ∧ ¬ WriteOnce w := by
  obtain ⟨w, hPresent, -, hVersions, hFirst, hSecond⟩ := uploads_present fun _ _ _ => True
  have hFiled := hPresent.tail (.confirm _ _ (.setVersionFile w 0 (confirmRequest "a") 10 "key" "pdf" hFirst trivial))
  have hFinal := hFiled.tail (.confirm _ _ (.setStatus _ 0 (confirmRequest "a") 10 "key" "pdf" rfl trivial))
  have hAnswered := hFinal.tail (.confirm _ _ (.answer _ 0 (confirmRequest "a") 10 "key" "pdf" rfl))
  have hFiled' := hAnswered.tail (.confirm _ _ (.setVersionFile _ 1 (confirmRequest "b") 10 "key" "pdf" hSecond trivial))
  have hFinal' := hFiled'.tail (.confirm _ _ (.setStatus _ 1 (confirmRequest "b") 10 "key" "pdf" rfl trivial))
  have hAnswered' := hFinal'.tail (.confirm _ _ (.answer _ 1 (confirmRequest "b") 10 "key" "pdf" rfl))
  refine ⟨_, hAnswered', rfl, rfl, ?_, fun hOnce => ?_⟩
  · have hChanged := versions_setVersionFile ((confirmRequest "a").file "key" "pdf") hVersions
    exact versions_setStatus.trans (versions_setVersionFile ((confirmRequest "b").file "key" "pdf")
      (versions_setStatus.trans hChanged))
  · cases hOnce.unique 0 1 _ _ _ _ _ _ _ _ rfl rfl rfl

end CyberAccountant.Documents
