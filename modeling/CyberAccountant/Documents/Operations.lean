import CyberAccountant.Documents.Store
import CyberAccountant.Files.FileKeys
import CyberAccountant.Library.Turns

/-! The operations on documents, as the API and the worker run them: calls of the repository, each a
transaction of its own, of the object storage and of the queue. -/

namespace CyberAccountant.Documents

open CyberAccountant.Library CyberAccountant.Library.Program CyberAccountant.Ledger CyberAccountant.Files

/-- The payload of `docgen.render`; older ones name no version. -/
structure RenderPayload (J : Type) where
  orgId : Uuid
  documentId : Uuid
  versionId : Option Uuid
  slug : String
  input : J

/-- The primary database, a replica that may lag behind, the object storage and the queue.  No table
holds `uploads`, the keys that have been recorded for uploads, and `known`, the ids that have been drawn. -/
structure Store (J : Type) where
  tables : Tables J
  replica : Tables J
  objects : Table String ByteArray
  jobs : List (RenderPayload J)
  uploads : List String
  known : List Uuid

inductive DocumentCommand (J : Type) where
  | create (org : Uuid) (d : NewDocument J)
  | setPendingUpload (org id : Uuid) (s3Key mime : String)
  | addVersion (org document versionId : Uuid) (inputSnapshot : Option J) (templateVersion : Option String)
  | findInOrg (id org : Uuid) (fromPrimary : Bool)
  | latestVersion (org document : Uuid) (fromPrimary : Bool)
  | versionRenderState (org document version : Uuid)
  | setVersionFile (org version : Uuid) (file : StoredFile)
  | setCurrentVersion (org document version : Uuid)
  | setStatus (org id : Uuid) (status : DocumentStatus)
  | setStatusIf (org id : Uuid) (source target : DocumentStatus)
  | linkEntry (org document entry : Uuid)
  | remove (org document : Uuid)
  | voidDocument (org id : Uuid) (voiding : Voiding)
  | putObject (key : String) (bytes : ByteArray)
  | objectExists (key : String)
  | submit (payload : RenderPayload J)

@[reducible] def DocumentCommand.Reply {J : Type} : DocumentCommand J → Type
  | .addVersion _ _ _ _ _ | .latestVersion _ _ _ => Option (VersionRow J)
  | .findInOrg _ _ _ => Option (Document J)
  | .versionRenderState _ _ _ => VersionRenderState
  | .remove _ _ => DeleteOutcome
  | .putObject _ _ | .submit _ => Unit
  | _ => Bool

variable {J : Type}

namespace Store

def withTables (s : Store J) (tables : Tables J) : Store J := { s with tables }

/-- A transaction that tells whether it has found its row. -/
def write (s : Store J) : Option (Tables J) → Bool × Store J
  | some tables => (true, s.withTables tables)
  | none => (false, s)

def side (s : Store J) (fromPrimary : Bool) : Tables J := if fromPrimary then s.tables else s.replica

end Store

/-- What a command replies and does.  An id that has been drawn before is not drawn again: such a command
fails. -/
def exec : (c : DocumentCommand J) → Store J → c.Reply × Store J
  | .create org d, s =>
    if d.id ∈ s.known ∨ d.versionId ∈ d.id :: s.known then (false, s)
    else (true, { s.withTables (s.tables.create org d) with known := d.versionId :: d.id :: s.known })
  | .setPendingUpload org id s3Key mime, s =>
    match s.tables.setPendingUpload org id s3Key mime with
    | some tables => (true, { s.withTables tables with uploads := s3Key :: s.uploads })
    | none => (false, s)
  | .addVersion org document versionId inputSnapshot templateVersion, s =>
    match s.tables.addVersion org document versionId inputSnapshot templateVersion with
    | some (v, tables) =>
      if versionId ∈ s.known then (none, s)
      else (some v, { s.withTables tables with known := versionId :: s.known })
    | none => (none, s)
  | .findInOrg id org fromPrimary, s => ((s.side fromPrimary).findInOrg id org, s)
  | .latestVersion org document fromPrimary, s => ((s.side fromPrimary).latestVersion org document, s)
  | .versionRenderState org document version, s => (s.tables.versionRenderState org document version, s)
  | .setVersionFile org version file, s => s.write (s.tables.setVersionFile org version file)
  | .setCurrentVersion org document version, s => s.write (s.tables.setCurrentVersion org document version)
  | .setStatus org id status, s => s.write (s.tables.setStatus org id status)
  | .setStatusIf org id source target, s => s.write (s.tables.setStatusIf org id source target)
  | .linkEntry org document entry, s => s.write (s.tables.linkEntry org document entry)
  | .remove org document, s =>
    ((s.tables.remove org document).1, s.withTables (s.tables.remove org document).2)
  | .voidDocument org id voiding, s => s.write (s.tables.voidDocument org id voiding)
  | .putObject key bytes, s => ((), { s with objects := s.objects.put key bytes })
  | .objectExists key, s => ((s.objects key).isSome, s)
  | .submit payload, s => ((), { s with jobs := payload :: s.jobs })

/-- What a command does to the store: nothing, where it reads, fails or finds no row, or its one write. -/
inductive Effect (s : Store J) : DocumentCommand J → Store J → Prop where
  | nothing (c : DocumentCommand J) : Effect s c s
  | create (org : Uuid) (d : NewDocument J) (hNew : d.id ∉ s.known) (hNewVersion : d.versionId ∉ d.id :: s.known) :
      Effect s (.create org d) { s.withTables (s.tables.create org d) with known := d.versionId :: d.id :: s.known }
  | setPendingUpload (org id : Uuid) (s3Key mime : String) (row : DocumentRow) (v : VersionRow J)
      (hRow : s.tables.documents id = some row) (hVersion : v ∈ s.tables.versions) (hDocument : v.documentId = id)
      (hNewest : v.versionNo = s.tables.maxVersionNo id) :
      Effect s (.setPendingUpload org id s3Key mime)
        { s.withTables { s.tables with
            versions := changeRow VersionRow.id s.tables.versions v.id (.pending s3Key mime)
            documents := s.tables.documents.put id { row with currentVersionId := some v.id } } with
          uploads := s3Key :: s.uploads }
  | addVersion (org document versionId : Uuid) (inputSnapshot : Option J) (templateVersion : Option String)
      (row : DocumentRow) (v : VersionRow J) (hRow : s.tables.documents document = some row)
      (hNew : versionId ∉ s.known)
      (hBlank : v = .blank versionId row.orgId document (s.tables.maxVersionNo document + 1) templateVersion
        inputSnapshot) :
      Effect s (.addVersion org document versionId inputSnapshot templateVersion)
        { s.withTables { s.tables with versions := s.tables.versions ++ [v] } with known := versionId :: s.known }
  | setVersionFile (org version : Uuid) (file : StoredFile) :
      Effect s (.setVersionFile org version file)
        (s.withTables { s.tables with versions := changeRow VersionRow.id s.tables.versions version (.filed file) })
  | setCurrentVersion (org document version : Uuid) (row : DocumentRow) (v : VersionRow J)
      (hRow : s.tables.documents document = some row) (hVersion : v ∈ s.tables.versions) (hId : v.id = version)
      (hDocument : v.documentId = document) (hNewest : v.versionNo = s.tables.maxVersionNo document) :
      Effect s (.setCurrentVersion org document version) (s.withTables { s.tables with
        documents := s.tables.documents.put document { row with currentVersionId := some version } })
  | setStatus (org id : Uuid) (status : DocumentStatus) (row : DocumentRow)
      (hRow : s.tables.documents id = some row) :
      Effect s (.setStatus org id status)
        (s.withTables { s.tables with documents := s.tables.documents.put id { row with status } })
  | setStatusIf (org id : Uuid) (source target : DocumentStatus) (row : DocumentRow)
      (hRow : s.tables.documents id = some row) :
      Effect s (.setStatusIf org id source target)
        (s.withTables { s.tables with documents := s.tables.documents.put id { row with status := target } })
  | linkEntry (org document entry : Uuid) :
      Effect s (.linkEntry org document entry)
        (s.withTables { s.tables with links := ⟨org, document, entry⟩ :: s.tables.links })
  | remove (org document : Uuid) (row : DocumentRow) (hRow : s.tables.documents document = some row)
      (hLive : row.voided = none) :
      Effect s (.remove org document) (s.withTables (s.tables.deleteDocument document))
  | voidDocument (org id : Uuid) (voiding : Voiding) (row : DocumentRow)
      (hRow : s.tables.documents id = some row) (hLive : row.voided = none) :
      Effect s (.voidDocument org id voiding)
        (s.withTables { s.tables with documents := s.tables.documents.put id { row with voided := some voiding } })
  | putObject (key : String) (bytes : ByteArray) :
      Effect s (.putObject key bytes) { s with objects := s.objects.put key bytes }
  | submit (payload : RenderPayload J) : Effect s (.submit payload) { s with jobs := payload :: s.jobs }

theorem Effect.write {s : Store J} {c : DocumentCommand J} {result : Option (Tables J)}
    (h : ∀ t', result = some t' → Effect s c (s.withTables t')) : Effect s c (s.write result).2 := by
  cases result with
  | none => exact .nothing c
  | some t' => exact h t' rfl

theorem exec_effect (c : DocumentCommand J) (s : Store J) : Effect s c (exec c s).2 := by
  cases c with
  | create org d =>
    simp only [exec]
    split
    · exact .nothing _
    · rename_i hFresh
      obtain ⟨hNew, hNewVersion⟩ := not_or.mp hFresh
      exact .create org d hNew hNewVersion
  | setPendingUpload org id s3Key mime =>
    simp only [exec]
    split
    · rename_i t' hSome
      obtain ⟨row, v, hRow, -, -, hVersion, hDocument, hNewest, rfl⟩ := Tables.setPendingUpload_some hSome
      exact .setPendingUpload org id s3Key mime row v hRow hVersion hDocument hNewest
    · exact .nothing _
  | addVersion org document versionId inputSnapshot templateVersion =>
    simp only [exec]
    split
    · rename_i v t' hSome
      obtain ⟨row, hRow, -, hBlank, rfl⟩ := Tables.addVersion_some hSome
      split
      · exact .nothing _
      · rename_i hNew
        exact .addVersion org document versionId inputSnapshot templateVersion row v hRow hNew hBlank
    · exact .nothing _
  | findInOrg | latestVersion | versionRenderState | objectExists => exact .nothing _
  | setVersionFile org version file =>
    apply Effect.write
    intro t' hSome
    obtain ⟨-, -, -, -, rfl⟩ := Tables.setVersionFile_some hSome
    exact .setVersionFile org version file
  | setCurrentVersion org document version =>
    apply Effect.write
    intro t' hSome
    obtain ⟨row, v, hRow, -, hVersion, hId, hDocument, hNewest, rfl⟩ := Tables.setCurrentVersion_some hSome
    exact .setCurrentVersion org document version row v hRow hVersion hId hDocument hNewest
  | setStatus org id status =>
    apply Effect.write
    intro t' hSome
    obtain ⟨row, hRow, -, -, rfl⟩ := Tables.updateDocument_some hSome
    exact .setStatus org id status row hRow
  | setStatusIf org id source target =>
    apply Effect.write
    intro t' hSome
    obtain ⟨row, hRow, -, -, rfl⟩ := Tables.updateDocument_some hSome
    exact .setStatusIf org id source target row hRow
  | linkEntry org document entry =>
    apply Effect.write
    intro t' hSome
    obtain rfl := Tables.linkEntry_some hSome
    exact .linkEntry org document entry
  | remove org document =>
    simp only [exec]
    rcases Tables.remove_eq s.tables org document with hSame | ⟨row, hRow, hLive, hGone⟩
    · rw [hSame]
      exact .nothing _
    · rw [hGone]
      exact .remove org document row hRow hLive
  | voidDocument org id voiding =>
    apply Effect.write
    intro t' hSome
    obtain ⟨row, hRow, -, hLive, rfl⟩ := Tables.updateDocument_some hSome
    exact .voidDocument org id voiding row hRow (by simpa using hLive)
  | putObject key bytes => exact .putObject key bytes
  | submit payload => exact .submit payload

/-- The row of a document that has just been made. -/
theorem create_row {s : Store J} {org : Uuid} {d : NewDocument J} (h : (exec (.create org d) s).1 = true) :
    d.id ∈ (exec (.create org d) s).2.known ∧ (exec (.create org d) s).2.tables.documents d.id = some (d.row org) := by
  simp only [exec] at h ⊢
  split at h
  · cases h
  · rename_i hFresh
    rw [if_neg hFresh]
    exact ⟨List.mem_cons_of_mem _ List.mem_cons_self, Table.put_same _ _ _⟩

abbrev DocumentM (J α : Type) : Type := Program (DocumentCommand J) DocumentCommand.Reply α

def call (c : DocumentCommand J) : DocumentM J c.Reply := perform c

/-! ### The API -/

/-- `startUpload` on a request that has passed its checks. -/
def startUpload (org id versionId : Uuid) (s3Key mime : String) (inputSnapshot : J) : DocumentM J Unit := do
  if ← call (.create org ⟨id, versionId, .uploaded, .draft, none, none, some inputSnapshot⟩) then do
    let _ ← call (.setPendingUpload org id s3Key mime)
    let _ ← call (.findInOrg id org true)
    pure ()
  else pure ()

/-- The lifecycle check of `confirmUpload`: the version that it is to write, and its key and mime. -/
def pendingUpload? (found : Document J) : Option (Uuid × String × String) :=
  if found.source ≠ .uploaded ∨ found.status ≠ .draft then none
  else
    match found.current.bind VersionRow.s3Key, found.currentVersionId with
    | some s3Key, some version =>
      if s3Key = "" then none else some (version, s3Key, (found.current.bind VersionRow.mime).getD "")
    | _, _ => none

def confirmUpload (org id : Uuid) (checksum : String) (sizeBytes : Nat) : DocumentM J Unit := do
  match ← call (.findInOrg id org true) with
  | none => pure ()
  | some found =>
    match pendingUpload? found with
    | none => pure ()
    | some (version, s3Key, mime) => do
      if ← call (.objectExists s3Key) then do
        let _ ← call (.setVersionFile org version ⟨s3Key, checksum, mime, sizeBytes, none⟩)
        let _ ← call (.setStatus org id .final)
        let _ ← call (.findInOrg id org true)
        pure ()
      else pure ()

/-- Each endpoint that generates a document does this once its input has passed the checks. -/
def generate (org id versionId : Uuid) (slug templateVersion : String) (input : J) (linkEntryId : Option Uuid) :
    DocumentM J Unit := do
  if ← call (.create org ⟨id, versionId, .generated, .draft, some slug, some templateVersion, some input⟩) then do
    match linkEntryId with
    | none => pure ()
    | some entry => do
      let _ ← call (.linkEntry org id entry)
      pure ()
    let first ← call (.latestVersion org id true)
    call (.submit ⟨org, id, first.map VersionRow.id, slug, input⟩)
  else pure ()

/-- The document can be edited: it is generated from a template and not voided. -/
def editableSlug? (found : Document J) : Option String :=
  if found.source ≠ .generated ∨ found.voided.isSome then none
  else found.templateSlug.filter (· ≠ "")

/-- `edit` makes the new input of the snapshot of the latest version, where the request has passed its
checks, with the template version that it has been validated for. -/
def createVersion (org id versionId : Uuid) (edit : String → Option J → Option (J × String)) : DocumentM J Unit := do
  match ← call (.findInOrg id org true) with
  | none => pure ()
  | some found =>
    match editableSlug? found with
    | none => pure ()
    | some slug => do
      match ← call (.latestVersion org id false) with
      | none => pure ()
      | some previous =>
        match edit slug previous.inputSnapshot with
        | none => pure ()
        | some (input, templateVersion) => do
          match ← call (.addVersion org id versionId (some input) (some templateVersion)) with
          | none => pure ()
          | some version => call (.submit ⟨org, id, some version.id, slug, input⟩)

def removeDocument (org id : Uuid) : DocumentM J Unit := do
  match ← call (.findInOrg id org false) with
  | none => pure ()
  | some _ => do
    let _ ← call (.remove org id)
    pure ()

def voidDocument (org id : Uuid) (voiding : Voiding) : DocumentM J Unit := do
  match ← call (.findInOrg id org false) with
  | none => pure ()
  | some found =>
    if found.voided.isSome then pure ()
    else do
      let _ ← call (.voidDocument org id voiding)
      let _ ← call (.findInOrg id org true)
      pure ()

/-! ### The worker -/

section

variable (sha256Hex : ByteArray → String)

/-- The steps of `process_job` once it knows its version: the check of the version's state, the upload,
the file's metadata, and the publication. -/
def storeRender (payload : RenderPayload J) (version : Uuid) (bytes : ByteArray) (engine : String) :
    DocumentM J Unit := do
  match ← call (.versionRenderState payload.orgId payload.documentId version) with
  | .missing | .alreadyRendered | .superseded | .voided => pure ()
  | .renderable => do
    let key := versionKey (toString payload.orgId) "generated" (toString version) (payload.slug ++ ".pdf")
    call (.putObject key bytes)
    if ← call (.setVersionFile payload.orgId version
        ⟨key, sha256Hex bytes, "application/pdf", bytes.size, some engine⟩) then do
      if ← call (.setCurrentVersion payload.orgId payload.documentId version) then do
        let _ ← call (.setStatusIf payload.orgId payload.documentId .draft .final)
        pure ()
      else pure ()
    else pure ()

/-- `process_job` after the render that has made `bytes` with `engine`. -/
def processJob (payload : RenderPayload J) (bytes : ByteArray) (engine : String) : DocumentM J Unit :=
  match payload.versionId with
  | some version => storeRender sha256Hex payload version bytes engine
  | none => do
    match ← call (.latestVersion payload.orgId payload.documentId true) with
    | none => pure ()
    | some latest =>
      -- An old payload is only good for a version 1 that nothing has touched.
      if latest.versionNo ≠ 1 ∨ latest.s3Key.isSome then pure ()
      else storeRender sha256Hex payload latest.id bytes engine

/-- What is run. -/
inductive Operation (J : Type) where
  | startUpload (org id versionId : Uuid) (s3Key mime : String) (inputSnapshot : J)
  | confirmUpload (org id : Uuid) (checksum : String) (sizeBytes : Nat)
  | generate (org id versionId : Uuid) (slug templateVersion : String) (input : J) (linkEntryId : Option Uuid)
  | createVersion (org id versionId : Uuid) (edit : String → Option J → Option (J × String))
  | remove (org id : Uuid)
  | voidDocument (org id : Uuid) (voiding : Voiding)
  | processJob (payload : RenderPayload J) (bytes : ByteArray) (engine : String)

def Operation.program : Operation J → DocumentM J Unit
  | .startUpload org id versionId s3Key mime inputSnapshot =>
    Documents.startUpload org id versionId s3Key mime inputSnapshot
  | .confirmUpload org id checksum sizeBytes => Documents.confirmUpload org id checksum sizeBytes
  | .generate org id versionId slug templateVersion input linkEntryId =>
    Documents.generate org id versionId slug templateVersion input linkEntryId
  | .createVersion org id versionId edit => Documents.createVersion org id versionId edit
  | .remove org id => removeDocument org id
  | .voidDocument org id voiding => Documents.voidDocument org id voiding
  | .processJob payload bytes engine => Documents.processJob sha256Hex payload bytes engine

/-- What an operation calls besides reads. -/
def Operation.MayCall : Operation J → DocumentCommand J → Prop
  | _, .findInOrg _ _ _ | _, .latestVersion _ _ _ | _, .versionRenderState _ _ _ | _, .objectExists _ => True
  | .startUpload _ _ _ _ _ _, .create _ d => d.templateSlug = none
  | .startUpload _ _ _ _ _ _, .setPendingUpload _ _ _ _ => True
  | .confirmUpload _ _ _ _, .setVersionFile _ _ _ | .confirmUpload _ _ _ _, .setStatus _ _ _ => True
  | .generate _ _ _ _ _ _ _, .create _ _ | .generate _ _ _ _ _ _ _, .linkEntry _ _ _
  | .generate _ _ _ _ _ _ _, .submit _ => True
  | .createVersion _ _ _ _, .addVersion _ _ _ _ _ | .createVersion _ _ _ _, .submit _ => True
  | .remove _ _, .remove _ _ | .voidDocument _ _ _, .voidDocument _ _ _ => True
  | .processJob _ _ _, .putObject _ _ | .processJob _ _ _, .setCurrentVersion _ _ _
  | .processJob _ _ _, .setStatusIf _ _ _ _ => True
  | .processJob _ bytes _, .setVersionFile _ _ file => file.checksumSha256 = sha256Hex bytes
  | _, _ => False

theorem storeRender_calls (payload : RenderPayload J) (version : Uuid) (bytes : ByteArray) (engine : String) :
    (storeRender sha256Hex payload version bytes engine).Calls
      (Operation.MayCall sha256Hex (.processJob payload bytes engine)) := by
  refine ⟨trivial, fun state => ?_⟩
  cases state with
  | missing | alreadyRendered | superseded | voided => trivial
  | renderable =>
    refine ⟨trivial, fun _ => ⟨rfl, fun recorded => ?_⟩⟩
    cases recorded with
    | false => trivial
    | true =>
      refine ⟨trivial, fun published => ?_⟩
      cases published with
      | false => trivial
      | true => exact ⟨trivial, fun _ => trivial⟩

theorem Operation.program_calls (op : Operation J) : (op.program sha256Hex).Calls (op.MayCall sha256Hex) := by
  cases op with
  | startUpload org id versionId s3Key mime inputSnapshot =>
    refine ⟨rfl, fun created => ?_⟩
    cases created with
    | false => trivial
    | true => exact ⟨trivial, fun _ => ⟨trivial, fun _ => trivial⟩⟩
  | confirmUpload org id checksum sizeBytes =>
    refine ⟨trivial, fun found => ?_⟩
    cases found with
    | none => trivial
    | some found =>
      simp only [Program.bind]
      split
      · trivial
      · refine ⟨trivial, fun there => ?_⟩
        cases there with
        | false => trivial
        | true => exact ⟨trivial, fun _ => ⟨trivial, fun _ => ⟨trivial, fun _ => trivial⟩⟩⟩
  | generate org id versionId slug templateVersion input linkEntryId =>
    refine ⟨trivial, fun created => ?_⟩
    cases created with
    | false => trivial
    | true =>
      cases linkEntryId with
      | none => exact ⟨trivial, fun _ => ⟨trivial, fun _ => trivial⟩⟩
      | some entry => exact ⟨trivial, fun _ => ⟨trivial, fun _ => ⟨trivial, fun _ => trivial⟩⟩⟩
  | createVersion org id versionId edit =>
    refine ⟨trivial, fun found => ?_⟩
    cases found with
    | none => trivial
    | some found =>
      simp only [Program.bind]
      split
      · trivial
      · refine ⟨trivial, fun previous => ?_⟩
        cases previous with
        | none => trivial
        | some previous =>
          simp only [Program.bind]
          split
          · trivial
          · refine ⟨trivial, fun added => ?_⟩
            cases added with
            | none => trivial
            | some version => exact ⟨trivial, fun _ => trivial⟩
  | remove org id =>
    refine ⟨trivial, fun found => ?_⟩
    cases found with
    | none => trivial
    | some found => exact ⟨trivial, fun _ => trivial⟩
  | voidDocument org id voiding =>
    refine ⟨trivial, fun found => ?_⟩
    cases found with
    | none => trivial
    | some found =>
      simp only [Program.bind]
      split
      · trivial
      · exact ⟨trivial, fun _ => ⟨trivial, fun _ => trivial⟩⟩
  | processJob payload bytes engine =>
    show (Documents.processJob sha256Hex payload bytes engine).Calls _
    unfold Documents.processJob
    split
    · exact storeRender_calls sha256Hex payload _ bytes engine
    · refine ⟨trivial, fun latest => ?_⟩
      cases latest with
      | none => trivial
      | some latest =>
        simp only [Program.bind]
        split
        · trivial
        · exact storeRender_calls sha256Hex payload _ bytes engine

/-- An operation may start at any time, a render job with any payload and any number of times. -/
def Starts (op : Operation J) (program : DocumentM J Unit) : Prop := program = op.program sha256Hex

end

/-- What changes besides: the replica catches up, a client puts the file of its upload, and entries and
references come and go. -/
inductive Elsewhere (s : Store J) : Store J → Prop where
  | replicate : Elsewhere s { s with replica := s.tables }
  | upload (key : String) (bytes : ByteArray) (hKey : key ∈ s.uploads) :
      Elsewhere s { s with objects := s.objects.put key bytes }
  | others (entries : Table Uuid EntryRow) (referenced : List Uuid) :
      Elsewhere s (s.withTables { s.tables with entries, referenced })

abbrev DocumentSystem (J : Type) : Type :=
  System (Operation J) (DocumentCommand J) DocumentCommand.Reply (Store J)

/-- The operations with the store, any number of them at once; a command is only called where `Guard` admits
it. -/
abbrev DocumentStep (sha256Hex : ByteArray → String) (Guard : DocumentCommand J → Store J → Prop) :
    DocumentSystem J → DocumentSystem J → Prop :=
  SystemStep exec (Starts sha256Hex) (fun _ => Guard) Elsewhere

/-- Any command at any time. -/
def Always (_ : DocumentCommand J) (_ : Store J) : Prop := True

/-- No document as yet. -/
structure NoDocuments (s : Store J) : Prop where
  documents : s.tables.documents = Table.empty
  versions : s.tables.versions = []

/-! ### Runs of single operations -/

def noTables : Tables String := ⟨Table.empty, [], [], Table.empty, []⟩

/-- The store before its first document. -/
def noDocuments : DocumentSystem String := ⟨⟨noTables, noTables, Table.empty, [], [], []⟩, Table.empty⟩

/-- The SHA-256 where the only file is one of no bytes. -/
def sha256OfNothing (_ : ByteArray) : String := "e3b0c44298fc1c149afbf4c8996fb92427ae41e4649b934ca495991b7852b855"

/-- The process `n` runs `k` commands of an operation. -/
def ran (sha256Hex : ByteArray → String) (w : DocumentSystem String) (n : Nat) (op : Operation String) (k : Nat) :
    DocumentSystem String :=
  w.launch exec n op (op.program sha256Hex) k

theorem ran_run {sha256Hex : ByteArray → String} {w : DocumentSystem String} {n : Nat} {op : Operation String} (k : Nat)
    (hFree : w.processes n = none) : Run (DocumentStep sha256Hex Always) w (ran sha256Hex w n op k) :=
  run_launch k hFree rfl fun _ _ => trivial

theorem resumed_run {sha256Hex : ByteArray → String} {w : DocumentSystem String} (n k : Nat) :
    Run (DocumentStep sha256Hex Always) w (w.resume exec n k) :=
  run_resume n k fun _ _ _ => trivial

end CyberAccountant.Documents
