import CyberAccountant.Documents.Integrity

/-! The file of a version, rendered any number of times.  A render looks at the state of its version
before it puts the object, and `set_version_file` does not look again: the file is only written once
where no other render puts or records anything between. -/

namespace CyberAccountant.Documents

open CyberAccountant.Library CyberAccountant.Library.Program CyberAccountant.Ledger CyberAccountant.Files

variable {J : Type}

def Store.version? (s : Store J) (version : Uuid) : Option (VersionRow J) :=
  rowOf VersionRow.id s.tables.versions version

/-- What a render has made. -/
def Operation.bytes? : Operation J → Option ByteArray
  | .processJob _ bytes _ => some bytes
  | _ => none

inductive IsRender (sha256Hex : ByteArray → String) : Operation J → DocumentM J Unit → Prop where
  | intro (payload : RenderPayload J) (bytes : ByteArray) (engine : String) :
    IsRender sha256Hex (.processJob payload bytes engine) (processJob sha256Hex payload bytes engine)

/-- A render puts an object under the key that the version has recorded only if it is there already.  It
records its file for the version only while its object is the one under the key, and the version has
recorded no other key. -/
def WritesOnce (version : Uuid) (op : Operation J) : DocumentCommand J → Store J → Prop
  | .putObject key bytes, s => ∀ v, s.version? version = some v → v.s3Key = some key → s.objects key = some bytes
  | .setVersionFile _ id file, s => id = version → s.objects file.s3Key = op.bytes? ∧
      ∀ v key, s.version? version = some v → v.s3Key = some key → key = file.s3Key
  | _, _ => True

/-- What happens besides neither makes the version nor touches its file. -/
def FileKept (version : Uuid) (s s' : Store J) : Prop :=
  ∀ v', s'.version? version = some v' → ∃ v, s.version? version = some v ∧ v'.s3Key = v.s3Key ∧
    v'.checksumSha256 = v.checksumSha256 ∧ ∀ key, v.s3Key = some key → s'.objects key = s.objects key

/-- Any number of renders with any payloads, and any of them may crash. -/
abbrev RenderStep (sha256Hex : ByteArray → String) (version : Uuid) : DocumentSystem J → DocumentSystem J → Prop :=
  SystemStep exec (IsRender sha256Hex) (WritesOnce version) (FileKept version)

/-- The object under the recorded key has the recorded checksum. -/
def FileMatches (sha256Hex : ByteArray → String) (version : Uuid) (s : Store J) : Prop :=
  ∀ v key, s.version? version = some v → v.s3Key = some key →
    ∃ bytes, s.objects key = some bytes ∧ v.checksumSha256 = some (sha256Hex bytes)

/-- A recorded file is the same later. -/
def FileStays (version : Uuid) (s s' : Store J) : Prop :=
  ∀ v', s'.version? version = some v' → ∃ v, s.version? version = some v ∧
    ∀ key, v.s3Key = some key →
      v'.s3Key = some key ∧ v'.checksumSha256 = v.checksumSha256 ∧ s'.objects key = s.objects key

section

variable {sha256Hex : ByteArray → String} {version : Uuid} {s s' : Store J}

theorem FileStays.refl (version : Uuid) (s : Store J) : FileStays version s s :=
  fun v hv => ⟨v, hv, fun _ hKey => ⟨hKey, rfl, rfl⟩⟩

theorem FileStays.trans {s'' : Store J} (hFirst : FileStays version s s') (hRest : FileStays version s' s'') :
    FileStays version s s'' := by
  intro v'' hv''
  obtain ⟨v', hv', hLater⟩ := hRest v'' hv''
  obtain ⟨v, hv, hNow⟩ := hFirst v' hv'
  refine ⟨v, hv, fun key hKey => ?_⟩
  obtain ⟨hKey', hSum', hObject'⟩ := hNow key hKey
  obtain ⟨hKey'', hSum'', hObject''⟩ := hLater key hKey'
  exact ⟨hKey'', hSum''.trans hSum', hObject''.trans hObject'⟩

theorem FileKept.stays (h : FileKept version s s') : FileStays version s s' := by
  intro v' hv'
  obtain ⟨v, hv, hKey, hSum, hObject⟩ := h v' hv'
  exact ⟨v, hv, fun key hRecorded => ⟨hKey.trans hRecorded, hSum, hObject key hRecorded⟩⟩

theorem FileKept.matches (h : FileKept version s s') (hMatches : FileMatches sha256Hex version s) :
    FileMatches sha256Hex version s' := by
  intro v' key hv' hRecorded
  obtain ⟨v, hv, hKey, hSum, hObject⟩ := h v' hv'
  have hBefore : v.s3Key = some key := hKey.symm.trans hRecorded
  obtain ⟨bytes, hBytes, hIs⟩ := hMatches v key hv hBefore
  exact ⟨bytes, (hObject key hBefore).trans hBytes, hSum.trans hIs⟩

theorem FileKept.of_same (hVersions : s'.tables.versions = s.tables.versions) (hObjects : s'.objects = s.objects) :
    FileKept version s s' := by
  intro v' hv'
  refine ⟨v', ?_, rfl, rfl, fun key _ => by rw [hObjects]⟩
  rw [Store.version?, ← hVersions]
  exact hv'

theorem FileKept.append {v : VersionRow J} (hNe : v.id ≠ version)
    (hNew : ∀ v' ∈ s.tables.versions, v'.id ≠ v.id) (hVersions : s'.tables.versions = s.tables.versions ++ [v])
    (hObjects : s'.objects = s.objects) : FileKept version s s' := by
  intro v' hv'
  rw [Store.version?, hVersions, rowOf_append_new hNew, if_neg hNe.symm] at hv'
  exact ⟨v', hv', rfl, rfl, fun key _ => by rw [hObjects]⟩

/-- What else the API calls for a version that there is keeps its file, but for the calls that record the
key of an upload. -/
theorem exec_fileKept (hOk : s.Ok) (hKnown : version ∈ s.known) {c : DocumentCommand J}
    (hPut : ∀ key bytes, c ≠ .putObject key bytes) (hFile : ∀ org id file, c ≠ .setVersionFile org id file)
    (hPending : ∀ org id key mime, c ≠ .setPendingUpload org id key mime) :
    FileKept version s (exec c s).2 := by
  have hOld : ∀ id, id ∉ s.known → ∀ v ∈ s.tables.versions, v.id ≠ id := by
    rintro id hNew v hv rfl
    exact hNew (hOk.versionKnown v hv)
  have hOther : ∀ id, id ∉ s.known → id ≠ version := by
    rintro id hNew rfl
    exact hNew hKnown
  have hEffect := exec_effect c s
  generalize (exec c s).2 = s' at hEffect ⊢
  cases hEffect with
  | create org d hNew hNewVersion =>
    have hFresh : d.versionId ∉ s.known := fun h => hNewVersion (List.mem_cons_of_mem _ h)
    exact .append (hOther _ hFresh) (hOld _ hFresh) rfl rfl
  | addVersion org document versionId inputSnapshot templateVersion row v hRow hNew hBlank =>
    subst hBlank
    exact .append (hOther _ hNew) (hOld _ hNew) rfl rfl
  | remove org document row hRow hLive =>
    intro v hv
    have hMem : v ∈ s.tables.versions := (List.mem_filter.mp (rowOf_mem hv)).1
    have hFound : s.version? version = some v := by
      cases hCase : s.version? version with
      | none => exact absurd (rowOf_key hv) (rowOf_eq_none.mp hCase v hMem)
      | some v' =>
        rw [hOk.versionIds v hMem v' (rowOf_mem hCase) ((rowOf_key hv).trans (rowOf_key hCase).symm)]
    exact ⟨v, hFound, rfl, rfl, fun _ _ => rfl⟩
  | nothing | setCurrentVersion | setStatus | setStatusIf | linkEntry | voidDocument | submit =>
    exact .of_same rfl rfl
  | putObject key bytes => exact absurd rfl (hPut key bytes)
  | setVersionFile org id file => exact absurd rfl (hFile org id file)
  | setPendingUpload org id key mime => exact absurd rfl (hPending org id key mime)

/-- The object of a render under its key, in the states in which it is put. -/
theorem putObject_file {op : Operation J} {key : String} {bytes : ByteArray}
    (hGuard : WritesOnce version op (.putObject key bytes) s) :
    FileKept version s { s with objects := s.objects.put key bytes } := by
  intro v hv
  refine ⟨v, hv, rfl, rfl, fun key' hKey => ?_⟩
  by_cases hSame : key' = key
  · subst hSame
    exact (Table.put_same _ _ _).trans (hGuard v hv hKey).symm
  · exact Table.put_ne hSame

section

variable {id : Uuid} {file : StoredFile}

/-- The store after `set_version_file`. -/
abbrev filedStore (s : Store J) (id : Uuid) (file : StoredFile) : Store J :=
  s.withTables { s.tables with versions := changeRow VersionRow.id s.tables.versions id (.filed file) }

theorem filedStore_same {v' : VersionRow J} (h : (filedStore s id file).version? id = some v') :
    ∃ v, s.version? id = some v ∧ v' = v.filed file := by
  have hId : ∀ v : VersionRow J, (v.filed file).id = v.id := fun _ => rfl
  have hFound : rowOf VersionRow.id (changeRow VersionRow.id s.tables.versions id (.filed file)) id = some v' := h
  rw [rowOf_changeRow_same hId] at hFound
  obtain ⟨v, hv, rfl⟩ := Option.map_eq_some_iff.mp hFound
  exact ⟨v, hv, rfl⟩

theorem filedStore_other (hNe : version ≠ id) : FileKept version s (filedStore s id file) := by
  have hId : ∀ v : VersionRow J, (v.filed file).id = v.id := fun _ => rfl
  intro v (hv : rowOf VersionRow.id (changeRow VersionRow.id s.tables.versions id (.filed file)) version = some v)
  rw [rowOf_changeRow_ne hId hNe] at hv
  exact ⟨v, hv, rfl, rfl, fun _ _ => rfl⟩

/-- The file of a render, in the states in which it is recorded. -/
theorem setVersionFile_file {op : Operation J} {org : Uuid}
    (hGuard : WritesOnce version op (.setVersionFile org id file) s)
    (hSum : op.bytes?.map sha256Hex = some file.checksumSha256) (hMatches : FileMatches sha256Hex version s) :
    FileMatches sha256Hex version (filedStore s id file) ∧ FileStays version s (filedStore s id file) := by
  by_cases hMine : id = version
  · subst hMine
    obtain ⟨hObject, hOneKey⟩ := hGuard rfl
    obtain ⟨bytes, hBytes, hChecksum⟩ := Option.map_eq_some_iff.mp hSum
    rw [hBytes] at hObject
    constructor
    · intro v' key hv' hKey
      obtain ⟨v, -, rfl⟩ := filedStore_same hv'
      cases hKey
      exact ⟨bytes, hObject, by rw [hChecksum]; rfl⟩
    · intro v' hv'
      obtain ⟨v, hv, rfl⟩ := filedStore_same hv'
      refine ⟨v, hv, fun key hKey => ?_⟩
      -- The version had the file already: its checksum is that of the same object.
      obtain rfl := hOneKey v key hv hKey
      obtain ⟨bytes', hObject', hIs⟩ := hMatches v _ hv hKey
      rw [hObject] at hObject'
      cases hObject'
      exact ⟨rfl, by rw [hIs, hChecksum]; rfl, rfl⟩
  · have hKept : FileKept version s (filedStore s id file) := filedStore_other (Ne.symm hMine)
    exact ⟨hKept.matches hMatches, hKept.stays⟩

end

/-- The commands of a render. -/
def RenderCommand (sha256Hex : ByteArray → String) : Operation J → DocumentCommand J → Prop
  | .processJob payload bytes engine, c => (Operation.processJob payload bytes engine).MayCall sha256Hex c
  | _, _ => False

theorem isRender_calls {op : Operation J} {program : DocumentM J Unit} (h : IsRender sha256Hex op program) :
    program.Calls (RenderCommand sha256Hex op) := by
  cases h with
  | intro payload bytes engine => exact (Operation.processJob payload bytes engine).program_calls sha256Hex

theorem exec_file {op : Operation J} {c : DocumentCommand J} (hCommand : RenderCommand sha256Hex op c)
    (hGuard : WritesOnce version op c s) (hMatches : FileMatches sha256Hex version s) :
    FileMatches sha256Hex version (exec c s).2 ∧ FileStays version s (exec c s).2 := by
  have hKept : ∀ {s'}, FileKept version s s' → FileMatches sha256Hex version s' ∧ FileStays version s s' := fun h =>
    ⟨h.matches hMatches, h.stays⟩
  cases op with
  | startUpload | confirmUpload | generate | createVersion | remove | voidDocument => exact hCommand.elim
  | processJob payload bytes engine =>
    have hEffect := exec_effect c s
    generalize (exec c s).2 = s' at hEffect ⊢
    cases hEffect with
    | nothing | setCurrentVersion | setStatusIf => exact hKept (.of_same rfl rfl)
    | putObject key bytes => exact hKept (putObject_file hGuard)
    | setVersionFile org id file => exact setVersionFile_file hGuard (congrArg some hCommand.symm) hMatches
    | create | setPendingUpload | addVersion | setStatus | linkEntry | remove | voidDocument | submit =>
      exact hCommand.elim

end

def bytesA : ByteArray := ⟨#[0x41]⟩

def bytesB : ByteArray := ⟨#[0x42]⟩

/-- The SHA-256 of the bytes that are stored here. -/
def sha256OfAB (bytes : ByteArray) : String :=
  if bytes.data = bytesA.data then "559aead08264d5795d3909718cdd05abd49572e84fe55590eef31a88a08fdffd"
  else "df7e70e5021544f4834bbee64a9e3789febc4be81470df629cad6ddb03320a5c"

def invoice : DocumentSystem String :=
  ran sha256OfAB noDocuments 0 (.generate 1 10 11 "invoice" "v1" "input" none) 3

def invoicePayload : RenderPayload String := ⟨1, 10, some 11, "invoice", "input"⟩

def invoiceKey : String := "org/1/generated/11/invoice.pdf"

def invoiceChecked : DocumentSystem String :=
  ran sha256OfAB invoice 1 (.processJob invoicePayload bytesA "xelatex") 1

/-- Its version with the file of a render. -/
def invoiceFiled (bytes : ByteArray) : VersionRow String :=
  (VersionRow.blank 11 1 10 1 (some "v1") (some "input")).filed
    ⟨invoiceKey, sha256OfAB bytes, "application/pdf", 1, some "xelatex"⟩

/-- The invoice with no process any more. -/
def invoiceAlone : DocumentSystem String := ⟨invoice.state, Table.empty⟩

def invoiceStored : DocumentSystem String :=
  ran sha256OfAB invoiceAlone 1 (.processJob invoicePayload bytesA "xelatex") 3

/-- Both have found the version without a file. -/
def invoiceRendering : DocumentSystem String :=
  ran sha256OfAB invoiceChecked 2 (.processJob invoicePayload bytesB "xelatex") 1

theorem invoiceRendering_run : Run (DocumentStep sha256OfAB Always) noDocuments invoiceRendering := by
  have hInvoice : Run (DocumentStep sha256OfAB Always) noDocuments invoice := ran_run 3 rfl
  have hChecked : Run (DocumentStep sha256OfAB Always) invoice invoiceChecked := ran_run 1 rfl
  have hBoth : Run (DocumentStep sha256OfAB Always) invoiceChecked invoiceRendering := ran_run 1 rfl
  exact (hInvoice.trans hChecked).trans hBoth

end CyberAccountant.Documents
