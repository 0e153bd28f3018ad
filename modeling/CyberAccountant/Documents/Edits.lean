import CyberAccountant.Api.Validation
import CyberAccountant.Documents.TemplateChoice

/-! Edits of a document whose form the server has built.  A request reads the newest version, merges the
client's input into its snapshot and adds the result as the next version, each in a transaction of its own.
A read that may go to a replica sees the store as it is or as it was at any time before. -/

namespace CyberAccountant.Documents

open CyberAccountant.Library CyberAccountant.Library.Program CyberAccountant.Ledger CyberAccountant.Docgen
open CyberAccountant.Api.Validation

/-- A `createVersion` request; it draws the id of its version. -/
structure EditRequest where
  org : Uuid
  document : Uuid
  versionId : Uuid
  input : List (String × Json)

/-- How far a request has come. -/
inductive EditStage where
  | received
  | found (slug : String)
  | merged (slug : String) (base : VersionRow Json) (input : Json) (templateVersion : String)
  | stored (slug : String) (input : Json) (v : VersionRow Json)
  | ended

section

variable (authored : String → List (String × Json) → Option Json) (validateAgainst : Json → Json → Option String)
  (registry : TemplateRegistry Json)

/-- The input of the new version: the client's own, as `authored` completes it, or the snapshot with what the
client may write over it. -/
def editInput (client : List (String × Json)) (slug : String) (snapshot : Option Json) : Option Json :=
  if InputPolicy.inputIsCallerAuthored slug then authored slug client
  else
    match mergeAllowedExtra (snapshot.getD (.obj [])) client (InputPolicy.editableFields slug) with
    | (.ok (), merged) => some merged
    | (.error _, _) => none

def EditRequest.edit (r : EditRequest) (slug : String) (snapshot : Option Json) : Option (Json × String) :=
  (editInput authored r.input slug snapshot).bind (checkInput validateAgainst registry slug)

namespace EditRequest

def afterFind : Option (Document Json) → EditStage
  | none => .ended
  | some found =>
    match editableSlug? found with
    | none => .ended
    | some slug => .found slug

def afterRead (r : EditRequest) (slug : String) : Option (VersionRow Json) → EditStage
  | none => .ended
  | some base =>
    match r.edit authored validateAgainst registry slug base.inputSnapshot with
    | none => .ended
    | some (input, templateVersion) => .merged slug base input templateVersion

def afterAdd (slug : String) (input : Json) : Option (VersionRow Json) → EditStage
  | none => .ended
  | some v => .stored slug input v

/-- What the request has yet to do. -/
def rest (r : EditRequest) : EditStage → DocumentM Json Unit
  | .received => createVersion r.org r.document r.versionId (r.edit authored validateAgainst registry)
  | .found slug => do
    match ← call (.latestVersion r.org r.document false) with
    | none => pure ()
    | some previous =>
      match r.edit authored validateAgainst registry slug previous.inputSnapshot with
      | none => pure ()
      | some (input, templateVersion) => do
        match ← call (.addVersion r.org r.document r.versionId (some input) (some templateVersion)) with
        | none => pure ()
        | some v => call (.submit ⟨r.org, r.document, some v.id, slug, input⟩)
  | .merged slug _ input templateVersion => do
    match ← call (.addVersion r.org r.document r.versionId (some input) (some templateVersion)) with
    | none => pure ()
    | some v => call (.submit ⟨r.org, r.document, some v.id, slug, input⟩)
  | .stored slug input v => call (.submit ⟨r.org, r.document, some v.id, slug, input⟩)
  | .ended => pure ()

variable {authored validateAgainst registry} (r : EditRequest)

theorem rest_received : r.rest authored validateAgainst registry .received =
    .call (.findInOrg r.document r.org true) fun found =>
      r.rest authored validateAgainst registry (afterFind found) := by
  refine congrArg (Program.call _) (funext fun found => ?_)
  cases found with
  | none => rfl
  | some found =>
    simp only [Program.bind, afterFind]
    cases editableSlug? found with
    | none => rfl
    | some slug =>
      refine congrArg (Program.call _) (funext fun base => ?_)
      cases base with
      | none => rfl
      | some base =>
        simp only [Program.bind]
        cases r.edit authored validateAgainst registry slug base.inputSnapshot with
        | none => rfl
        | some edited =>
          refine congrArg (Program.call _) (funext fun added => ?_)
          cases added <;> rfl

theorem rest_found (slug : String) : r.rest authored validateAgainst registry (.found slug) =
    .call (.latestVersion r.org r.document false) fun base =>
      r.rest authored validateAgainst registry (r.afterRead authored validateAgainst registry slug base) := by
  refine congrArg (Program.call _) (funext fun base => ?_)
  cases base with
  | none => rfl
  | some base =>
    simp only [Program.bind, afterRead]
    cases r.edit authored validateAgainst registry slug base.inputSnapshot <;> rfl

theorem rest_merged (slug : String) (base : VersionRow Json) (input : Json) (templateVersion : String) :
    r.rest authored validateAgainst registry (.merged slug base input templateVersion) =
      .call (.addVersion r.org r.document r.versionId (some input) (some templateVersion)) fun added =>
        r.rest authored validateAgainst registry (afterAdd slug input added) := by
  refine congrArg (Program.call _) (funext fun added => ?_)
  cases added <;> rfl

theorem rest_stored (slug : String) (input : Json) (v : VersionRow Json) :
    r.rest authored validateAgainst registry (.stored slug input v) =
      .call (.submit ⟨r.org, r.document, some v.id, slug, input⟩) fun _ =>
        r.rest authored validateAgainst registry .ended := rfl

end EditRequest

/-- The store, what it has been before, and the requests. -/
structure EditWorld where
  store : Store Json
  earlier : List (Store Json)
  requests : Table Nat (EditRequest × EditStage)

/-- One step: a request starts or makes its next call, or another operation makes one.  A request adds its
version only where `Guard` admits it for the version that it has read; `clientInput` tells the input of the
request that draws an id. -/
inductive EditStep (clientInput : Uuid → List (String × Json))
    (Guard : Store Json → EditRequest → VersionRow Json → Prop) : EditWorld → EditWorld → Prop where
  | start (w : EditWorld) (n : Nat) (r : EditRequest) (hFree : w.requests n = none)
      (hInput : r.input = clientInput r.versionId) :
      EditStep clientInput Guard w { w with requests := w.requests.put n (r, .received) }
  | find (w : EditWorld) (n : Nat) (r : EditRequest) (hHere : w.requests n = some (r, .received)) :
      EditStep clientInput Guard w { w with
        requests := w.requests.put n
          (r, EditRequest.afterFind (w.store.tables.findInOrg r.document r.org)) }
  | read (w : EditWorld) (n : Nat) (r : EditRequest) (slug : String) (seen : Store Json)
      (hHere : w.requests n = some (r, .found slug)) (hSeen : seen ∈ w.store :: w.earlier) :
      EditStep clientInput Guard w { w with
        requests := w.requests.put n
          (r, r.afterRead authored validateAgainst registry slug (seen.tables.latestVersion r.org r.document)) }
  | add (w : EditWorld) (n : Nat) (r : EditRequest) (slug : String) (base : VersionRow Json) (input : Json)
      (templateVersion : String)
      (hHere : w.requests n = some (r, .merged slug base input templateVersion)) (hGuard : Guard w.store r base) :
      EditStep clientInput Guard w {
        store := (exec (.addVersion r.org r.document r.versionId (some input) (some templateVersion)) w.store).2
        earlier := w.store :: w.earlier
        requests := w.requests.put n (r, EditRequest.afterAdd slug input
          (exec (.addVersion r.org r.document r.versionId (some input) (some templateVersion)) w.store).1) }
  | submit (w : EditWorld) (n : Nat) (r : EditRequest) (slug : String) (input : Json) (v : VersionRow Json)
      (hHere : w.requests n = some (r, .stored slug input v)) :
      EditStep clientInput Guard w {
        store := (exec (.submit ⟨r.org, r.document, some v.id, slug, input⟩) w.store).2
        earlier := w.store :: w.earlier
        requests := w.requests.put n (r, .ended) }
  | other (w : EditWorld) (c : DocumentCommand Json)
      (hOther : ∀ org document versionId snapshot templateVersion,
        c ≠ .addVersion org document versionId snapshot templateVersion) :
      EditStep clientInput Guard w { w with store := (exec c w.store).2, earlier := w.store :: w.earlier }
  | elsewhere (w : EditWorld) (s : Store Json) (hChange : Elsewhere w.store s) :
      EditStep clientInput Guard w { w with store := s, earlier := w.store :: w.earlier }

end

/-- The version that the request has read is the newest of the document. -/
def StillNewest (s : Store Json) (r : EditRequest) (base : VersionRow Json) : Prop :=
  (s.tables.latestVersion r.org r.document).map VersionRow.id = some base.id

/-- The input of `next` is that of `v` with the edit of the request that has made it. -/
def Edited (clientInput : Uuid → List (String × Json)) (slug : String) (v next : VersionRow Json) : Prop :=
  ∃ input, mergeAllowedExtra (v.inputSnapshot.getD (.obj [])) (clientInput next.id) (InputPolicy.editableFields slug) =
      (.ok (), input) ∧ next.inputSnapshot = some input

/-- Where the form is one that the server builds, each version is the one before it with the edit that has
made it, and there is one before it if it is not the first. -/
def EditsCompose (clientInput : Uuid → List (String × Json)) (s : Store Json) : Prop :=
  ∀ v ∈ s.tables.versions, ∀ row slug, s.tables.documents v.documentId = some row → row.templateSlug = some slug →
    InputPolicy.inputIsCallerAuthored slug = false →
    (∀ next ∈ s.tables.versions, next.documentId = v.documentId → next.versionNo = v.versionNo + 1 →
      Edited clientInput slug v next) ∧
    (v.versionNo = 1 ∨ ∃ previous ∈ s.tables.versions, previous.documentId = v.documentId ∧
      v.versionNo = previous.versionNo + 1)

/-! ### What stays of the inputs -/

/-- The version, while there is one with its id, has the same input. -/
def InputKept (v : VersionRow Json) (s : Store Json) : Prop :=
  v.id ∈ s.known ∧ ∀ u ∈ s.tables.versions, u.id = v.id → u.inputSnapshot = v.inputSnapshot

/-- Versions with known ids have the inputs that they had. -/
def InputsStay (s s' : Store Json) : Prop :=
  ∀ u' ∈ s'.tables.versions, u'.id ∈ s.known → ∃ u ∈ s.tables.versions, u.id = u'.id ∧ u'.inputSnapshot = u.inputSnapshot

section

variable {s s' : Store Json}

theorem InputsStay.of_subset (h : ∀ u ∈ s'.tables.versions, u ∈ s.tables.versions) : InputsStay s s' :=
  fun u hu _ => ⟨u, h u hu, rfl, rfl⟩

theorem InputsStay.append {v : VersionRow Json} (hVersions : s'.tables.versions = s.tables.versions ++ [v])
    (hNew : v.id ∉ s.known) : InputsStay s s' := by
  intro u hu hKnown
  rw [hVersions] at hu
  rcases List.mem_append.mp hu with hu | hu
  · exact ⟨u, hu, rfl, rfl⟩
  · rw [List.mem_singleton.mp hu] at hKnown
    exact absurd hKnown hNew

theorem InputsStay.change {version : Uuid} {f : VersionRow Json → VersionRow Json}
    (hVersions : s'.tables.versions = changeRow VersionRow.id s.tables.versions version f)
    (hId : ∀ v, (f v).id = v.id) (hInput : ∀ v, (f v).inputSnapshot = v.inputSnapshot) : InputsStay s s' := by
  intro u' hu' _
  rw [hVersions] at hu'
  obtain ⟨u, hu, rfl⟩ := mem_changeRow.mp hu'
  refine ⟨u, hu, ?_⟩
  split
  · exact ⟨(hId u).symm, hInput u⟩
  · exact ⟨rfl, rfl⟩

theorem Effect.inputsStay {c : DocumentCommand Json} (h : Effect s c s') : InputsStay s s' := by
  cases h with
  | create org d hNew hNewVersion => exact .append rfl fun hKnown => hNewVersion (List.mem_cons_of_mem _ hKnown)
  | addVersion org document versionId inputSnapshot templateVersion row v hRow hNew hBlank =>
    refine .append rfl ?_
    rw [hBlank]
    exact hNew
  | setPendingUpload org id s3Key mime row v => exact .change rfl (fun _ => rfl) fun _ => rfl
  | setVersionFile org version file => exact .change rfl (fun _ => rfl) fun _ => rfl
  | remove org document row hRow hLive => exact .of_subset fun u hu => (List.mem_filter.mp hu).1
  | nothing | setCurrentVersion | setStatus | setStatusIf | linkEntry | voidDocument | putObject | submit =>
    exact .of_subset fun u hu => hu

theorem Elsewhere.inputsStay (h : Elsewhere s s') : InputsStay s s' :=
  .of_subset fun u hu => by rwa [h.same.2] at hu

theorem InputKept.stays {v : VersionRow Json} (h : InputKept v s) (hStay : InputsStay s s') (hGrows : StoreGrows s s') :
    InputKept v s' := by
  obtain ⟨hKnown, hInput⟩ := h
  refine ⟨hGrows.known _ hKnown, fun u' hu' hId => ?_⟩
  obtain ⟨u, hu, hSame, hSnapshot⟩ := hStay u' hu' (by rwa [hId])
  exact hSnapshot.trans (hInput u hu (hSame.trans hId))

theorem InputKept.now (hOk : s.Ok) {v : VersionRow Json} (hv : v ∈ s.tables.versions) : InputKept v s :=
  ⟨hOk.versionKnown v hv, fun u hu hId => by rw [hOk.versionIds u hu v hv hId]⟩

/-- A version that was there before is the same one, with the same input. -/
theorem InputsStay.origin (hStay : InputsStay s s') (hOk : s.Ok) (hGrows : StoreGrows s s') {u' : VersionRow Json}
    (hu' : u' ∈ s'.tables.versions) (hKnown : u'.id ∈ s.known) :
    ∃ u ∈ s.tables.versions, Continues u u' ∧ u'.inputSnapshot = u.inputSnapshot := by
  obtain ⟨u, hu, hId, hInput⟩ := hStay u' hu' hKnown
  obtain ⟨v, hv, hContinues⟩ := hGrows.tables.origin u' hu' hKnown
  obtain rfl : u = v := hOk.versionIds u hu v hv (hId.trans hContinues.id)
  exact ⟨u, hu, hContinues, hInput⟩

variable {clientInput : Uuid → List (String × Json)}

/-- What a new version needs for the versions to compose with it. -/
structure Follows (clientInput : Uuid → List (String × Json)) (s : Store Json) (next : VersionRow Json) : Prop where
  edited : ∀ v ∈ s.tables.versions, v.documentId = next.documentId → next.versionNo = v.versionNo + 1 →
    ∀ row slug, s.tables.documents v.documentId = some row → row.templateSlug = some slug →
      InputPolicy.inputIsCallerAuthored slug = false → Edited clientInput slug v next
  newest : ∀ v ∈ s.tables.versions, v.documentId = next.documentId → v.versionNo ≠ next.versionNo + 1
  previous : next.versionNo = 1 ∨ ∃ previous ∈ s.tables.versions, previous.documentId = next.documentId ∧
    next.versionNo = previous.versionNo + 1

theorem EditsCompose.grows (h : EditsCompose clientInput s) (hOk : s.Ok) (hGrows : StoreGrows s s')
    (hStay : InputsStay s s')
    (hNew : ∀ next ∈ s'.tables.versions, next.id ∉ s.known → Follows clientInput s' next) :
    EditsCompose clientInput s' := by
  intro v' hv' row' slug hRow' hSlug hServer
  by_cases hKnown : v'.id ∈ s.known
  · obtain ⟨v, hv, hContinues, hInput⟩ := hStay.origin hOk hGrows hv' hKnown
    obtain ⟨parent, hParent, -⟩ := hOk.parent v hv
    have hDocument : v.documentId ∈ s.known := hOk.documentKnown _ parent hParent
    rw [hContinues.documentId] at hRow'
    obtain ⟨row, hRow, -, -, hSame⟩ := hGrows.tables.document _ hDocument row' hRow'
    obtain ⟨hEdited, hPrevious⟩ := h v hv row slug hRow (hSame.symm.trans hSlug) hServer
    refine ⟨fun next' hNext' hOf hNo => ?_, ?_⟩
    · by_cases hNextKnown : next'.id ∈ s.known
      · obtain ⟨next, hNext, hNextContinues, hNextInput⟩ := hStay.origin hOk hGrows hNext' hNextKnown
        have hBefore := hEdited next hNext
          (by rw [← hNextContinues.documentId, hOf, hContinues.documentId])
          (by rw [← hNextContinues.versionNo, hNo, hContinues.versionNo])
        rw [Edited, hNextContinues.id, hNextInput, hInput]
        exact hBefore
      · exact (hNew next' hNext' hNextKnown).edited v' hv' hOf.symm hNo row' slug
          (by rw [hContinues.documentId, hRow']) hSlug hServer
    · rcases hPrevious with hFirst | ⟨previous, hPrevious, hOf, hNo⟩
      · exact .inl (hContinues.versionNo.trans hFirst)
      · obtain ⟨previous', hPrevious', hSamePrevious⟩ := hGrows.tables.version previous hPrevious (hOf ▸ hDocument)
          (by rw [hOf, hRow']; rfl)
        exact .inr ⟨previous', hPrevious', by rw [hSamePrevious.documentId, hOf, hContinues.documentId],
          by rw [hContinues.versionNo, hNo, hSamePrevious.versionNo]⟩
  · have hFollows := hNew v' hv' hKnown
    refine ⟨fun next' hNext' hOf hNo => absurd hNo (hFollows.newest next' hNext' hOf), hFollows.previous⟩

/-- The first version of a new document. -/
theorem Follows.created {next : VersionRow Json} (hVersions : s'.tables.versions = s.tables.versions ++ [next])
    (hFirst : next.versionNo = 1) (hAlone : ∀ v ∈ s.tables.versions, v.documentId ≠ next.documentId) :
    Follows clientInput s' next := by
  have hOnly : ∀ v ∈ s'.tables.versions, v.documentId = next.documentId → v = next := fun v hv hOf => by
    rw [hVersions] at hv
    rcases List.mem_append.mp hv with hv | hv
    · exact absurd hOf (hAlone v hv)
    · exact List.mem_singleton.mp hv
  refine ⟨fun v hv hOf hNo => ?_, fun v hv hOf hNo => ?_, .inl hFirst⟩
  · rw [hOnly v hv hOf] at hNo
    omega
  · rw [hOnly v hv hOf] at hNo
    omega

theorem maxVersionNo_le {t : Tables Json} {document : Uuid} {n : Nat}
    (h : ∀ v ∈ t.versionsOf document, v.versionNo ≤ n) : t.maxVersionNo document ≤ n := by
  unfold Tables.maxVersionNo
  generalize t.versionsOf document = rows at h
  induction rows with
  | nil => exact Nat.zero_le n
  | cons v rest ih =>
    have hRest := ih fun u hu => h u (List.mem_cons_of_mem v hu)
    exact Nat.max_le.mpr ⟨h v List.mem_cons_self, hRest⟩

/-- The newest version has the greatest number. -/
theorem latestVersion_max {org document : Uuid} {row : DocumentRow} {newest : VersionRow Json} (hOk : s.Ok)
    (hRow : s.tables.documents document = some row) (hOrg : row.orgId = org)
    (h : s.tables.latestVersion org document = some newest) :
    newest.versionNo = s.tables.maxVersionNo document := by
  obtain ⟨hMem, hDocument⟩ := Tables.latestVersion_some h
  apply Nat.le_antisymm
  · have hLe := Tables.le_maxVersionNo hMem
    rwa [hDocument] at hLe
  · refine maxVersionNo_le fun v hv => ?_
    refine List.le_of_mem_argmax (f := VersionRow.versionNo) (List.mem_filter.mpr ⟨hv, ?_⟩) h
    obtain ⟨hvMem, hvDocument⟩ := Tables.mem_versionsOf.mp hv
    obtain ⟨parent, hParent, hSame⟩ := hOk.parent v hvMem
    rw [hvDocument, hRow] at hParent
    cases hParent
    simp [← hSame, hOrg]

/-- A version that a request adds to the one that it has read. -/
theorem Follows.added {r : EditRequest} {slug : String} {base next newest : VersionRow Json} {row : DocumentRow}
    {input : Json} (hOk : s.Ok) (hVersions : s'.tables.versions = s.tables.versions ++ [next])
    (hDocuments : s'.tables.documents = s.tables.documents) (hNext : next.documentId = r.document)
    (hNo : next.versionNo = s.tables.maxVersionNo r.document + 1) (hInput : next.inputSnapshot = some input)
    (hRow : s.tables.documents r.document = some row) (hOrg : row.orgId = r.org)
    (hNewest : s.tables.latestVersion r.org r.document = some newest) (hBase : newest.id = base.id)
    (hKept : InputKept base s) (hSlug : IsOfSlug slug r.document s)
    (hEdited : ∀ snapshot, snapshot = base.inputSnapshot → InputPolicy.inputIsCallerAuthored slug = false →
      mergeAllowedExtra (snapshot.getD (.obj [])) (clientInput next.id) (InputPolicy.editableFields slug) = (.ok (), input)) :
    Follows clientInput s' next := by
  have hMax := latestVersion_max hOk hRow hOrg hNewest
  obtain ⟨hNewestMem, hNewestOf⟩ := Tables.latestVersion_some hNewest
  have hOld : ∀ v ∈ s'.tables.versions, v.documentId = next.documentId →
      v = next ∨ v ∈ s.tables.versions ∧ v.versionNo ≤ s.tables.maxVersionNo r.document := fun v hv hOf => by
    rw [hVersions] at hv
    rcases List.mem_append.mp hv with hv | hv
    · have hLe := Tables.le_maxVersionNo hv
      rw [hOf, hNext] at hLe
      exact .inr ⟨hv, hLe⟩
    · exact .inl (List.mem_singleton.mp hv)
  refine ⟨fun v hv hOf hFollows row' slug' hRow' hSlug' hServer => ?_, fun v hv hOf hAfter => ?_, .inr ?_⟩
  · rcases hOld v hv hOf with rfl | ⟨hvMem, -⟩
    · omega
    · have hSame : v = newest := by
        have hId := hOk.numbers v hvMem newest hNewestMem (by rw [hOf, hNext, hNewestOf]) (by omega)
        exact hOk.versionIds v hvMem newest hNewestMem hId
      rw [hDocuments, hOf, hNext] at hRow'
      obtain rfl := Option.some.inj ((hSlug.2 row' hRow').symm.trans hSlug')
      exact ⟨input, hEdited v.inputSnapshot (hKept.2 v hvMem (by rw [hSame, hBase])) hServer, hInput⟩
  · rcases hOld v hv hOf with rfl | ⟨-, hLe⟩ <;> omega
  · refine ⟨newest, ?_, by rw [hNewestOf, hNext], by rw [hNo, hMax]⟩
    rw [hVersions]
    exact List.mem_append_left _ hNewestMem

end

/-! ### Runs -/

section

variable {authored : String → List (String × Json) → Option Json} {validateAgainst : Json → Json → Option String}
  {registry : TemplateRegistry Json} {clientInput : Uuid → List (String × Json)} {w w' : EditWorld}

/-- What a request that has come to a stage relies on. -/
def StageOk (authored : String → List (String × Json) → Option Json) (s : Store Json) (r : EditRequest) :
    EditStage → Prop
  | .found slug => IsOfSlug slug r.document s
  | .merged slug base input _ => IsOfSlug slug r.document s ∧ InputKept base s ∧
      editInput authored r.input slug base.inputSnapshot = some input
  | _ => True

variable (authored clientInput) in
structure EditsOk (w : EditWorld) : Prop where
  ok : w.store.Ok
  earlier : ∀ seen ∈ w.earlier, ∀ v ∈ seen.tables.versions, InputKept v w.store
  requests : ∀ n r stage, w.requests n = some (r, stage) →
    r.input = clientInput r.versionId ∧ StageOk authored w.store r stage
  composed : EditsCompose clientInput w.store

theorem StageOk.stays {s s' : Store Json} {r : EditRequest} {stage : EditStage} (h : StageOk authored s r stage)
    (hStay : InputsStay s s') (hGrows : StoreGrows s s') : StageOk authored s' r stage := by
  cases stage with
  | found slug => exact IsOfSlug.grows h hGrows
  | merged slug base input templateVersion => exact ⟨h.1.grows hGrows, h.2.1.stays hStay hGrows, h.2.2⟩
  | received | stored | ended => trivial

/-- A step that changes the store, and what one request is to do. -/
theorem EditsOk.write (h : EditsOk authored clientInput w) (hOk : w'.store.Ok) (hGrows : StoreGrows w.store w'.store)
    (hStay : InputsStay w.store w'.store) (hEarlier : w'.earlier = w.store :: w.earlier)
    (hRequests : ∀ n r stage, w'.requests n = some (r, stage) → w.requests n = some (r, stage) ∨
      r.input = clientInput r.versionId ∧ StageOk authored w'.store r stage)
    (hNew : ∀ next ∈ w'.store.tables.versions, next.id ∉ w.store.known → Follows clientInput w'.store next) :
    EditsOk authored clientInput w' where
  ok := hOk
  earlier seen hSeen v hv := by
    rw [hEarlier] at hSeen
    rcases List.mem_cons.mp hSeen with rfl | hSeen
    · exact (InputKept.now h.ok hv).stays hStay hGrows
    · exact (h.earlier seen hSeen v hv).stays hStay hGrows
  requests n r stage hHere := by
    rcases hRequests n r stage hHere with hBefore | hNow
    · obtain ⟨hInput, hStage⟩ := h.requests n r stage hBefore
      exact ⟨hInput, hStage.stays hStay hGrows⟩
    · exact hNow
  composed := h.composed.grows h.ok hGrows hStay hNew

/-- A step of a request that only reads. -/
theorem EditsOk.advance (h : EditsOk authored clientInput w) {n : Nat} {r : EditRequest} {stage : EditStage}
    (hInput : r.input = clientInput r.versionId) (hStage : StageOk authored w.store r stage) :
    EditsOk authored clientInput { w with requests := w.requests.put n (r, stage) } where
  ok := h.ok
  earlier := h.earlier
  requests n' r' stage' hHere := by
    rcases Table.put_eq_some.mp hHere with ⟨-, hSame⟩ | ⟨-, hHere⟩
    · cases hSame
      exact ⟨hInput, hStage⟩
    · exact h.requests n' r' stage' hHere
  composed := h.composed

theorem stageOk_afterFind {s : Store Json} (hOk : s.Ok) (r : EditRequest) :
    StageOk authored s r (EditRequest.afterFind (s.tables.findInOrg r.document r.org)) := by
  cases hFound : s.tables.findInOrg r.document r.org with
  | none => trivial
  | some found =>
    have hRow := Tables.findInOrg_some hFound
    simp only [EditRequest.afterFind]
    split
    · trivial
    · rename_i slug hSlug
      refine ⟨hOk.documentKnown _ _ hRow, fun row hRow' => ?_⟩
      obtain rfl := Option.some.inj (hRow.symm.trans hRow')
      exact editableSlug?_some hSlug

theorem stageOk_afterRead {s : Store Json} {r : EditRequest} {slug : String} {previous : Option (VersionRow Json)}
    (hSlug : IsOfSlug slug r.document s) (hPrevious : ∀ base, previous = some base → InputKept base s) :
    StageOk authored s r (r.afterRead authored validateAgainst registry slug previous) := by
  cases previous with
  | none => trivial
  | some base =>
    simp only [EditRequest.afterRead]
    split
    · trivial
    · rename_i input templateVersion hEdit
      obtain ⟨input', hMade, hChecked⟩ := Option.bind_eq_some_iff.mp hEdit
      obtain ⟨rfl, -⟩ := checkInput_some hChecked
      exact ⟨hSlug, hPrevious base rfl, hMade⟩

/-- What a server-built form becomes by an edit. -/
theorem editInput_merged {client : List (String × Json)} {slug : String} {snapshot : Option Json} {input : Json}
    (h : editInput authored client slug snapshot = some input) (hServer : InputPolicy.inputIsCallerAuthored slug = false) :
    mergeAllowedExtra (snapshot.getD (.obj [])) client (InputPolicy.editableFields slug) = (.ok (), input) := by
  rw [editInput, hServer, if_neg Bool.false_ne_true] at h
  split at h
  · rename_i merged hMerged
    rw [hMerged, Option.some.inj h]
  · cases h

/-- A step that makes no version. -/
theorem EditsOk.write_same (h : EditsOk authored clientInput w) (hOk : w'.store.Ok) (hGrows : StoreGrows w.store w'.store)
    (hStay : InputsStay w.store w'.store) (hEarlier : w'.earlier = w.store :: w.earlier)
    (hRequests : ∀ n r stage, w'.requests n = some (r, stage) → w.requests n = some (r, stage) ∨
      r.input = clientInput r.versionId ∧ StageOk authored w'.store r stage)
    (hKnown : w'.store.known = w.store.known) : EditsOk authored clientInput w' :=
  h.write hOk hGrows hStay hEarlier hRequests fun next hNext hNew => by
    rw [← hKnown] at hNew
    exact absurd (hOk.versionKnown next hNext) hNew

theorem latestVersion_org {s : Store Json} {org document : Uuid} {newest : VersionRow Json} {row : DocumentRow}
    (hOk : s.Ok) (hRow : s.tables.documents document = some row)
    (h : s.tables.latestVersion org document = some newest) : row.orgId = org := by
  obtain ⟨hMem, hOrg⟩ := List.mem_filter.mp (List.argmax_mem h)
  obtain ⟨hNewest, hDocument⟩ := Tables.mem_versionsOf.mp hMem
  obtain ⟨parent, hParent, hSame⟩ := hOk.parent newest hNewest
  rw [hDocument, hRow] at hParent
  cases hParent
  exact hSame.trans (of_decide_eq_true hOrg)

/-- A request adds its version to the one that it has read. -/
theorem EditsOk.add (h : EditsOk authored clientInput w) {n : Nat} {r : EditRequest} {slug templateVersion : String}
    {base : VersionRow Json} {input : Json} (hHere : w.requests n = some (r, .merged slug base input templateVersion))
    (hNewest : StillNewest w.store r base) :
    EditsOk authored clientInput {
      store := (exec (.addVersion r.org r.document r.versionId (some input) (some templateVersion)) w.store).2
      earlier := w.store :: w.earlier
      requests := w.requests.put n (r, EditRequest.afterAdd slug input
        (exec (.addVersion r.org r.document r.versionId (some input) (some templateVersion)) w.store).1) } := by
  obtain ⟨hInput, hSlug, hKept, hMade⟩ := h.requests n r _ hHere
  have hEffect := exec_effect (.addVersion r.org r.document r.versionId (some input) (some templateVersion)) w.store
  obtain ⟨hOk, hGrows⟩ := hEffect.ok h.ok
  refine h.write hOk hGrows hEffect.inputsStay rfl (fun n' r' stage' hThere => ?_) ?_
  · rcases Table.put_eq_some.mp hThere with ⟨-, hSame⟩ | ⟨-, hThere⟩
    · cases hSame
      refine .inr ⟨hInput, ?_⟩
      cases (exec (.addVersion r.org r.document r.versionId (some input) (some templateVersion)) w.store).1 <;> trivial
    · exact .inl hThere
  · show ∀ next ∈ (exec _ w.store).2.tables.versions, next.id ∉ w.store.known → Follows clientInput (exec _ w.store).2 next
    generalize (exec _ w.store).2 = s' at hEffect
    intro next hNext hNew
    cases hEffect with
    | nothing => exact absurd (h.ok.versionKnown next hNext) hNew
    | addVersion _ _ _ _ _ row v hRow hFresh hBlank =>
      rcases List.mem_append.mp hNext with hOld | hAdded
      · exact absurd (h.ok.versionKnown next hOld) hNew
      · obtain rfl := List.mem_singleton.mp hAdded
        obtain ⟨newest, hLatest, hId⟩ := Option.map_eq_some_iff.mp hNewest
        subst hBlank
        refine .added h.ok rfl rfl rfl rfl rfl hRow (latestVersion_org h.ok hRow hLatest) hLatest hId hKept hSlug ?_
        intro snapshot hSnapshot hServer
        rw [hSnapshot]
        show mergeAllowedExtra _ (clientInput r.versionId) _ = _
        rw [← hInput]
        exact editInput_merged hMade hServer

/-- Another operation's call. -/
theorem EditsOk.other (h : EditsOk authored clientInput w) {c : DocumentCommand Json}
    (hOther : ∀ org document versionId snapshot templateVersion,
      c ≠ .addVersion org document versionId snapshot templateVersion) :
    EditsOk authored clientInput { w with store := (exec c w.store).2, earlier := w.store :: w.earlier } := by
  have hEffect := exec_effect c w.store
  obtain ⟨hOk, hGrows⟩ := hEffect.ok h.ok
  have hStay := hEffect.inputsStay
  generalize (exec c w.store).2 = s' at hEffect hOk hGrows hStay
  cases hEffect with
  | addVersion => exact absurd rfl (hOther _ _ _ _ _)
  | create org d hNew hNewVersion =>
    refine h.write hOk hGrows hStay rfl (fun _ _ _ hHere => .inl hHere) fun next hNext hFresh => ?_
    rcases List.mem_append.mp hNext with hOld | hAdded
    · exact absurd (h.ok.versionKnown next hOld) hFresh
    · obtain rfl := List.mem_singleton.mp hAdded
      refine .created rfl rfl fun v hv hOf => ?_
      obtain ⟨row, hRow, -⟩ := h.ok.parent v hv
      rw [hOf] at hRow
      exact hNew (h.ok.documentKnown _ row hRow)
  | nothing | setPendingUpload | setVersionFile | setCurrentVersion | setStatus | setStatusIf | linkEntry | remove
    | voidDocument | putObject | submit =>
    exact h.write_same hOk hGrows hStay rfl (fun _ _ _ hHere => .inl hHere) rfl

theorem EditsOk.step (h : EditsOk authored clientInput w)
    (hStep : EditStep authored validateAgainst registry clientInput StillNewest w w') :
    EditsOk authored clientInput w' := by
  cases hStep with
  | start n r hFree hInput => exact h.advance hInput trivial
  | find n r hHere => exact h.advance (h.requests n r _ hHere).1 (stageOk_afterFind h.ok r)
  | read n r slug seen hHere hSeen =>
    obtain ⟨hInput, hSlug⟩ := h.requests n r _ hHere
    refine h.advance hInput (stageOk_afterRead hSlug fun base hBase => ?_)
    obtain ⟨hMem, -⟩ := Tables.latestVersion_some hBase
    rcases List.mem_cons.mp hSeen with rfl | hSeen
    · exact .now h.ok hMem
    · exact h.earlier seen hSeen base hMem
  | add n r slug base input templateVersion hHere hNewest => exact h.add hHere hNewest
  | submit n r slug input v hHere =>
    have hEffect := exec_effect (.submit ⟨r.org, r.document, some v.id, slug, input⟩) w.store
    obtain ⟨hOk, hGrows⟩ := hEffect.ok h.ok
    refine h.write_same hOk hGrows hEffect.inputsStay rfl (fun n' r' stage' hThere => ?_) rfl
    rcases Table.put_eq_some.mp hThere with ⟨-, hSame⟩ | ⟨-, hThere⟩
    · cases hSame
      exact .inr ⟨(h.requests n r _ hHere).1, trivial⟩
    · exact .inl hThere
  | other c hOther => exact h.other hOther
  | elsewhere s hChange =>
    obtain ⟨hOk, hGrows⟩ := elsewhere_ok h.ok hChange
    have hKnown : s.known = w.store.known := hChange.jobs.1
    exact h.write_same hOk hGrows hChange.inputsStay rfl (fun _ _ _ hHere => .inl hHere) hKnown

/-- The input of `v` is that of the document's first version with the edits of all that came between, in
their order. -/
def CarriesAll (clientInput : Uuid → List (String × Json)) (s : Store Json) (slug : String) (v : VersionRow Json) :
    Prop :=
  ∃ first ∈ s.tables.versions, ∃ made : List (VersionRow Json),
    first.documentId = v.documentId ∧ first.versionNo = 1 ∧
    (∀ u ∈ made, u ∈ s.tables.versions ∧ u.documentId = v.documentId) ∧
    made.map VersionRow.versionNo = List.range' 2 (v.versionNo - 1) ∧
    v.inputSnapshot.getD (.obj []) = applyEdits (InputPolicy.editableFields slug) (first.inputSnapshot.getD (.obj []))
      (made.map fun u => clientInput u.id)

theorem EditsCompose.carriesAll {s : Store Json} {row : DocumentRow} {slug : String} (h : EditsCompose clientInput s)
    (hSlug : row.templateSlug = some slug) (hServer : InputPolicy.inputIsCallerAuthored slug = false) (n : Nat) :
    ∀ v ∈ s.tables.versions, v.versionNo = n → s.tables.documents v.documentId = some row →
      CarriesAll clientInput s slug v := by
  induction n with
  | zero =>
    intro v hv hNo hRow
    obtain ⟨-, hFirst | ⟨previous, -, -, hAfter⟩⟩ := h v hv row slug hRow hSlug hServer
    · omega
    · omega
  | succ n ih =>
    intro v hv hNo hRow
    obtain ⟨-, hFirst | ⟨previous, hMem, hOf, hAfter⟩⟩ := h v hv row slug hRow hSlug hServer
    · exact ⟨v, hv, [], rfl, hFirst, by simp, by rw [hFirst]; rfl, rfl⟩
    · have hPreviousRow : s.tables.documents previous.documentId = some row := by rw [hOf, hRow]
      obtain ⟨hEdited, hPreviousNo⟩ := h previous hMem row slug hPreviousRow hSlug hServer
      obtain ⟨input, hMerged, hInput⟩ := hEdited v hv hOf.symm hAfter
      obtain ⟨first, hFirst, made, hFirstOf, hOne, hMade, hNos, hCarried⟩ :=
        ih previous hMem (by omega) hPreviousRow
      have hPositive : 1 ≤ previous.versionNo := by
        rcases hPreviousNo with hIs | ⟨_, -, -, hIs⟩ <;> omega
      refine ⟨first, hFirst, made ++ [v], hFirstOf.trans hOf, hOne, fun u hu => ?_, ?_, ?_⟩
      · rcases List.mem_append.mp hu with hu | hu
        · exact ⟨(hMade u hu).1, (hMade u hu).2.trans hOf⟩
        · rw [List.mem_singleton.mp hu]
          exact ⟨hv, rfl⟩
      · have hLength : v.versionNo - 1 = previous.versionNo - 1 + 1 := by omega
        rw [List.map_append, hNos, hLength, List.range'_1_concat]
        simp only [List.map_cons, List.map_nil, hAfter]
        congr 2
        omega
      · rw [List.map_append, applyEdits, List.foldl_append, hInput]
        show input = (mergeAllowedExtra (applyEdits _ _ _) (clientInput v.id) _).2
        rw [← hCarried, hMerged]

/-- In every run where each request adds its version to the one that it has read, the versions compose, and
each carries the edits of all before it. -/
theorem edits_compose {w₀ : EditWorld} (hEmpty : NoDocuments w₀.store) (hEarlier : w₀.earlier = [])
    (hIdle : w₀.requests = Table.empty)
    (hRun : Run (EditStep authored validateAgainst registry clientInput StillNewest) w₀ w) :
    EditsCompose clientInput w.store ∧
      ∀ v ∈ w.store.tables.versions, ∀ row slug, w.store.tables.documents v.documentId = some row →
        row.templateSlug = some slug → InputPolicy.inputIsCallerAuthored slug = false →
        CarriesAll clientInput w.store slug v := by
  have hStart : EditsOk authored clientInput w₀ := by
    refine ⟨hEmpty.ok, fun seen hSeen => ?_, fun n r stage hHere => ?_, fun v hv => ?_⟩
    · rw [hEarlier] at hSeen
      cases hSeen
    · rw [hIdle] at hHere
      cases hHere
    · rw [hEmpty.versions] at hv
      cases hv
  have hOk : EditsOk authored clientInput w := hRun.invariant (fun _ _ h hStep => h.step hStep) hStart
  exact ⟨hOk.composed, fun v hv row slug hRow hSlug hServer =>
    hOk.composed.carriesAll hSlug hServer v.versionNo v hv rfl hRow⟩

end

/-! ### Two edits at once -/

def orderRegistry : TemplateRegistry Json := [⟨"hr_order", "v1", some "#json(\"input.json\").reason", some (.ok (.obj []))⟩]

/-- The request of the version 11 writes the reason, that of the version 12 the details. -/
def orderInput (versionId : Uuid) : List (String × Json) :=
  if versionId = 11 then [("reason", .str "А")] else [("details", .str "Б")]

abbrev OrderStep (Guard : Store Json → EditRequest → VersionRow Json → Prop) : EditWorld → EditWorld → Prop :=
  EditStep (fun _ _ => none) (fun _ _ => none) orderRegistry orderInput Guard

def orderDocument : NewDocument Json :=
  ⟨1, 10, .generated, .draft, some "hr_order", some "v1", some (.obj [])⟩

def orderRequest (versionId : Uuid) : EditRequest := ⟨7, 1, versionId, orderInput versionId⟩

def noOrders : EditWorld :=
  ⟨⟨⟨Table.empty, [], [], Table.empty, []⟩, ⟨Table.empty, [], [], Table.empty, []⟩, Table.empty, [], [], []⟩, [], Table.empty⟩

def orderBase : VersionRow Json := .blank 10 7 1 1 (some "v1") (some (.obj []))

def orderWithReason : VersionRow Json := .blank 11 7 1 2 (some "v1") (some (.obj [("reason", .str "А")]))

def orderWithDetails : VersionRow Json := .blank 12 7 1 3 (some "v1") (some (.obj [("details", .str "Б")]))

/-- Both requests have read the first version. -/
theorem orders_read (Guard : Store Json → EditRequest → VersionRow Json → Prop) :
    ∃ w, Run (OrderStep Guard) noOrders w ∧ w.store = (exec (.create 7 orderDocument) noOrders.store).2 ∧
      w.requests 0 = some (orderRequest 11, .merged "hr_order" orderBase (.obj [("reason", .str "А")]) "v1") ∧
      w.requests 1 = some (orderRequest 12, .merged "hr_order" orderBase (.obj [("details", .str "Б")]) "v1") := by
  have hMade : Run (OrderStep Guard) noOrders _ :=
    .single (.other noOrders (.create 7 orderDocument) fun _ _ _ _ _ h => by cases h)
  have hStarted := hMade.tail (.start _ 0 (orderRequest 11) rfl rfl)
  have hFound := hStarted.tail (.find _ 0 (orderRequest 11) rfl)
  have hRead := hFound.tail (.read _ 0 (orderRequest 11) "hr_order" _ rfl List.mem_cons_self)
  have hStarted' := hRead.tail (.start _ 1 (orderRequest 12) rfl rfl)
  have hFound' := hStarted'.tail (.find _ 1 (orderRequest 12) rfl)
  have hRead' := hFound'.tail (.read _ 1 (orderRequest 12) "hr_order" _ rfl List.mem_cons_self)
  exact ⟨_, hRead', rfl, rfl, rfl⟩

/-- The one that comes first adds to the version that it has read. -/
theorem edits_compose_order : ∃ w, Run (OrderStep StillNewest) noOrders w ∧
    w.store.tables.versions = [orderBase, orderWithReason] ∧ EditsCompose orderInput w.store := by
  obtain ⟨w, hRead, hStore, hHere, -⟩ := orders_read StillNewest
  have hNewest : StillNewest w.store (orderRequest 11) orderBase := by
    rw [hStore]
    rfl
  have hAdded := hRead.tail (.add w 0 (orderRequest 11) "hr_order" orderBase _ "v1" hHere hNewest)
  refine ⟨_, hAdded, ?_, (edits_compose ⟨rfl, rfl⟩ rfl rfl hAdded).1⟩
  rw [hStore]
  rfl

/-- The other stores its edit of the first version as the third: the reason is lost. -/
theorem edit_lost : ∃ w, Run (OrderStep fun _ _ _ => True) noOrders w ∧
    w.store.tables.versions = [orderBase, orderWithReason, orderWithDetails] ∧ ¬ EditsCompose orderInput w.store := by
  obtain ⟨w, hRead, hStore, hHere, hThere⟩ := orders_read fun _ _ _ => True
  obtain ⟨w', hBoth, hVersions, hDocument⟩ : ∃ w', Run (OrderStep fun _ _ _ => True) noOrders w' ∧
      w'.store.tables.versions = [orderBase, orderWithReason, orderWithDetails] ∧
      w'.store.tables.documents 1 = some (orderDocument.row 7) := by
    have hAdded := hRead.tail (.add w 0 (orderRequest 11) "hr_order" orderBase _ "v1" hHere trivial)
    refine ⟨_, hAdded.tail (.add _ 1 (orderRequest 12) "hr_order" orderBase _ "v1" hThere trivial), ?_, ?_⟩
    · rw [hStore]
      rfl
    · rw [hStore]
      rfl
  refine ⟨w', hBoth, hVersions, fun hCompose => ?_⟩
  have hSecond := hCompose orderWithReason (by rw [hVersions]; simp) _ "hr_order" hDocument rfl rfl
  obtain ⟨input, hMerged, hInput⟩ := hSecond.1 orderWithDetails (by rw [hVersions]; simp) rfl rfl
  -- The third version would have the reason as well.
  have hBothFields : input = .obj [("details", .str "Б"), ("reason", .str "А")] := (congrArg Prod.snd hMerged).symm
  cases (Option.some.inj hInput).trans hBothFields

end CyberAccountant.Documents
