import CyberAccountant.Documents.Operations

/-! What holds of the documents and their versions whatever is called and in whatever order: the keys of
the tables, the numbering of versions, and that the current version only moves forward. -/

namespace CyberAccountant.Documents

open CyberAccountant.Library CyberAccountant.Ledger

variable {J : Type}

/-- The keys of the tables, and numbers that are distinct within a document. -/
structure TablesOk (known : List Uuid) (t : Tables J) : Prop where
  documentKnown : ∀ id row, t.documents id = some row → id ∈ known
  versionKnown : ∀ v ∈ t.versions, v.id ∈ known
  versionIds : ∀ v ∈ t.versions, ∀ v' ∈ t.versions, v.id = v'.id → v = v'
  parent : ∀ v ∈ t.versions, ∃ row, t.documents v.documentId = some row ∧ row.orgId = v.orgId
  numbers : ∀ v ∈ t.versions, ∀ v' ∈ t.versions, v.documentId = v'.documentId → v.versionNo = v'.versionNo →
    v.id = v'.id
  current : ∀ id row c, t.documents id = some row → row.currentVersionId = some c →
    ∃ v ∈ t.versions, v.id = c ∧ v.documentId = id

/-- The same version at a later time. -/
structure Continues (v v' : VersionRow J) : Prop where
  id : v'.id = v.id
  orgId : v'.orgId = v.orgId
  documentId : v'.documentId = v.documentId
  versionNo : v'.versionNo = v.versionNo
  templateVersion : v'.templateVersion = v.templateVersion
  filed : v.s3Key.isSome → v'.s3Key.isSome

/-- Documents and versions with ids of `known` are never new, versions stay while their document does, and
a current version is only followed by one that is no older. -/
structure Grows (known : List Uuid) (t t' : Tables J) : Prop where
  document : ∀ id ∈ known, ∀ row', t'.documents id = some row' →
    ∃ row, t.documents id = some row ∧ row'.orgId = row.orgId ∧ row'.source = row.source ∧
      row'.templateSlug = row.templateSlug
  version : ∀ v ∈ t.versions, v.documentId ∈ known → (t'.documents v.documentId).isSome →
    ∃ v' ∈ t'.versions, Continues v v'
  origin : ∀ v' ∈ t'.versions, v'.id ∈ known → ∃ v ∈ t.versions, Continues v v'
  current : ∀ id ∈ known, ∀ row row' c, t.documents id = some row → t'.documents id = some row' →
    row.currentVersionId = some c → ∀ v ∈ t.versions, v.id = c →
      ∃ v' ∈ t'.versions, row'.currentVersionId = some v'.id ∧ v.versionNo ≤ v'.versionNo

theorem Continues.refl (v : VersionRow J) : Continues v v := ⟨rfl, rfl, rfl, rfl, rfl, fun h => h⟩

theorem Continues.trans {a b c : VersionRow J} (hAB : Continues a b) (hBC : Continues b c) : Continues a c where
  id := hBC.id.trans hAB.id
  orgId := hBC.orgId.trans hAB.orgId
  documentId := hBC.documentId.trans hAB.documentId
  versionNo := hBC.versionNo.trans hAB.versionNo
  templateVersion := hBC.templateVersion.trans hAB.templateVersion
  filed h := hBC.filed (hAB.filed h)

variable {known known' : List Uuid} {t t' : Tables J}

theorem Grows.trans {t'' : Tables J} (hMore : ∀ id ∈ known, id ∈ known') (hFirst : Grows known t t')
    (hRest : Grows known' t' t'') : Grows known t t'' where
  document id hKnown row'' hRow'' := by
    obtain ⟨row', hRow', hOrg', hSource', hSlug'⟩ := hRest.document id (hMore id hKnown) row'' hRow''
    obtain ⟨row, hRow, hOrg, hSource, hSlug⟩ := hFirst.document id hKnown row' hRow'
    exact ⟨row, hRow, hOrg'.trans hOrg, hSource'.trans hSource, hSlug'.trans hSlug⟩
  version v hv hKnown hThere := by
    obtain ⟨row'', hRow''⟩ := Option.isSome_iff_exists.mp hThere
    obtain ⟨row', hRow', -⟩ := hRest.document _ (hMore _ hKnown) row'' hRow''
    obtain ⟨v', hv', hContinues⟩ := hFirst.version v hv hKnown (by rw [hRow']; rfl)
    obtain ⟨v'', hv'', hContinues'⟩ := hRest.version v' hv' (by rw [hContinues.documentId]; exact hMore _ hKnown)
      (by rw [hContinues.documentId]; exact hThere)
    exact ⟨v'', hv'', hContinues.trans hContinues'⟩
  origin v'' hv'' hKnown := by
    obtain ⟨v', hv', hContinues'⟩ := hRest.origin v'' hv'' (hMore _ hKnown)
    obtain ⟨v, hv, hContinues⟩ := hFirst.origin v' hv' (by rw [← hContinues'.id]; exact hKnown)
    exact ⟨v, hv, hContinues.trans hContinues'⟩
  current id hKnown row row'' c hRow hRow'' hCurrent v hv hId := by
    obtain ⟨row', hRow', -⟩ := hRest.document id (hMore id hKnown) row'' hRow''
    obtain ⟨v', hv', hCurrent', hLe⟩ := hFirst.current id hKnown row row' c hRow hRow' hCurrent v hv hId
    obtain ⟨v'', hv'', hCurrent'', hLe'⟩ :=
      hRest.current id (hMore id hKnown) row' row'' v'.id hRow' hRow'' hCurrent' v' hv' rfl
    exact ⟨v'', hv'', hCurrent'', hLe.trans hLe'⟩

/-! ### What each kind of write keeps -/

theorem TablesOk.same (hOk : TablesOk known t) (hDocuments : t'.documents = t.documents)
    (hVersions : t'.versions = t.versions) : TablesOk known t' where
  documentKnown := by
    rw [hDocuments]
    exact hOk.documentKnown
  versionKnown := by
    rw [hVersions]
    exact hOk.versionKnown
  versionIds := by
    rw [hVersions]
    exact hOk.versionIds
  parent := by
    rw [hDocuments, hVersions]
    exact hOk.parent
  numbers := by
    rw [hVersions]
    exact hOk.numbers
  current := by
    rw [hDocuments, hVersions]
    exact hOk.current

theorem Grows.same (hDocuments : t'.documents = t.documents) (hVersions : t'.versions = t.versions) :
    Grows known t t' where
  document id _ row' hRow' := ⟨row', by rw [← hDocuments, hRow'], rfl, rfl, rfl⟩
  version v hv _ _ := ⟨v, by rw [hVersions]; exact hv, .refl v⟩
  origin v hv _ := ⟨v, by rw [← hVersions]; exact hv, .refl v⟩
  current id _ row row' c hRow hRow' hCurrent v hv hId := by
    rw [hDocuments, hRow] at hRow'
    cases hRow'
    exact ⟨v, by rw [hVersions]; exact hv, by rw [hCurrent, hId], Nat.le_refl _⟩

/-- A version with a new id joins a document, with a number that no version of the document has. -/
theorem TablesOk.append (hOk : TablesOk known t) {v : VersionRow J} (hNew : v.id ∉ known)
    (hParent : ∃ row, t.documents v.documentId = some row ∧ row.orgId = v.orgId)
    (hNumber : ∀ v' ∈ t.versions, v'.documentId = v.documentId → v'.versionNo ≠ v.versionNo) :
    TablesOk (v.id :: known) { t with versions := t.versions ++ [v] } where
  documentKnown id row hRow := List.mem_cons_of_mem _ (hOk.documentKnown id row hRow)
  versionKnown v' hv' := by
    rcases List.mem_append.mp hv' with hv' | hv'
    · exact List.mem_cons_of_mem _ (hOk.versionKnown v' hv')
    · rw [List.mem_singleton.mp hv']
      exact List.mem_cons_self
  versionIds v₁ h₁ v₂ h₂ hId := by
    rcases List.mem_append.mp h₁ with h₁ | h₁ <;> rcases List.mem_append.mp h₂ with h₂ | h₂
    · exact hOk.versionIds v₁ h₁ v₂ h₂ hId
    · rw [List.mem_singleton.mp h₂] at hId
      exact absurd (hId ▸ hOk.versionKnown v₁ h₁) hNew
    · rw [List.mem_singleton.mp h₁] at hId
      exact absurd (hId ▸ hOk.versionKnown v₂ h₂) hNew
    · exact (List.mem_singleton.mp h₁).trans (List.mem_singleton.mp h₂).symm
  parent v' hv' := by
    rcases List.mem_append.mp hv' with hv' | hv'
    · exact hOk.parent v' hv'
    · rw [List.mem_singleton.mp hv']
      exact hParent
  numbers v₁ h₁ v₂ h₂ hDocument hNo := by
    rcases List.mem_append.mp h₁ with h₁ | h₁ <;> rcases List.mem_append.mp h₂ with h₂ | h₂
    · exact hOk.numbers v₁ h₁ v₂ h₂ hDocument hNo
    · rw [List.mem_singleton.mp h₂] at hDocument hNo
      exact absurd hNo (hNumber v₁ h₁ hDocument)
    · rw [List.mem_singleton.mp h₁] at hDocument hNo
      exact absurd hNo.symm (hNumber v₂ h₂ hDocument.symm)
    · rw [List.mem_singleton.mp h₁, List.mem_singleton.mp h₂]
  current id row c hRow hCurrent := by
    obtain ⟨v', hv', hId⟩ := hOk.current id row c hRow hCurrent
    exact ⟨v', List.mem_append_left _ hv', hId⟩

theorem Grows.append {v : VersionRow J} (hNew : v.id ∉ known) :
    Grows known t { t with versions := t.versions ++ [v] } where
  document id _ row' hRow' := ⟨row', hRow', rfl, rfl, rfl⟩
  version v' hv' _ _ := ⟨v', List.mem_append_left _ hv', .refl v'⟩
  origin v' hv' hKnown := by
    rcases List.mem_append.mp hv' with hv' | hv'
    · exact ⟨v', hv', .refl v'⟩
    · rw [List.mem_singleton.mp hv'] at hKnown
      exact absurd hKnown hNew
  current id _ row row' c hRow hRow' hCurrent v' hv' hId := by
    rw [hRow] at hRow'
    cases hRow'
    exact ⟨v', List.mem_append_left _ hv', by rw [hCurrent, hId], Nat.le_refl _⟩

section

variable {id : Uuid} {row row' : DocumentRow}

/-- What an update of a document may do to its pointer: nothing, or move it to the newest version. -/
def PointerMoves (t : Tables J) (id : Uuid) (row row' : DocumentRow) : Prop :=
  row'.currentVersionId = row.currentVersionId ∨
    ∃ v ∈ t.versions, v.documentId = id ∧ v.versionNo = t.maxVersionNo id ∧ row'.currentVersionId = some v.id

theorem TablesOk.putDocument (hOk : TablesOk known t) (hRow : t.documents id = some row)
    (hOrg : row'.orgId = row.orgId) (hMoves : PointerMoves t id row row') :
    TablesOk known { t with documents := t.documents.put id row' } where
  documentKnown id' found hFound := by
    rcases Table.put_eq_some.mp hFound with ⟨rfl, -⟩ | ⟨-, hFound⟩
    · exact hOk.documentKnown id' row hRow
    · exact hOk.documentKnown id' found hFound
  versionKnown := hOk.versionKnown
  versionIds := hOk.versionIds
  parent v hv := by
    obtain ⟨found, hFound, hFoundOrg⟩ := hOk.parent v hv
    by_cases hMine : v.documentId = id
    · rw [hMine, hRow] at hFound
      cases hFound
      exact ⟨row', Table.put_eq_some.mpr (.inl ⟨hMine, rfl⟩), hOrg.trans hFoundOrg⟩
    · exact ⟨found, (Table.put_ne hMine).trans hFound, hFoundOrg⟩
  numbers := hOk.numbers
  current id' found c hFound hCurrent := by
    rcases Table.put_eq_some.mp hFound with ⟨rfl, rfl⟩ | ⟨-, hFound⟩
    · rcases hMoves with hStays | ⟨v, hv, hDocument, -, hMoved⟩
      · exact hOk.current id' row c hRow (hStays.symm.trans hCurrent)
      · rw [hMoved] at hCurrent
        cases hCurrent
        exact ⟨v, hv, rfl, hDocument⟩
    · exact hOk.current id' found c hFound hCurrent

theorem Grows.putDocument (hOk : TablesOk known t) (hRow : t.documents id = some row)
    (hOrg : row'.orgId = row.orgId) (hSource : row'.source = row.source)
    (hSlug : row'.templateSlug = row.templateSlug) (hMoves : PointerMoves t id row row') :
    Grows known t { t with documents := t.documents.put id row' } where
  document id' _ found hFound := by
    rcases Table.put_eq_some.mp hFound with ⟨rfl, rfl⟩ | ⟨-, hFound⟩
    · exact ⟨row, hRow, hOrg, hSource, hSlug⟩
    · exact ⟨found, hFound, rfl, rfl, rfl⟩
  version v hv _ _ := ⟨v, hv, .refl v⟩
  origin v hv _ := ⟨v, hv, .refl v⟩
  current id' _ before after c hBefore hAfter hCurrent v hv hId := by
    have hSame : after.currentVersionId = before.currentVersionId →
        ∃ v' ∈ t.versions, after.currentVersionId = some v'.id ∧ v.versionNo ≤ v'.versionNo := fun hStays =>
      ⟨v, hv, by rw [hStays, hCurrent, hId], Nat.le_refl _⟩
    rcases Table.put_eq_some.mp hAfter with ⟨rfl, rfl⟩ | ⟨-, hAfter⟩
    · rw [hRow] at hBefore
      cases hBefore
      rcases hMoves with hStays | ⟨v', hv', -, hNewest, hMoved⟩
      · exact hSame hStays
      · refine ⟨v', hv', hMoved, ?_⟩
        obtain ⟨found, hFound, hFoundId, hDocument⟩ := hOk.current id' row c hRow hCurrent
        obtain rfl : found = v := hOk.versionIds found hFound v hv (hFoundId.trans hId.symm)
        rw [hNewest, ← hDocument]
        exact Tables.le_maxVersionNo hv
    · rw [hBefore] at hAfter
      cases hAfter
      exact hSame rfl

end

section

variable {version : Uuid} {f : VersionRow J → VersionRow J}

theorem continues_of_changeRow (hf : ∀ v, Continues v (f v)) {v' : VersionRow J}
    (h : v' ∈ changeRow VersionRow.id t.versions version f) : ∃ v ∈ t.versions, Continues v v' := by
  obtain ⟨v, hv, rfl⟩ := mem_changeRow.mp h
  refine ⟨v, hv, ?_⟩
  split
  · exact hf v
  · exact .refl v

theorem changeRow_of_mem (hf : ∀ v, Continues v (f v)) {v : VersionRow J} (h : v ∈ t.versions) :
    ∃ v' ∈ changeRow VersionRow.id t.versions version f, Continues v v' := by
  refine ⟨_, mem_changeRow.mpr ⟨v, h, rfl⟩, ?_⟩
  split
  · exact hf v
  · exact .refl v

theorem TablesOk.changeVersion (hOk : TablesOk known t) (hf : ∀ v, Continues v (f v)) :
    TablesOk known { t with versions := changeRow VersionRow.id t.versions version f } where
  documentKnown := hOk.documentKnown
  versionKnown v' hv' := by
    obtain ⟨v, hv, hContinues⟩ := continues_of_changeRow hf hv'
    rw [hContinues.id]
    exact hOk.versionKnown v hv
  versionIds v₁ h₁ v₂ h₂ hId := by
    obtain ⟨u₁, hu₁, rfl⟩ := mem_changeRow.mp h₁
    obtain ⟨u₂, hu₂, rfl⟩ := mem_changeRow.mp h₂
    have hKey : ∀ u : VersionRow J, (if u.id = version then f u else u).id = u.id := by
      intro u
      split
      · exact (hf u).id
      · rfl
    rw [hKey, hKey] at hId
    rw [hOk.versionIds u₁ hu₁ u₂ hu₂ hId]
  parent v' hv' := by
    obtain ⟨v, hv, hContinues⟩ := continues_of_changeRow hf hv'
    rw [hContinues.documentId, hContinues.orgId]
    exact hOk.parent v hv
  numbers v₁ h₁ v₂ h₂ hDocument hNo := by
    obtain ⟨u₁, hu₁, hContinues₁⟩ := continues_of_changeRow hf h₁
    obtain ⟨u₂, hu₂, hContinues₂⟩ := continues_of_changeRow hf h₂
    rw [hContinues₁.documentId, hContinues₂.documentId] at hDocument
    rw [hContinues₁.versionNo, hContinues₂.versionNo] at hNo
    rw [hContinues₁.id, hContinues₂.id]
    exact hOk.numbers u₁ hu₁ u₂ hu₂ hDocument hNo
  current id row c hRow hCurrent := by
    obtain ⟨v, hv, hId, hDocument⟩ := hOk.current id row c hRow hCurrent
    obtain ⟨v', hv', hContinues⟩ := changeRow_of_mem hf hv
    exact ⟨v', hv', hContinues.id.trans hId, hContinues.documentId.trans hDocument⟩

theorem Grows.changeVersion (hf : ∀ v, Continues v (f v)) :
    Grows known t { t with versions := changeRow VersionRow.id t.versions version f } where
  document id _ row' hRow' := ⟨row', hRow', rfl, rfl, rfl⟩
  version v hv _ _ := changeRow_of_mem hf hv
  origin v' hv' _ := continues_of_changeRow hf hv'
  current id _ row row' c hRow hRow' hCurrent v hv hId := by
    rw [hRow] at hRow'
    cases hRow'
    obtain ⟨v', hv', hContinues⟩ := changeRow_of_mem hf hv
    exact ⟨v', hv', by rw [hCurrent, hContinues.id, hId], hContinues.versionNo.symm.le⟩

end

theorem TablesOk.deleteDocument (hOk : TablesOk known t) (document : Uuid) :
    TablesOk known (t.deleteDocument document) where
  documentKnown id row hRow := hOk.documentKnown id row (Table.drop_eq_some.mp hRow).2
  versionKnown v hv := hOk.versionKnown v (List.mem_filter.mp hv).1
  versionIds v hv v' hv' := hOk.versionIds v (List.mem_filter.mp hv).1 v' (List.mem_filter.mp hv').1
  parent v hv := by
    obtain ⟨hv, hNe⟩ := List.mem_filter.mp hv
    obtain ⟨row, hRow, hOrg⟩ := hOk.parent v hv
    exact ⟨row, (Table.drop_ne (of_decide_eq_true hNe)).trans hRow, hOrg⟩
  numbers v hv v' hv' := hOk.numbers v (List.mem_filter.mp hv).1 v' (List.mem_filter.mp hv').1
  current id row c hRow hCurrent := by
    obtain ⟨hNe, hRow⟩ := Table.drop_eq_some.mp hRow
    obtain ⟨v, hv, hId, hDocument⟩ := hOk.current id row c hRow hCurrent
    exact ⟨v, List.mem_filter.mpr ⟨hv, decide_eq_true (by rw [hDocument]; exact hNe)⟩, hId, hDocument⟩

theorem Grows.deleteDocument (hOk : TablesOk known t) (document : Uuid) :
    Grows known t (t.deleteDocument document) where
  document id _ row' hRow' := ⟨row', (Table.drop_eq_some.mp hRow').2, rfl, rfl, rfl⟩
  version v hv _ hThere := by
    obtain ⟨row, hRow⟩ := Option.isSome_iff_exists.mp hThere
    exact ⟨v, List.mem_filter.mpr ⟨hv, decide_eq_true (Table.drop_eq_some.mp hRow).1⟩, .refl v⟩
  origin v hv _ := ⟨v, (List.mem_filter.mp hv).1, .refl v⟩
  current id _ row row' c hRow hRow' hCurrent v hv hId := by
    obtain ⟨hNe, hRow'⟩ := Table.drop_eq_some.mp hRow'
    rw [hRow] at hRow'
    cases hRow'
    obtain ⟨found, hFound, hFoundId, hDocument⟩ := hOk.current id row c hRow hCurrent
    obtain rfl : found = v := hOk.versionIds found hFound v hv (hFoundId.trans hId.symm)
    exact ⟨found, List.mem_filter.mpr ⟨hFound, decide_eq_true (by rw [hDocument]; exact hNe)⟩,
      by rw [hCurrent, hId], Nat.le_refl _⟩

section

variable {org : Uuid} {d : NewDocument J}

theorem TablesOk.create (hOk : TablesOk known t) (hNew : d.id ∉ known) (hNewVersion : d.versionId ∉ d.id :: known) :
    TablesOk (d.versionId :: d.id :: known) (t.create org d) := by
  have hOld : ∀ id row, t.documents id = some row → id ≠ d.id := by
    rintro id row hRow rfl
    exact hNew (hOk.documentKnown _ row hRow)
  have hPut : TablesOk (d.id :: known)
      { t with documents := t.documents.put d.id (d.row org) } := {
    documentKnown := fun id row hRow => by
      rcases Table.put_eq_some.mp hRow with ⟨rfl, -⟩ | ⟨-, hRow⟩
      · exact List.mem_cons_self
      · exact List.mem_cons_of_mem _ (hOk.documentKnown id row hRow)
    versionKnown := fun v hv => List.mem_cons_of_mem _ (hOk.versionKnown v hv)
    versionIds := hOk.versionIds
    parent := fun v hv => by
      obtain ⟨row, hRow, hOrg⟩ := hOk.parent v hv
      exact ⟨row, (Table.put_ne (hOld _ row hRow)).trans hRow, hOrg⟩
    numbers := hOk.numbers
    current := fun id row c hRow hCurrent => by
      rcases Table.put_eq_some.mp hRow with ⟨-, rfl⟩ | ⟨-, hRow⟩
      · cases hCurrent
      · exact hOk.current id row c hRow hCurrent }
  refine hPut.append (v := .blank d.versionId org d.id 1 d.templateVersion d.inputSnapshot) hNewVersion
    ⟨d.row org, Table.put_same _ _ _, rfl⟩ fun v hv hDocument => ?_
  obtain ⟨row, hRow, -⟩ := hOk.parent v hv
  exact absurd hDocument (hOld _ row hRow)

theorem Grows.create (hNew : d.id ∉ known) (hNewVersion : d.versionId ∉ d.id :: known) :
    Grows known t (t.create org d) := by
  have hOld : ∀ id ∈ known, id ≠ d.id := by
    rintro id hKnown rfl
    exact hNew hKnown
  have hPut : Grows known t
      { t with documents := t.documents.put d.id (d.row org) } := {
    document := fun id hKnown row' hRow' => ⟨row', (Table.put_ne (hOld id hKnown)).symm.trans hRow', rfl, rfl, rfl⟩
    version := fun v hv _ _ => ⟨v, hv, .refl v⟩
    origin := fun v hv _ => ⟨v, hv, .refl v⟩
    current := fun id hKnown row row' c hRow hRow' hCurrent v hv hId => by
      have hSame := (Table.put_ne (hOld id hKnown)).symm.trans hRow'
      rw [hRow] at hSame
      cases hSame
      exact ⟨v, hv, by rw [hCurrent, hId], Nat.le_refl _⟩ }
  exact hPut.trans (fun _ h => List.mem_cons_of_mem _ h) (.append hNewVersion)

end

/-! ### What every command keeps -/

/-- What there was goes on, and no object is removed. -/
structure StoreGrows (s s' : Store J) : Prop where
  known : ∀ id ∈ s.known, id ∈ s'.known
  tables : Grows s.known s.tables s'.tables
  objects : ∀ key, (s.objects key).isSome → (s'.objects key).isSome
  uploads : ∀ key ∈ s.uploads, key ∈ s'.uploads

theorem StoreGrows.trans {a b c : Store J} (hAB : StoreGrows a b) (hBC : StoreGrows b c) : StoreGrows a c where
  known id h := hBC.known id (hAB.known id h)
  tables := hAB.tables.trans hAB.known hBC.tables
  objects key h := hBC.objects key (hAB.objects key h)
  uploads key h := hBC.uploads key (hAB.uploads key h)

/-- A step that writes neither documents nor versions. -/
theorem StoreGrows.of_same {s s' : Store J} (hKnown : s'.known = s.known)
    (hDocuments : s'.tables.documents = s.tables.documents) (hVersions : s'.tables.versions = s.tables.versions)
    (hObjects : ∀ key, (s.objects key).isSome → (s'.objects key).isSome)
    (hUploads : s'.uploads = s.uploads) : StoreGrows s s' where
  known id h := by
    rw [hKnown]
    exact h
  tables := .same hDocuments hVersions
  objects := hObjects
  uploads key h := by
    rw [hUploads]
    exact h

theorem StoreGrows.refl (s : Store J) : StoreGrows s s := .of_same rfl rfl rfl (fun _ h => h) rfl

theorem continues_pending (s3Key mime : String) (v : VersionRow J) : Continues v (v.pending s3Key mime) :=
  ⟨rfl, rfl, rfl, rfl, rfl, fun _ => rfl⟩

theorem continues_filed (file : StoredFile) (v : VersionRow J) : Continues v (v.filed file) :=
  ⟨rfl, rfl, rfl, rfl, rfl, fun _ => rfl⟩

/-- The keys of the store's tables. -/
def Store.Ok (s : Store J) : Prop := TablesOk s.known s.tables

theorem isSome_put {objects : Table String ByteArray} {key key' : String} {bytes : ByteArray}
    (h : (objects key').isSome) : (objects.put key bytes key').isSome := by
  rw [Table.put_apply]
  split
  · rfl
  · exact h

section

variable {s : Store J}

/-- An update of the row of a document that leaves its pointer or moves it to the newest version. -/
theorem Store.Ok.putDocument (hOk : s.Ok) {id : Uuid} {row row' : DocumentRow}
    (hRow : s.tables.documents id = some row) (hOrg : row'.orgId = row.orgId) (hSource : row'.source = row.source)
    (hSlug : row'.templateSlug = row.templateSlug) (hMoves : PointerMoves s.tables id row row') :
    (s.withTables { s.tables with documents := s.tables.documents.put id row' }).Ok ∧
      StoreGrows s (s.withTables { s.tables with documents := s.tables.documents.put id row' }) :=
  ⟨TablesOk.putDocument hOk hRow hOrg hMoves, fun _ h => h, .putDocument hOk hRow hOrg hSource hSlug hMoves,
    fun _ h => h, fun _ h => h⟩

theorem Effect.ok {c : DocumentCommand J} {s' : Store J} (h : Effect s c s') (hOk : s.Ok) :
    s'.Ok ∧ StoreGrows s s' := by
  cases h with
  | nothing => exact ⟨hOk, .refl s⟩
  | create org d hNew hNewVersion =>
    exact ⟨TablesOk.create hOk hNew hNewVersion, fun _ h => List.mem_cons_of_mem _ (List.mem_cons_of_mem _ h),
      .create hNew hNewVersion, fun _ h => h, fun _ h => h⟩
  | setPendingUpload org id s3Key mime row v hRow hVersion hDocument hNewest =>
    have hMoves : PointerMoves s.tables id row { row with currentVersionId := some v.id } :=
      .inr ⟨v, hVersion, hDocument, hNewest, rfl⟩
    have hPut := TablesOk.putDocument hOk hRow (by rfl) hMoves
    have hGrows : Grows s.known s.tables _ := .putDocument hOk hRow (by rfl) (by rfl) (by rfl) hMoves
    exact ⟨hPut.changeVersion (continues_pending s3Key mime), fun _ h => h,
      hGrows.trans (fun _ h => h) (.changeVersion (continues_pending s3Key mime)), fun _ h => h,
      fun _ h => List.mem_cons_of_mem _ h⟩
  | addVersion org document versionId inputSnapshot templateVersion row v hRow hNew hBlank =>
    obtain ⟨hId, hOrg, hDocument, hNo⟩ : v.id = versionId ∧ v.orgId = row.orgId ∧ v.documentId = document ∧
        v.versionNo = s.tables.maxVersionNo document + 1 := by
      rw [hBlank]
      exact ⟨rfl, rfl, rfl, rfl⟩
    have hNumber : ∀ v' ∈ s.tables.versions, v'.documentId = v.documentId → v'.versionNo ≠ v.versionNo := by
      intro v' hv hSame
      have hLe := Tables.le_maxVersionNo hv
      rw [hSame, hDocument] at hLe
      omega
    have hParent : ∃ row, s.tables.documents v.documentId = some row ∧ row.orgId = v.orgId :=
      ⟨row, by rw [hDocument, hRow], hOrg.symm⟩
    subst hId
    exact ⟨TablesOk.append hOk hNew hParent hNumber, fun _ h => List.mem_cons_of_mem _ h, .append hNew,
      fun _ h => h, fun _ h => h⟩
  | setVersionFile org version file =>
    exact ⟨TablesOk.changeVersion hOk (continues_filed file), fun _ h => h, .changeVersion (continues_filed file),
      fun _ h => h, fun _ h => h⟩
  | setCurrentVersion org document version row v hRow hVersion hId hDocument hNewest =>
    exact hOk.putDocument hRow rfl rfl rfl (.inr ⟨v, hVersion, hDocument, hNewest, by rw [hId]⟩)
  | setStatus org id status row hRow => exact hOk.putDocument hRow rfl rfl rfl (.inl rfl)
  | setStatusIf org id source target row hRow => exact hOk.putDocument hRow rfl rfl rfl (.inl rfl)
  | voidDocument org id voiding row hRow hLive => exact hOk.putDocument hRow rfl rfl rfl (.inl rfl)
  | linkEntry org document entry => exact ⟨hOk.same rfl rfl, .of_same rfl rfl rfl (fun _ h => h) rfl⟩
  | remove org document row hRow hLive =>
    exact ⟨TablesOk.deleteDocument hOk document, fun _ h => h, .deleteDocument hOk document, fun _ h => h,
      fun _ h => h⟩
  | putObject key bytes => exact ⟨hOk, .of_same rfl rfl rfl (fun _ h => isSome_put h) rfl⟩
  | submit payload => exact ⟨hOk, .of_same rfl rfl rfl (fun _ h => h) rfl⟩

/-- Every command keeps the keys of the tables, and what there was. -/
theorem exec_ok (hOk : s.Ok) (c : DocumentCommand J) : (exec c s).2.Ok ∧ StoreGrows s (exec c s).2 :=
  (exec_effect c s).ok hOk

theorem Elsewhere.same {s' : Store J} (h : Elsewhere s s') :
    s'.tables.documents = s.tables.documents ∧ s'.tables.versions = s.tables.versions := by
  cases h with
  | replicate | upload | others => exact ⟨rfl, rfl⟩

theorem elsewhere_ok {s' : Store J} (hOk : s.Ok) (h : Elsewhere s s') : s'.Ok ∧ StoreGrows s s' := by
  cases h with
  | replicate => exact ⟨hOk, .of_same rfl rfl rfl (fun _ h => h) rfl⟩
  | upload key bytes hKey => exact ⟨hOk, .of_same rfl rfl rfl (fun _ h => isSome_put h) rfl⟩
  | others entries referenced => exact ⟨hOk.same rfl rfl, .of_same rfl rfl rfl (fun _ h => h) rfl⟩

end

section

variable {sha256Hex : ByteArray → String} {Guard : DocumentCommand J → Store J → Prop}
  {w w' : DocumentSystem J}

theorem step_ok (hOk : w.state.Ok) (hStep : DocumentStep sha256Hex Guard w w') :
    w'.state.Ok ∧ StoreGrows w.state w'.state := by
  rcases hStep.state with hSame | ⟨role, c, -, hDone⟩ | hElsewhere
  · rw [hSame]
    exact ⟨hOk, .refl _⟩
  · rw [hDone]
    exact exec_ok hOk c
  · exact elsewhere_ok hOk hElsewhere

theorem NoDocuments.ok {s : Store J} (h : NoDocuments s) : s.Ok := by
  have hDocument : ∀ id row, s.tables.documents id ≠ some row := by
    intro id row hRow
    rw [h.documents] at hRow
    cases hRow
  have hVersion : ∀ v, v ∉ s.tables.versions := by
    intro v hv
    rw [h.versions] at hv
    cases hv
  exact ⟨fun id row hRow => absurd hRow (hDocument id row), fun v hv => absurd hv (hVersion v),
    fun v hv => absurd hv (hVersion v), fun v hv => absurd hv (hVersion v), fun v hv => absurd hv (hVersion v),
    fun id row _ hRow => absurd hRow (hDocument id row)⟩

theorem run_ok (hOk : w.state.Ok) (hRun : Run (DocumentStep sha256Hex Guard) w w') :
    w'.state.Ok ∧ StoreGrows w.state w'.state := by
  have keeps : ∀ a b : DocumentSystem J, a.state.Ok → DocumentStep sha256Hex Guard a b → b.state.Ok :=
    fun _ _ hBefore hStep => (step_ok hBefore hStep).1
  have grows : ∀ a b : DocumentSystem J, a.state.Ok → DocumentStep sha256Hex Guard a b →
      StoreGrows a.state b.state := fun _ _ hBefore hStep => (step_ok hBefore hStep).2
  exact ⟨hRun.invariant keeps hOk,
    Run.relates (fun _ => .refl _) (fun _ _ _ hAB hBC => hAB.trans hBC) keeps grows hRun hOk⟩

end

end CyberAccountant.Documents
