import CyberAccountant.Ledger.JournalService
import CyberAccountant.Tax.Figures

/-! What a storno does to the tax figures.  The original leaves the turnovers with its status, and
the storno, which is posted, enters them with its mirrored lines. -/

namespace CyberAccountant.Tax

open CyberAccountant.Library CyberAccountant.Ledger

/-- The ledger in which the entry stays a draft. -/
def neverPosted (db : Db) (e : EntryRow) : Db := db.withEntry { e with status := .draft }

/-- No line of the entry enters the turnover from the other side when it is mirrored, unless the
turnover of that day is no `bigint` anyway. -/
def FigureCancels (db : Db) (org : Uuid) (accounts : List String) (side : Side) (vatOnly : Bool)
    (day : Date) (lines : List LineRow) : Prop :=
  ∀ l ∈ lines, l.side = side.flip → l.accountCode ∈ accounts →
    (∃ v, summedColumn vatOnly l = some v ∧ v ≠ 0) → ¬DaySummable db org accounts side vatOnly day

/-- The entry has no debit on an income account, there no VAT other than zero either, and no credit
with VAT other than zero on a deductible account; `db` is the ledger without the entry. -/
structure StornoCancels (db : Db) (org : Uuid) (day : Date) (lines : List LineRow) : Prop where
  income : FigureCancels db org incomeAccounts .credit false day lines
  accrued : FigureCancels db org incomeAccounts .credit true day lines
  deductible : FigureCancels db org vatDeductibleAccounts .debit true day lines

/-- The line on the other side. -/
def flipped (l : LineRow) : LineRow := { l with side := l.side.flip }

/-- What a line adds to a turnover depends on what it says only. -/
theorem lineItem_congr {accounts : List String} {side : Side} {vatOnly : Bool} {day : Date}
    {l l' : LineRow} (h : l.posting = l'.posting) :
    lineItem accounts side vatOnly (day, l) = lineItem accounts side vatOnly (day, l') := by
  obtain ⟨hCode, hSide, hAmount, -, hVat⟩ := Posting.mk.inj h
  simp [lineItem, summedColumn, hCode, hSide, hAmount, hVat]

theorem filterMap_lineItem_congr (accounts : List String) (side : Side) (vatOnly : Bool) (day : Date)
    {ls ls' : List LineRow} (h : ls.map LineRow.posting = ls'.map LineRow.posting) :
    (ls.map (day, ·)).filterMap (lineItem accounts side vatOnly) =
      (ls'.map (day, ·)).filterMap (lineItem accounts side vatOnly) := by
  induction ls generalizing ls' with
  | nil =>
    obtain rfl : ls' = [] := by simpa using h.symm
    rfl
  | cons l ls ih =>
    cases ls' with
    | nil => simp at h
    | cons l' ls' =>
      simp only [List.map_cons, List.cons.injEq] at h
      simp only [List.map_cons, List.filterMap_cons, lineItem_congr h.1, ih h.2]

section reversed

variable {db : Db} {org : Uuid} {e storno : EntryRow} {rows : List LineRow} {now : Timestamp}

theorem joinPosted_of_status {l : LineRow} (je : EntryRow) (h : db.entries l.entryId = some je)
    (hStatus : je.status ≠ .posted) : joinPosted db org l = none := by
  simp [joinPosted, h, hStatus]

theorem joinPosted_congr {db' : Db} {l : LineRow} (h : db.entries l.entryId = db'.entries l.entryId) :
    joinPosted db org l = joinPosted db' org l := by
  simp [joinPosted, h]

/-- The lines of before join after the storno what they join without the entry. -/
theorem joined_reversed (hOk : Constraints db) (hNew : db.entries storno.id = none) :
    db.lines.filterMap (joinPosted ((db.addEntry storno rows).withEntry (e.moved now .reversed)) org) =
      postedLines (neverPosted db e) org := by
  refine List.filterMap_congr fun l hl => ?_
  obtain ⟨je, hJe, -⟩ := hOk.parent l hl
  by_cases hCase : l.entryId = e.id
  · rw [joinPosted_of_status (e.moved now .reversed) (by rw [hCase]; exact Table.put_same _ _ _)
        (by simp [EntryRow.moved]),
      joinPosted_of_status { e with status := .draft }
        (by rw [hCase]; exact Table.put_same _ _ _) (by simp)]
  · refine joinPosted_congr ?_
    have hNeS : l.entryId ≠ storno.id := ne_of_new hNew hJe
    rw [withEntry_entries, neverPosted, withEntry_entries, Table.put_ne (by exact hCase),
      Table.put_ne (by exact hCase)]
    exact Table.put_ne hNeS

/-- After the storno the posted lines are those of the ledger without the entry and those of the
storno. -/
theorem postedLines_reversed (hOk : Constraints db) (hE : db.entries e.id = some e)
    (hNew : db.entries storno.id = none) (hPosted : storno.status = .posted)
    (hOrg : storno.orgId = org)
    (hRows : ∀ l ∈ rows, l.entryId = storno.id ∧ l.orgId = storno.orgId) :
    postedLines ((db.addEntry storno rows).withEntry (e.moved now .reversed)) org =
      postedLines (neverPosted db e) org ++ rows.map (storno.entryDate, ·) := by
  have hNe : storno.id ≠ e.id := (ne_of_new hNew hE).symm
  have hAdded : rows.filterMap
        (joinPosted ((db.addEntry storno rows).withEntry (e.moved now .reversed)) org) =
      rows.map (storno.entryDate, ·) := by
    rw [← List.filterMap_eq_map]
    refine List.filterMap_congr fun l hl => ?_
    obtain ⟨hEntry, hLineOrg⟩ := hRows l hl
    have hFound : ((db.addEntry storno rows).withEntry (e.moved now .reversed)).entries l.entryId
        = some storno := by
      rw [hEntry, withEntry_entries, Table.put_ne (by exact hNe)]
      exact Table.put_same _ _ _
    simp [joinPosted, hFound, hLineOrg, hOrg, hPosted]
  change (db.lines ++ rows).filterMap _ = _
  rw [List.filterMap_append, joined_reversed hOk hNew, hAdded]

/-- The extra items of a turnover after the storno are those of the entry's lines on the other
side. -/
theorem figureItems_reversed (now : Timestamp) (hOk : Constraints db) (hE : db.entries e.id = some e)
    (hNew : db.entries storno.id = none) (hPosted : storno.status = .posted)
    (hOrg : storno.orgId = org)
    (hRows : ∀ l ∈ rows, l.entryId = storno.id ∧ l.orgId = storno.orgId) {ls : List LineRow}
    (hMirror : rows.map LineRow.posting = ls.map fun l => l.posting.flip)
    (accounts : List String) (side : Side) (vatOnly : Bool) :
    figureItems ((db.addEntry storno rows).withEntry (e.moved now .reversed)) org accounts side vatOnly
      = figureItems (neverPosted db e) org accounts side vatOnly ++
        (ls.map fun l => (storno.entryDate, flipped l)).filterMap (lineItem accounts side vatOnly) := by
  have hFlipped : rows.map LineRow.posting = (ls.map flipped).map LineRow.posting := by
    rw [hMirror, List.map_map]
    rfl
  have hSame := filterMap_lineItem_congr accounts side vatOnly storno.entryDate hFlipped
  rw [figureItems, postedLines_reversed hOk hE hNew hPosted hOrg hRows, List.filterMap_append, hSame,
    List.map_map]
  rfl

end reversed

/-- The storno leaves a turnover as if its original had never been posted exactly when no line of
the original enters it from the other side. -/
theorem figure_cancels_iff {db : Db} {org : Uuid} {accounts : List String} {side : Side}
    {vatOnly : Bool} {day : Date} {ls : List LineRow} :
    (∀ periodFrom periodTo,
      toBigint (rangeTotal (figureItems db org accounts side vatOnly ++
        (ls.map fun l => (day, flipped l)).filterMap (lineItem accounts side vatOnly))
          periodFrom periodTo) =
      toBigint (rangeTotal (figureItems db org accounts side vatOnly) periodFrom periodTo)) ↔
    FigureCancels db org accounts side vatOnly day ls := by
  have hItems : AllNonNeg (figureItems db org accounts side vatOnly) := filterMap_lineItem_nonNeg _
  rw [figure_append_iff hItems (filterMap_lineItem_nonNeg _)]
  constructor
  · rintro hDays l hl hSide hAccount ⟨v, hColumn, hNonZero⟩
    refine hDays (day, v) (List.mem_filterMap.mpr ⟨(day, flipped l), ?_, ?_⟩) hNonZero
    · exact List.mem_map.mpr ⟨l, hl, rfl⟩
    · exact lineItem_eq_some.mpr ⟨by simp [flipped, hSide], hAccount, hColumn, rfl⟩
  · intro hCancels i hi hNonZero
    obtain ⟨row, hRow, hItem⟩ := List.mem_filterMap.mp hi
    obtain ⟨l, hl, rfl⟩ := List.mem_map.mp hRow
    obtain ⟨hSide, hAccount, hColumn, hDay⟩ := lineItem_eq_some.mp hItem
    have hFlip : l.side = side.flip := by rw [← hSide]; simp [flipped]
    rw [hDay]
    exact hCancels l hl hFlip hAccount ⟨i.2, hColumn, hNonZero⟩

/-- The posted lines of a ledger are those without the entry and those of the entry. -/
theorem postedLines_perm {db : Db} {e : EntryRow} (hOk : Constraints db)
    (hE : db.entries e.id = some e) (hPosted : e.status = .posted) :
    (postedLines db e.orgId).Perm
      (postedLines (neverPosted db e) e.orgId ++ (db.linesOf e.id).map (e.entryDate, ·)) := by
  have hSplit := List.filter_append_perm (fun l : LineRow => decide (l.entryId ≠ e.id)) db.lines
  have hRest : ∀ f : LineRow → Option (Date × LineRow), (∀ l, l.entryId = e.id → f l = none) →
      (db.lines.filter (fun l => decide (l.entryId ≠ e.id))).filterMap f = db.lines.filterMap f := by
    intro f hNone
    rw [List.filterMap_filter]
    refine List.filterMap_congr fun l _ => ?_
    by_cases hCase : l.entryId = e.id
    · simp [hCase, hNone l hCase]
    · simp [hCase]
  have hDraft : ∀ l : LineRow, l.entryId = e.id →
      joinPosted (neverPosted db e) e.orgId l = none := fun l hCase =>
    joinPosted_of_status { e with status := .draft }
      (by rw [hCase]; exact Table.put_same _ _ _) (by simp)
  have hOthers : (db.lines.filter (fun l => decide (l.entryId ≠ e.id))).filterMap
      (joinPosted db e.orgId) = postedLines (neverPosted db e) e.orgId := by
    refine Eq.trans ?_ (hRest _ hDraft)
    refine List.filterMap_congr fun l hl => joinPosted_congr ?_
    have hNe : l.entryId ≠ e.id := by simpa using (List.mem_filter.mp hl).2
    rw [neverPosted, withEntry_entries, Table.put_ne (by exact hNe)]
  have hOwn : (db.lines.filter (fun l => !decide (l.entryId ≠ e.id))).filterMap
      (joinPosted db e.orgId) = (db.linesOf e.id).map (e.entryDate, ·) := by
    have hFilter : db.lines.filter (fun l => !decide (l.entryId ≠ e.id)) = db.linesOf e.id :=
      List.filter_congr fun l _ => by simp
    rw [hFilter, ← List.filterMap_eq_map]
    refine List.filterMap_congr fun l hl => ?_
    obtain ⟨hMem, hEntry⟩ := List.mem_filter.mp hl
    rw [decide_eq_true_eq] at hEntry
    obtain ⟨je, hJe, hOrg⟩ := hOk.parent l hMem
    rw [hEntry, hE] at hJe
    cases hJe
    simp [joinPosted, hEntry, hE, hOrg, hPosted]
  have hPerm := (hSplit.filterMap (joinPosted db e.orgId)).symm
  rwa [List.filterMap_append, hOthers, hOwn] at hPerm

/-- A ledger sums what it sums without the entry and what the entry's lines add. -/
theorem figureItems_perm {db : Db} {e : EntryRow} (hOk : Constraints db)
    (hE : db.entries e.id = some e) (hPosted : e.status = .posted) (accounts : List String)
    (side : Side) (vatOnly : Bool) :
    (figureItems db e.orgId accounts side vatOnly).Perm
      (figureItems (neverPosted db e) e.orgId accounts side vatOnly ++
        ((db.linesOf e.id).map (e.entryDate, ·)).filterMap (lineItem accounts side vatOnly)) := by
  rw [figureItems, figureItems, ← List.filterMap_append]
  exact (postedLines_perm hOk hE hPosted).filterMap _

/-- An unposted storno leaves the posted lines of the ledger without its original. -/
theorem postedLines_unposted {db : Db} {org : Uuid} {e storno : EntryRow} {rows : List LineRow}
    {now : Timestamp} (hOk : Constraints db) (hNew : db.entries storno.id = none)
    (hRows : ∀ l ∈ rows, l.entryId = storno.id ∧ l.orgId = storno.orgId) :
    postedLines (neverPosted ((db.addEntry storno rows).withEntry (e.moved now .reversed)) storno) org =
      postedLines (neverPosted db e) org := by
  let after := (db.addEntry storno rows).withEntry (e.moved now .reversed)
  have hDraft : ∀ l : LineRow, l.entryId = storno.id →
      joinPosted (neverPosted after storno) org l = none := fun l hCase =>
    joinPosted_of_status { storno with status := .draft }
      (by rw [hCase]; exact Table.put_same _ _ _) (by simp)
  have hOld : db.lines.filterMap (joinPosted (neverPosted after storno) org) =
      db.lines.filterMap (joinPosted after org) := by
    refine List.filterMap_congr fun l hl => joinPosted_congr ?_
    obtain ⟨je, hJe, -⟩ := hOk.parent l hl
    exact Table.put_ne (ne_of_new hNew hJe)
  have hNone : rows.filterMap (joinPosted (neverPosted after storno) org) = [] :=
    List.filterMap_eq_nil_iff.mpr fun l hl => hDraft l (hRows l hl).1
  change (db.lines ++ rows).filterMap (joinPosted (neverPosted after storno) org) = _
  rw [List.filterMap_append, hNone, List.append_nil, hOld, joined_reversed hOk hNew]

/-- Lines that mirror others add, mirrored once more, what the others add. -/
theorem items_of_mirrored_twice {ls rows rows' : List LineRow} (day : Date)
    (hMirror : rows.map LineRow.posting = ls.map fun l => l.posting.flip) (hRows' : rows'.Perm rows)
    (accounts : List String) (side : Side) (vatOnly : Bool) :
    ((rows'.map fun l => (day, flipped l)).filterMap (lineItem accounts side vatOnly)).Perm
      ((ls.map (day, ·)).filterMap (lineItem accounts side vatOnly)) := by
  have hBack : (rows.map flipped).map LineRow.posting = ls.map LineRow.posting := by
    have hFlip := congrArg (List.map Posting.flip) hMirror
    rw [List.map_map, List.map_map] at hFlip
    rw [List.map_map]
    refine hFlip.trans (List.map_congr_left fun l _ => ?_)
    exact Posting.flip_flip l.posting
  have hSame := filterMap_lineItem_congr accounts side vatOnly day hBack
  rw [List.map_map] at hSame
  rw [← hSame]
  exact (hRows'.map _).filterMap _

theorem storno_stored {db : Db} {e storno : EntryRow} {rows : List LineRow} {now : Timestamp}
    (hNe : storno.id ≠ e.id) :
    ((db.addEntry storno rows).withEntry (e.moved now .reversed)).entries storno.id = some storno :=
  (Table.put_ne hNe).trans (Table.put_same _ _ _)

/-- The storno of a storno brings back the figures of the ledger in which the original is posted. -/
theorem taxFigures_reversed_twice {num : NumericText} {db db' : Db} {user id : Uuid} {e storno : EntryRow}
    {rows : List LineRow} {lineIds : Nat → Uuid} {now now' : Timestamp} (hOk : Constraints db)
    (hE : db.entries e.id = some e) (hPosted : e.status = .posted) (hNew : db.entries storno.id = none)
    (hOrg : storno.orgId = e.orgId) (hDate : storno.entryDate = e.entryDate)
    (hRows : ∀ l ∈ rows, l.entryId = storno.id ∧ l.orgId = storno.orgId)
    (hMirror : rows.map LineRow.posting = ((db.linesOf e.id).mergeSort LineRow.before).map fun l => l.posting.flip)
    (hReverse : reverse num now' ((db.addEntry storno rows).withEntry (e.moved now .reversed)) e.orgId user storno
      (loadLines num ((db.addEntry storno rows).withEntry (e.moved now .reversed)) storno.id) id lineIds = .ok db')
    (periodFrom periodTo : Date) : taxFigures db' e.orgId periodFrom periodTo = taxFigures db e.orgId periodFrom periodTo := by
  have hFound : ((db.addEntry storno rows).withEntry (e.moved now .reversed)).entries storno.id = some storno :=
    storno_stored (ne_of_new hNew hE).symm
  have hOk' : Constraints ((db.addEntry storno rows).withEntry (e.moved now .reversed)) := by
    have hAdded : Constraints (db.addEntry storno rows) := by
      refine hOk.addEntry hNew ?_ hRows
      rw [hOrg]
      exact hOk.organization _ _ hE
    exact hAdded.moved ((Table.put_ne (ne_of_new hNew hE)).trans hE)
  have hStored : ((db.addEntry storno rows).withEntry (e.moved now .reversed)).linesOf storno.id = rows := by
    rw [linesOf_withEntry]
    exact hOk.linesOf_addEntry hNew hRows
  obtain ⟨rows', row', storno', hStorno', hMirror', hRows', hNew', -, hRow', -, -, rfl, -⟩ :=
    reverse_mirrors hOk' hReverse fun _ => by simp [hFound]
  obtain rfl : storno = row' := by
    rw [hFound] at hRow'
    exact Option.some.inj hRow'
  have hPosted' : storno'.status = .posted := by rw [hStorno']; rfl
  have hOrg' : storno'.orgId = e.orgId := by rw [hStorno']; rfl
  have hDate' : storno'.entryDate = e.entryDate := by
    rw [hStorno']
    exact hDate
  have hItems := figureItems_reversed now' hOk' hFound hNew' hPosted' hOrg' hRows' hMirror'
  refine taxFigures_eq_iff.mpr (fun accounts side vatOnly _ f t => ?_) periodFrom periodTo
  have hWithout : figureItems (neverPosted ((db.addEntry storno rows).withEntry
      (e.moved now .reversed)) storno) e.orgId accounts side vatOnly =
      figureItems (neverPosted db e) e.orgId accounts side vatOnly :=
    congrArg (List.filterMap _) (postedLines_unposted hOk hNew hRows)
  have hSorted : ((((db.addEntry storno rows).withEntry (e.moved now .reversed)).linesOf storno.id).mergeSort
      LineRow.before).Perm rows := (List.mergeSort_perm _ _).trans (by rw [hStored])
  have hTwice := (items_of_mirrored_twice e.entryDate hMirror hSorted accounts side
    vatOnly).trans (((List.mergeSort_perm _ _).map _).filterMap _)
  rw [sumLineAmountTiyn_eq, sumLineAmountTiyn_eq, hItems, hWithout, hDate']
  refine congrArg toBigint (rangeTotal_perm ?_ f t)
  exact (hTwice.append_left _).trans (figureItems_perm hOk hE hPosted accounts side vatOnly).symm

/-- The tax figures after a storno are those of the ledger in which its original was never posted
exactly when the original has no line that the storno brings into a figure; and the storno of the
storno always brings back the figures of the ledger in which the original is posted. -/
theorem storno_neutral_iff {num : NumericText} {db db' : Db} {org user : Uuid} {e : EntryRow}
    {id : Uuid} {lineIds : Nat → Uuid} {now : Timestamp} (hOk : Constraints db)
    (hE : db.entries e.id = some e)
    (hReverse : reverse num now db org user e (loadLines num db e.id) id lineIds = .ok db') :
    ((∀ periodFrom periodTo, taxFigures db' org periodFrom periodTo =
        taxFigures (neverPosted db e) org periodFrom periodTo) ↔
      StornoCancels (neverPosted db e) org e.entryDate (db.linesOf e.id)) ∧
    ∀ storno user' id' lineIds' now' db'', db'.entries id = some storno →
      reverse num now' db' org user' storno (loadLines num db' id) id' lineIds' = .ok db'' →
      ∀ periodFrom periodTo, taxFigures db'' org periodFrom periodTo =
        taxFigures db org periodFrom periodTo := by
  let ls := (db.linesOf e.id).mergeSort LineRow.before
  have hLs : ls.Perm (db.linesOf e.id) := List.mergeSort_perm _ _
  obtain ⟨rows, row, storno, hStorno, hMirror, hRows, hNew, -, hRow, hRowOrg, hPosted, rfl, -⟩ :=
    reverse_mirrors hOk hReverse fun _ => by simp [hE]
  obtain rfl : e = row := by
    rw [hE] at hRow
    exact Option.some.inj hRow
  subst hRowOrg
  have hStornoPosted : storno.status = .posted := by rw [hStorno]; rfl
  have hStornoOrg : storno.orgId = e.orgId := by rw [hStorno]; rfl
  have hStornoDate : storno.entryDate = e.entryDate := by rw [hStorno]; rfl
  have hStornoId : storno.id = id := by rw [hStorno]; rfl
  have hItems := figureItems_reversed now hOk hE hNew hStornoPosted hStornoOrg hRows hMirror
  refine ⟨?_, ?_⟩
  · have hFigure : ∀ accounts side vatOnly, (∀ periodFrom periodTo, sumLineAmountTiyn
          ((db.addEntry storno rows).withEntry (e.moved now .reversed)) e.orgId accounts side periodFrom
          periodTo vatOnly =
          sumLineAmountTiyn (neverPosted db e) e.orgId accounts side periodFrom periodTo vatOnly) ↔
        FigureCancels (neverPosted db e) e.orgId accounts side vatOnly e.entryDate
          (db.linesOf e.id) := by
      intro accounts side vatOnly
      simp only [sumLineAmountTiyn_eq, hItems, hStornoDate, figure_cancels_iff]
      exact ⟨fun h l hl => h l (hLs.mem_iff.mpr hl), fun h l hl => h l (hLs.mem_iff.mp hl)⟩
    rw [taxFigures_eq_iff]
    constructor
    · intro h
      exact ⟨(hFigure _ _ _).mp (h _ _ _ (by simp)), (hFigure _ _ _).mp (h _ _ _ (by simp)),
        (hFigure _ _ _).mp (h _ _ _ (by simp))⟩
    · rintro ⟨hIncome, hAccrued, hDeductible⟩ accounts side vatOnly hMem
      simp only [List.mem_cons, Prod.mk.injEq, List.not_mem_nil, or_false] at hMem
      rcases hMem with ⟨rfl, rfl, rfl⟩ | ⟨rfl, rfl, rfl⟩ | ⟨rfl, rfl, rfl⟩
      · exact (hFigure _ _ _).mpr hIncome
      · exact (hFigure _ _ _).mpr hAccrued
      · exact (hFigure _ _ _).mpr hDeductible
  · intro again user' id' lineIds' now' db'' hAgain hReverse' periodFrom periodTo
    obtain rfl : storno = again := by
      have hFound : ((db.addEntry storno rows).withEntry (e.moved now .reversed)).entries storno.id = some storno :=
        storno_stored (ne_of_new hNew hE).symm
      rw [hStornoId, hAgain] at hFound
      exact (Option.some.inj hFound).symm
    subst hStornoId
    exact taxFigures_reversed_twice hOk hE hPosted hNew hStornoOrg hStornoDate hRows hMirror hReverse' periodFrom periodTo

theorem soleLedger_constraints {lines : List LineRow}
    (h : ∀ l ∈ lines, l.entryId = 10 ∧ l.orgId = 1) : Constraints (soleLedger lines) := by
  have hLookup : ∀ k r, (soleLedger lines).entries k = some r → k = 10 ∧ r = soleEntry := by
    intro k r hRow
    rcases Table.put_eq_some.mp hRow with ⟨rfl, rfl⟩ | ⟨-, hRow⟩
    · exact ⟨rfl, rfl⟩
    · cases hRow
  refine ⟨fun k r hRow => ?_, fun k r hRow => ?_, fun l hl => ?_⟩
  · obtain ⟨rfl, rfl⟩ := hLookup k r hRow
    rfl
  · obtain ⟨rfl, rfl⟩ := hLookup k r hRow
    exact List.mem_cons_self
  · obtain ⟨hEntry, hOrg⟩ := h l hl
    exact ⟨soleEntry, by rw [hEntry]; rfl, hOrg.symm⟩

/-- A sale with its VAT: the storno takes it out of the figures. -/
def saleLines : List LineRow :=
  [soleLine 20 "1210" .debit none, soleLine 21 "6010" .credit (some ⟨.tiyn 1200, by decide, by decide⟩)]

/-- Revenue given back: a debit on the income account. -/
def refundLines : List LineRow :=
  [soleLine 20 "6010" .debit none, soleLine 21 "1030" .credit none]

theorem loadLines_soleLedger {lines : List LineRow} (h : lines.Pairwise fun a b => a.before b)
    (hEntry : lines.filter (·.entryId = 10) = lines) :
    loadLines .plain (soleLedger lines) 10 = lines.map (LineRow.toJournalLine .plain) := by
  unfold loadLines
  rw [show (soleLedger lines).linesOf 10 = lines from hEntry, List.mergeSort_of_pairwise h]

theorem storno_neutral_sale : ∃ db', reverse .plain 300 (soleLedger saleLines) 1 7 soleEntry
      (loadLines .plain (soleLedger saleLines) 10) 30 (· + 40) = .ok db' ∧
    ∀ periodFrom periodTo, taxFigures db' 1 periodFrom periodTo =
      taxFigures (neverPosted (soleLedger saleLines) soleEntry) 1 periodFrom periodTo := by
  have hLoad := loadLines_soleLedger (show saleLines.Pairwise _ by decide) (by decide)
  have hRun : (reverse .plain 300 (soleLedger saleLines) 1 7 soleEntry
      (saleLines.map (LineRow.toJournalLine .plain)) 30 (· + 40)).isOk = true := by decide +kernel
  rw [hLoad]
  cases hReverse : reverse .plain 300 (soleLedger saleLines) 1 7 soleEntry
      (saleLines.map (LineRow.toJournalLine .plain)) 30 (· + 40) with
  | error err => simp [hReverse, Except.isOk, Except.toBool] at hRun
  | ok db' =>
    refine ⟨db', rfl, (storno_neutral_iff (soleLedger_constraints (by decide)) rfl
      (by rw [← hReverse]; exact congrArg (fun ls => reverse .plain 300 _ 1 7 _ ls 30 _) hLoad)).1.mpr ?_⟩
    have hLines : (soleLedger saleLines).linesOf soleEntry.id = saleLines := by decide
    have hIncome : ∀ l ∈ saleLines, l.side = .debit → l.accountCode ∉ incomeAccounts := by decide
    have hDeductible : ∀ l ∈ saleLines, l.side = .credit → l.accountCode ∉ vatDeductibleAccounts := by
      decide
    rw [hLines]
    exact ⟨fun l hl hSide hAccount => absurd hAccount (hIncome l hl hSide),
      fun l hl hSide hAccount => absurd hAccount (hIncome l hl hSide),
      fun l hl hSide hAccount => absurd hAccount (hDeductible l hl hSide)⟩

/-- The storno of a refund counts as income. -/
theorem storno_refund_is_income :
    (reverse .plain 300 (soleLedger refundLines) 1 7 soleEntry
        (loadLines .plain (soleLedger refundLines) 10) 30 (· + 40)).toOption.map
          (fun db' => (taxFigures db' 1 soleEntry.entryDate soleEntry.entryDate).income) =
        some (.ok 11200) ∧
      (taxFigures (neverPosted (soleLedger refundLines) soleEntry) 1 soleEntry.entryDate
        soleEntry.entryDate).income = .ok 0 := by
  rw [loadLines_soleLedger (by decide) (by decide)]
  decide +kernel

end CyberAccountant.Tax
