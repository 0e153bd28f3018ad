import CyberAccountant.Ledger.JournalRuns

/-! What the rows of the journal hold, whichever operation wrote them.  A line is drafted from texts, or
read back from rows and written again on the other side; so what the texts of every draft have, the rows
of every run have. -/

namespace CyberAccountant.Ledger

open CyberAccountant.Library

/-- Rows have `row` where they are written from texts that have `text`, and the other way round. -/
structure Carried (num : NumericText) (text : JournalLine → Prop) (row : LineRow → Prop) : Prop where
  stored : ∀ {now org entry d l}, text d.2 → Txn.lineRow num now org entry d = .ok l → row l
  loaded : ∀ l, row l → text (l.toJournalLine num)
  mirrored : ∀ line, text line → text (mirrored line)

/-- The lines that a client holds for its transaction. -/
def Pending.lines : Pending → List JournalLine
  | .createDraft req => req.lines
  | .reverse _ _ _ lines => lines
  | .post _ _ | .reverseHeader _ _ _ => []

structure LinesAll (text : JournalLine → Prop) (row : LineRow → Prop) (w : World) : Prop where
  rows : ∀ l ∈ w.db.lines, row l
  pending : ∀ c p, w.clients c = some p → ∀ line ∈ p.lines, text line

section step

variable {num : NumericText} {text : JournalLine → Prop} {row : LineRow → Prop} {w w' : World}

/-- Rows that are written from lines that have `text`. -/
theorem Carried.rows (hCarried : Carried num text row) {now : Timestamp} {org entry : Uuid}
    {drawn : List (Uuid × JournalLine)} {rows : List LineRow}
    (hRows : List.Forall₂ (fun d l => Txn.lineRow num now org entry d = .ok l) drawn rows)
    (h : ∀ line ∈ drawn.map Prod.snd, text line) : ∀ l ∈ rows, row l := by
  induction hRows with
  | nil => simp
  | @cons d l drawn rows hHead _ ih =>
    rw [List.map_cons, List.forall_mem_cons] at h
    exact List.forall_mem_cons.mpr ⟨hCarried.stored h.1 hHead, ih h.2⟩

/-- A client begins an operation with lines that have `text`. -/
theorem LinesAll.begins (h : LinesAll text row w) {client : Nat} {p : Pending}
    (hLines : ∀ line ∈ p.lines, text line) : LinesAll text row (w.begin client p) where
  rows := h.rows
  pending c q hPending := by
    rcases Table.put_eq_some.mp hPending with ⟨-, rfl⟩ | ⟨-, hPending⟩
    · exact hLines
    · exact h.pending c q hPending

/-- A client ends an operation with a transaction that adds rows. -/
theorem LinesAll.finishes (h : LinesAll text row w) {client : Nat} {db : Db} {rows : List LineRow}
    (hLines : db.lines = w.db.lines ++ rows) (hRows : ∀ l ∈ rows, row l) :
    LinesAll text row (w.finish client db) where
  rows l hl := by
    change l ∈ db.lines at hl
    rw [hLines] at hl
    exact (List.mem_append.mp hl).elim (h.rows l) (hRows l)
  pending c p hPending := h.pending c p (Table.drop_eq_some.mp hPending).2

/-- Every step keeps what the rows and the lines of the clients have. -/
theorem LinesAll.step (hCarried : Carried num text row) (hOk : WorldOk num w) (h : LinesAll text row w)
    (hStep : DraftsStep num text w w') : LinesAll text row w' := by
  obtain ⟨hStep, hDrafts⟩ := hStep
  cases hStep with
  | readDraft client req hIdle hChecks =>
    exact h.begins (hDrafts client req hChecks (Table.put_eq_some.mpr (.inl ⟨rfl, rfl⟩)))
  | writeDraft client req now id lineIds db hRead hWrite =>
    obtain ⟨rows, hRows, -, -, rfl, -⟩ := createDraft_ok hWrite
    refine h.finishes rfl (hCarried.rows hRows ?_)
    rw [withIds_map_snd]
    exact h.pending client _ hRead
  | readPost client org entry r hIdle hFind hDraft =>
    exact h.begins fun line hLine => absurd hLine List.not_mem_nil
  | writePost client org entry now db hRead hWrite =>
    obtain ⟨r, -, -, -, -, -, rfl⟩ := post_ok hWrite
    exact h.finishes (List.append_nil _).symm (by simp)
  | readOriginal client org user entry original hIdle hFind hPosted =>
    exact h.begins fun line hLine => absurd hLine List.not_mem_nil
  | readLines client org user original hRead =>
    refine h.begins fun line hLine => ?_
    obtain ⟨l, hl, rfl⟩ := List.mem_map.mp hLine
    have hStored : l ∈ w.db.lines := (List.mem_filter.mp (List.mem_mergeSort.mp hl)).1
    exact hCarried.loaded l (h.rows l hStored)
  | writeReverse client org user original lines now id lineIds db hRead hWrite =>
    obtain ⟨⟨-, hThere⟩, -⟩ : PendingOk num w (.reverse org user original lines) :=
      hOk.pending client _ hRead
    obtain ⟨rows, r, hRows, -, -, -, -, -, rfl, -⟩ := reverse_ok hWrite fun hOrg => by
      obtain ⟨r, hRow, -⟩ := hThere hOrg
      simp [hRow]
    refine h.finishes rfl (hCarried.rows hRows fun line hLine => ?_)
    rw [withIds_map_snd] at hLine
    obtain ⟨read, hMem, rfl⟩ := List.mem_map.mp hLine
    exact hCarried.mirrored read (h.pending client _ hRead read hMem)
  | abandon client => exact h.finishes (List.append_nil _).symm (by simp)
  | createOrganization org hNew => exact ⟨h.rows, h.pending⟩
  | deleteOrganization org => exact ⟨fun l hl => h.rows l (List.mem_filter.mp hl).1, h.pending⟩
  | deleteUser user => exact ⟨h.rows, h.pending⟩
  | otherTables users accounts counterparties => exact ⟨h.rows, h.pending⟩

/-- What every draft of a run has in its texts, every row of it has. -/
theorem LinesAll.run (hCarried : Carried num text row) (hRun : Run (DraftsStep num text) World.initial w) :
    LinesAll text row w := by
  have hBoth : WorldOk num w ∧ LinesAll text row w := by
    induction hRun with
    | refl => exact ⟨WorldOk.initial num, by simp [World.initial], by simp [World.initial]⟩
    | tail _ hStep ih => exact ⟨(ih.1.step hStep.1).1, ih.2.step hCarried ih.1 hStep⟩
  exact hBoth.2

end step

/-! ### Amounts -/

/-- The amount is read as a number. -/
def JournalLine.AmountRead (num : NumericText) (line : JournalLine) : Prop :=
  ∃ tiyn, num.read line.amount = some (.tiyn tiyn)

/-- The amount is a number. -/
def LineRow.AmountIsNumber (l : LineRow) : Prop := ∃ tiyn, l.amount.value = .tiyn tiyn

theorem readAmount_value {num : NumericText} {text : String} {a : Amount}
    (h : Txn.readAmount num text = .ok a) : num.read text = some a.value := by
  simp only [Txn.readAmount, bind_eq_ok, orFail_eq_ok, Amount.ofNumeric?] at h
  obtain ⟨v, hRead, hCheck⟩ := h
  split_ifs at hCheck
  obtain rfl := Option.some.inj hCheck
  exact hRead

theorem amounts_carried (num : NumericText) :
    Carried num (JournalLine.AmountRead num) LineRow.AmountIsNumber where
  stored hText hRow := by
    obtain ⟨tiyn, hRead⟩ := hText
    obtain ⟨-, -, -, -, hAmount, -⟩ := Txn.lineRow_ok hRow
    have hValue := readAmount_value hAmount
    rw [hRead, Option.some.injEq] at hValue
    exact ⟨tiyn, hValue.symm⟩
  loaded l hRow := by
    obtain ⟨tiyn, hValue⟩ := hRow
    refine ⟨tiyn, ?_⟩
    rw [← hValue]
    exact num.read_write l.amount.value l.amount.positive.nonNeg l.amount.fits
  mirrored _ hText := hText

/-- The check of a line reads its amount. -/
theorem checkLine_amount {db : Db} {org : Uuid} {totals totals' : Int × Int} {line : JournalLine}
    (h : checkLine db org totals line = .ok totals') : ∃ tiyn, parseTiyn line.amount = .ok tiyn := by
  simp only [checkLine, bind_eq_ok, mapError_eq_ok] at h
  obtain ⟨tiyn, hTiyn, -⟩ := h
  exact ⟨tiyn, hTiyn⟩

theorem checkLines_amounts {db : Db} {org : Uuid} {totals totals' : Int × Int} {lines : List JournalLine}
    (h : lines.foldlM (checkLine db org) totals = .ok totals') :
    ∀ line ∈ lines, ∃ tiyn, parseTiyn line.amount = .ok tiyn := by
  induction lines generalizing totals with
  | nil => simp
  | cons line lines ih =>
    rw [List.foldlM_cons, bind_eq_ok] at h
    obtain ⟨next, hHead, hTail⟩ := h
    exact List.forall_mem_cons.mpr ⟨checkLine_amount hHead, ih hTail⟩

/-- Every line of a draft that passes its checks has a positive decimal amount. -/
theorem checkDraft_amounts {db : Db} {req : DraftRequest} (h : checkDraft db req = .ok ()) :
    ∀ line ∈ req.lines, ∃ tiyn, parseTiyn line.amount = .ok tiyn := by
  simp only [checkDraft, bind_eq_ok, ensure_eq_ok] at h
  obtain ⟨-, -, totals, hLines, -⟩ := h
  exact checkLines_amounts hLines

/-- In every ledger that clients reach in any interleaving the amounts are numbers. -/
theorem Reachable.amounts {num : NumericText} {w : World} (h : Reachable num w) :
    ∀ l ∈ w.db.lines, l.AmountIsNumber := by
  refine (LinesAll.run (amounts_carried num) (Run.mono (fun s s' hStep => ⟨hStep, ?_⟩) h)).rows
  intro c req hChecks _ line hLine
  obtain ⟨tiyn, hParse⟩ := checkDraft_amounts hChecks line hLine
  exact ⟨tiyn, num.read_decimal _ _ hParse⟩

end CyberAccountant.Ledger
