import CyberAccountant.Ledger.Journal
import Mathlib.Data.List.Forall2
import Mathlib.Data.List.Sort

/-! The operations of the journal's service: drafting, posting and the storno, each with its reads
and with the transaction that writes. -/

namespace CyberAccountant.Ledger

open CyberAccountant.Library

/-- A line as the service receives and reads it, with its amounts as text. -/
structure JournalLine where
  accountCode : String
  side : String
  amount : String
  counterpartyId : Option Uuid
  vatAmount : Option String
  deriving DecidableEq

/-- The arguments of `create_draft`. -/
structure DraftRequest where
  orgId : Uuid
  userId : Uuid
  entryDate : Date
  description : String
  lines : List JournalLine

inductive JournalError where
  | tooFewLines (count : Nat)
  | malformedAmount (amount : String) (fault : TiynFault)
  | badSide (side : String)
  | unknownAccount (code : String)
  | foreignCounterparty (id : Uuid)
  | unbalancedEntry (debit credit : Int)
  | cannotPost (status : EntryStatus)
  | statusChanged
  | cannotReverse (status : EntryStatus)
  | stornoNotPosted
  | originalNotReversed
  | database (cause : DbError)
  deriving DecidableEq

def JournalError.what : JournalError → String
  | .tooFewLines count =>
    "a journal entry needs at least 2 lines to balance, got " ++ toString count
  | .malformedAmount amount fault => fault.what amount
  | .badSide side => "journal line side must be 'debit' or 'credit', got '" ++ side ++ "'"
  | .unknownAccount code => "account '" ++ code ++ "' is not visible to this organization"
  | .foreignCounterparty id =>
    "counterparty '" ++ toString id ++ "' does not belong to this organization"
  | .unbalancedEntry debit credit =>
    "entry is unbalanced: debit=" ++ toString debit ++ " tiyn, credit=" ++ toString credit ++
      " tiyn"
  | .cannotPost status => "cannot post an entry in status '" ++ status.text ++ "'"
  | .statusChanged => "entry status changed concurrently — no longer 'draft'"
  | .cannotReverse status => "cannot reverse an entry in status '" ++ status.text ++ "'"
  | .stornoNotPosted => "failed to post the storno entry"
  | .originalNotReversed => "failed to mark the original entry reversed"
  | .database cause => cause.message

/-! ### Reads -/

/-- The entry `id` if it belongs to `org`. -/
def findInOrg (db : Db) (id org : Uuid) : Option EntryRow :=
  (db.entries id).filter (·.orgId = org)

def LineRow.toJournalLine (num : NumericText) (l : LineRow) : JournalLine where
  accountCode := l.accountCode
  side := l.side.text
  amount := num.write l.amount.value
  counterpartyId := l.counterpartyId
  vatAmount := l.vatAmount.map fun v => num.write v.value

/-- `ORDER BY created_at, id`. -/
def LineRow.before (a b : LineRow) : Bool :=
  a.createdAt < b.createdAt || a.createdAt == b.createdAt && a.id ≤ b.id

/-- The lines of an entry, oldest first. -/
def loadLines (num : NumericText) (db : Db) (entry : Uuid) : List JournalLine :=
  ((db.linesOf entry).mergeSort LineRow.before).map (LineRow.toJournalLine num)

/-! ### The checks of `create_draft` -/

/-- The totals of debits and credits after one more line, if the line passes its checks. -/
def checkLine (db : Db) (org : Uuid) (totals : Int × Int) (line : JournalLine) :
    Except JournalError (Int × Int) := do
  let tiyn ← (parseTiyn line.amount).mapError (.malformedAmount line.amount)
  let totals ←
    if line.side = "debit" then .ok (wrap64 (totals.1 + tiyn), totals.2)
    else if line.side = "credit" then .ok (totals.1, wrap64 (totals.2 + tiyn))
    else .error (.badSide line.side)
  ensure (findVisible db.accounts org line.accountCode).isSome (.unknownAccount line.accountCode)
  match line.counterpartyId with
  | none => .ok totals
  | some id =>
    if ⟨id, org⟩ ∈ db.counterparties then .ok totals else .error (.foreignCounterparty id)

/-- The checks that `create_draft` makes before its transaction. -/
def checkDraft (db : Db) (req : DraftRequest) : Except JournalError Unit := do
  ensure (2 ≤ req.lines.length) (.tooFewLines req.lines.length)
  let totals ← req.lines.foldlM (checkLine db req.orgId) (0, 0)
  ensure (totals.1 = totals.2) (.unbalancedEntry totals.1 totals.2)

/-! ### Transactions -/

/-- A transaction that is still open: the tables as it sees them, and the lines that the deferred
trigger has to look at when it commits. -/
structure Txn where
  db : Db
  queued : List (RowOp LineRow)

namespace Txn

def begin (db : Db) : Txn := ⟨db, []⟩

def exec (now : Timestamp) (t : Txn) (op : JournalOp) : Except DbError Txn := do
  let db ← t.db.exec now op
  match op with
  | .entry _ => pure { t with db }
  | .line lineOp => pure ⟨db, t.queued ++ [lineOp]⟩

def commit (t : Txn) : Except DbError Db := do
  t.queued.forM (journalEntryMustBalance t.db)
  pure t.db

/-- `UPDATE journal_entries SET status = to WHERE id AND org_id AND status = from`; `none` where no
row satisfies the condition. -/
def updateStatus (now : Timestamp) (t : Txn) (id org : Uuid) (source target : EntryStatus) :
    Except DbError (Option Txn) :=
  match t.db.entries id with
  | none => .ok none
  | some row =>
    if row.orgId = org ∧ row.status = source then
      (t.exec now (.entry (.update row { row with status := target }))).map some
    else
      .ok none

def readAmount (num : NumericText) (text : String) : Except DbError Amount := do
  let v ← orFail .invalidText (num.read text)
  orFail .checkViolation (Amount.ofNumeric? v)

def readVatAmount (num : NumericText) : Option String → Except DbError (Option VatAmount)
  | none => pure none
  | some text => do
    let v ← orFail .invalidText (num.read text)
    some <$> orFail .checkViolation (VatAmount.ofNumeric? v)

/-- The row that the database makes of a line with the id drawn for it. -/
def lineRow (num : NumericText) (now : Timestamp) (org entry : Uuid) (drawn : Uuid × JournalLine) :
    Except DbError LineRow := do
  let line := drawn.2
  let amount ← readAmount num line.amount
  let vatAmount ← readVatAmount num line.vatAmount
  let side ← orFail .checkViolation (Side.ofText? line.side)
  pure ⟨drawn.1, org, entry, line.accountCode, side, amount, line.counterpartyId, vatAmount, now⟩

/-- One `INSERT INTO journal_lines` for each line. -/
def insertLines (num : NumericText) (now : Timestamp) (org entry : Uuid) (t : Txn)
    (drawn : List (Uuid × JournalLine)) : Except DbError Txn :=
  drawn.foldlM (fun t d => do t.exec now (.line (.insert (← lineRow num now org entry d)))) t

end Txn

/-- The header that `create_draft` inserts. -/
def draftHeader (now : Timestamp) (id : Uuid) (req : DraftRequest) : EntryRow where
  id := id
  orgId := req.orgId
  entryDate := req.entryDate
  description := req.description
  status := .draft
  reversesEntryId := none
  createdByUserId := some req.userId
  createdByRunId := none
  createdAt := now
  updatedAt := now

/-- The lines with the ids that the database draws for them. -/
def withIds (lineIds : Nat → Uuid) (lines : List JournalLine) : List (Uuid × JournalLine) :=
  lines.zipIdx.map fun (line, i) => (lineIds i, line)

/-- The transaction of `create_draft`, with the ids that the database draws. -/
def createDraft (num : NumericText) (now : Timestamp) (db : Db) (req : DraftRequest) (id : Uuid)
    (lineIds : Nat → Uuid) : Except DbError Db := do
  let t ← (Txn.begin db).exec now (.entry (.insert (draftHeader now id req)))
  let t ← t.insertLines num now req.orgId id (withIds lineIds req.lines)
  t.commit

/-- The transaction of `post`; `none` where the entry is no longer a draft. -/
def post (now : Timestamp) (db : Db) (org id : Uuid) : Except DbError (Option Db) := do
  match ← (Txn.begin db).updateStatus now id org .draft .posted with
  | none => pure none
  | some t => some <$> t.commit

/-- The header that `reverse` inserts. -/
def stornoHeader (now : Timestamp) (id org user : Uuid) (original : EntryRow) : EntryRow where
  id := id
  orgId := org
  entryDate := original.entryDate
  description := "Сторно: " ++ original.description
  status := .draft
  reversesEntryId := some original.id
  createdByUserId := some user
  createdByRunId := none
  createdAt := now
  updatedAt := now

/-- The line of the storno for a line of the original. -/
def mirrored (line : JournalLine) : JournalLine :=
  { line with side := if line.side = "debit" then "credit" else "debit" }

/-- The transaction of `reverse` on the header and the lines that it has read. -/
def reverse (num : NumericText) (now : Timestamp) (db : Db) (org user : Uuid) (original : EntryRow)
    (lines : List JournalLine) (id : Uuid) (lineIds : Nat → Uuid) : Except JournalError Db := do
  let run {α : Type} (x : Except DbError α) : Except JournalError α := x.mapError .database
  let t ← run ((Txn.begin db).exec now (.entry (.insert (stornoHeader now id org user original))))
  let t ← run (t.insertLines num now org id (withIds lineIds (lines.map mirrored)))
  match ← run (t.updateStatus now id org .draft .posted) with
  | none => .error .stornoNotPosted
  | some t =>
    match ← run (t.updateStatus now original.id org .posted .reversed) with
    | none => .error .originalNotReversed
    | some t => run t.commit

/-! ### What the transactions do -/

/-- The row after an update of its status. -/
def EntryRow.moved (now : Timestamp) (target : EntryStatus) (row : EntryRow) : EntryRow :=
  { row with status := target, updatedAt := now }

/-- The tables with `row` under its id. -/
def Db.withEntry (db : Db) (row : EntryRow) : Db :=
  { db with entries := db.entries.put row.id row }

/-- The tables with a new header and its lines. -/
def Db.addEntry (db : Db) (header : EntryRow) (rows : List LineRow) : Db :=
  { db.withEntry header with lines := db.lines ++ rows }

/-- What a line says, apart from where it stands. -/
structure Posting where
  accountCode : String
  side : Side
  amount : Amount
  counterpartyId : Option Uuid
  vatAmount : Option VatAmount
  deriving DecidableEq

def Posting.flip (p : Posting) : Posting := { p with side := p.side.flip }

@[simp] theorem Posting.flip_flip (p : Posting) : p.flip.flip = p := by simp [Posting.flip]

def LineRow.posting (l : LineRow) : Posting :=
  ⟨l.accountCode, l.side, l.amount, l.counterpartyId, l.vatAmount⟩

@[simp] theorem withIds_map_snd (lineIds : Nat → Uuid) (lines : List JournalLine) :
    (withIds lineIds lines).map Prod.snd = lines := by
  simp [withIds, Function.comp_def]

namespace Txn

/-- The row of a line stands where the statement puts it and says what the line says. -/
theorem lineRow_ok {num : NumericText} {now : Timestamp} {org entry : Uuid}
    {drawn : Uuid × JournalLine} {row : LineRow} (h : lineRow num now org entry drawn = .ok row) :
    row.orgId = org ∧ row.entryId = entry ∧ row.accountCode = drawn.2.accountCode ∧
      Side.ofText? drawn.2.side = some row.side ∧ readAmount num drawn.2.amount = .ok row.amount ∧
      row.counterpartyId = drawn.2.counterpartyId ∧
      readVatAmount num drawn.2.vatAmount = .ok row.vatAmount := by
  simp only [lineRow, bind_eq_ok, orFail_eq_ok, pure_eq_ok] at h
  obtain ⟨amount, hAmount, vat, hVat, side, hSide, rfl⟩ := h
  exact ⟨rfl, rfl, rfl, hSide, hAmount, rfl, hVat⟩

theorem readAmount_write (num : NumericText) (a : Amount) :
    readAmount num (num.write a.value) = .ok a := by
  simp [readAmount, num.read_write _ a.positive.nonNeg a.fits]

theorem readVatAmount_write (num : NumericText) (v : Option VatAmount) :
    readVatAmount num (v.map fun v => num.write v.value) = .ok v := by
  cases v with
  | none => rfl
  | some v => simp [readVatAmount, num.read_write _ v.nonNeg v.fits]

theorem mirrored_side (num : NumericText) (l : LineRow) :
    (mirrored (l.toJournalLine num)).side = l.side.flip.text := by
  obtain ⟨_, _, _, _, side, _, _, _, _⟩ := l
  cases side <;> rfl

/-- The row inserted for a line that was read from a row and mirrored says the same on the other
side. -/
theorem lineRow_mirrored {num : NumericText} {now : Timestamp} {org entry id : Uuid}
    {l row : LineRow}
    (h : lineRow num now org entry (id, mirrored (l.toJournalLine num)) = .ok row) :
    row.posting = l.posting.flip := by
  obtain ⟨-, -, hCode, hSide, hAmount, hParty, hVat⟩ := lineRow_ok h
  rw [mirrored_side, Side.ofText?_text, Option.some.injEq] at hSide
  have hAmount' := (readAmount_write num l.amount).symm.trans hAmount
  have hVat' := (readVatAmount_write num l.vatAmount).symm.trans hVat
  rw [Except.ok.injEq] at hAmount' hVat'
  simp only [mirrored, LineRow.toJournalLine] at hCode hParty
  simp [LineRow.posting, Posting.flip, hCode, ← hSide, ← hAmount', hParty, ← hVat']

/-- An insertion of a line leaves everything but the lines. -/
theorem exec_insertLine {now : Timestamp} {t t' : Txn} {row : LineRow}
    (h : t.exec now (.line (.insert row)) = .ok t') :
    (∀ parent, t.db.entries row.entryId = some parent → parent.status = .draft) ∧
      (t.db.entries row.entryId).map EntryRow.orgId = some row.orgId ∧
      t' = ⟨{ t.db with lines := t.db.lines ++ [row] }, t.queued ++ [.insert row]⟩ := by
  simp only [exec, Db.exec, Db.writeRow, beforeRow, journalLinesFrozenAfterPost, RowOp.entryId,
    JournalOp.touched, Db.write, bind_eq_ok, ensure_eq_ok, pure_eq_ok] at h
  obtain ⟨db', ⟨db'', ⟨u, hFrozen, v, hKeys, rfl⟩, w, hRefs, rfl⟩, rfl⟩ := h
  refine ⟨fun parent hParent => ?_, hRefs.1, rfl⟩
  rw [hParent] at hFrozen
  simpa using hFrozen

/-- An insertion of a header leaves everything but the entry under its id. -/
theorem exec_insertEntry {now : Timestamp} {t t' : Txn} {row : EntryRow}
    (h : t.exec now (.entry (.insert row)) = .ok t') :
    t.db.entries row.id = none ∧ row.orgId ∈ t.db.organizations ∧
      (∀ e ∈ row.reversesEntryId, ((t.db.entries.put row.id row) e).isSome) ∧
      t' = { t with db := t.db.withEntry row } := by
  simp only [exec, Db.exec, Db.writeRow, beforeRow, journalEntriesImmutability,
    JournalOp.touched, Db.write, bind_eq_ok, ensure_eq_ok, pure_eq_ok] at h
  obtain ⟨db', ⟨db'', ⟨u, -, v, hKeys, rfl⟩, w, hRefs, rfl⟩, rfl⟩ := h
  exact ⟨hKeys, hRefs.1, hRefs.2.1, rfl⟩

/-- An update of a header's status leaves everything but the status and the time of the update. -/
theorem updateStatus_some {now : Timestamp} {t t' : Txn} {id org : Uuid}
    {source target : EntryStatus} (h : t.updateStatus now id org source target = .ok (some t')) :
    ∃ row, t.db.entries id = some row ∧ row.orgId = org ∧ row.status = source ∧
      journalEntriesImmutability t.db (.update row { row with status := target }) = .ok () ∧
      t.db.entries row.id = some row ∧
      t' = { t with db := t.db.withEntry (row.moved now target) } := by
  unfold updateStatus at h
  split at h
  · cases h
  · rename_i row hRow
    split_ifs at h with hMatch
    · cases hExec : t.exec now (.entry (.update row { row with status := target })) with
      | error e => simp [hExec, Except.map] at h
      | ok t'' =>
        simp only [hExec, Except.map, Except.ok.injEq, Option.some.injEq] at h
        subst h
        simp only [exec, Db.exec, Db.writeRow, beforeRow, JournalOp.touched, touchUpdatedAt,
          Db.write, bind_eq_ok, ensure_eq_ok, pure_eq_ok] at hExec
        obtain ⟨db', ⟨db'', ⟨u, hTrigger, v, hKeys, rfl⟩, w, hRefs, rfl⟩, rfl⟩ := hExec
        refine ⟨row, hRow, hMatch.1, hMatch.2, hTrigger, hKeys.1, ?_⟩
        simp [Db.withEntry, EntryRow.moved]
    · cases h

/-- A sequence of insertions adds one row for each line. -/
theorem insertLines_ok {num : NumericText} {now : Timestamp} {org entry : Uuid} {t t' : Txn}
    {drawn : List (Uuid × JournalLine)} (h : t.insertLines num now org entry drawn = .ok t') :
    ∃ rows, List.Forall₂ (fun d row => lineRow num now org entry d = .ok row) drawn rows ∧
      t' = ⟨{ t.db with lines := t.db.lines ++ rows }, t.queued ++ rows.map .insert⟩ := by
  induction drawn generalizing t with
  | nil =>
    obtain rfl : t = t' := by simpa [insertLines] using h
    exact ⟨[], .nil, by simp⟩
  | cons d drawn ih =>
    rw [insertLines, List.foldlM_cons, bind_eq_ok] at h
    obtain ⟨mid, hHead, hTail⟩ := h
    rw [bind_eq_ok] at hHead
    obtain ⟨row, hRow, hExec⟩ := hHead
    obtain ⟨-, -, rfl⟩ := exec_insertLine hExec
    obtain ⟨rows, hRows, rfl⟩ := ih hTail
    exact ⟨row :: rows, .cons hRow hRows, by simp⟩

theorem commit_ok {t : Txn} {db : Db} (h : t.commit = .ok db) :
    db = t.db ∧ ∀ op ∈ t.queued, balanceOf (t.db.linesOf op.entryId) = 0 := by
  simp only [commit, bind_eq_ok, pure_eq_ok] at h
  obtain ⟨u, hQueue, rfl⟩ := h
  refine ⟨rfl, fun op hOp => ?_⟩
  have hBalance := forM_eq_ok.mp hQueue op hOp
  simp only [journalEntryMustBalance, bind_eq_ok, ensure_eq_ok] at hBalance
  obtain ⟨_, -, hZero⟩ := hBalance
  exact hZero

end Txn

/-- The rows inserted for a header stand under it. -/
theorem rows_entry {num : NumericText} {now : Timestamp} {org entry : Uuid}
    {drawn : List (Uuid × JournalLine)} {rows : List LineRow}
    (h : List.Forall₂ (fun d row => Txn.lineRow num now org entry d = .ok row) drawn rows) :
    ∀ row ∈ rows, row.entryId = entry ∧ row.orgId = org := by
  induction h with
  | nil => simp
  | cons hHead _ ih =>
    obtain ⟨hOrg, hEntry, -⟩ := Txn.lineRow_ok hHead
    exact List.forall_mem_cons.mpr ⟨⟨hEntry, hOrg⟩, ih⟩

@[simp] theorem withEntry_lines (db : Db) (row : EntryRow) : (db.withEntry row).lines = db.lines :=
  rfl

@[simp] theorem withEntry_organizations (db : Db) (row : EntryRow) :
    (db.withEntry row).organizations = db.organizations := rfl

@[simp] theorem withEntry_entries (db : Db) (row : EntryRow) :
    (db.withEntry row).entries = db.entries.put row.id row := rfl

/-- What the transaction of `create_draft` leaves: one more draft with its lines, in balance. -/
theorem createDraft_ok {num : NumericText} {now : Timestamp} {db db' : Db} {req : DraftRequest}
    {id : Uuid} {lineIds : Nat → Uuid} (h : createDraft num now db req id lineIds = .ok db') :
    ∃ rows, List.Forall₂ (fun d row => Txn.lineRow num now req.orgId id d = .ok row)
        (withIds lineIds req.lines) rows ∧
      db.entries id = none ∧ req.orgId ∈ db.organizations ∧
      db' = db.addEntry (draftHeader now id req) rows ∧
      (rows ≠ [] → balanceOf (db'.linesOf id) = 0) := by
  simp only [createDraft, bind_eq_ok] at h
  obtain ⟨t, hHeader, t', hLines, hCommit⟩ := h
  obtain ⟨hNew, hOrg, -, rfl⟩ := Txn.exec_insertEntry hHeader
  obtain ⟨rows, hRows, rfl⟩ := Txn.insertLines_ok hLines
  obtain ⟨rfl, hQueue⟩ := Txn.commit_ok hCommit
  refine ⟨rows, hRows, hNew, hOrg, rfl, fun hSome => ?_⟩
  obtain ⟨row, hRow⟩ := List.exists_mem_of_ne_nil rows hSome
  have hZero := hQueue (.insert row) (List.mem_append_right _ (List.mem_map_of_mem hRow))
  rwa [RowOp.entryId, (rows_entry hRows row hRow).1] at hZero

/-- What the transaction of `post` leaves where it matches a row: that row as posted. -/
theorem post_ok {now : Timestamp} {db db' : Db} {org id : Uuid}
    (h : post now db org id = .ok (some db')) :
    ∃ row, db.entries id = some row ∧ row.orgId = org ∧ row.status = .draft ∧
      journalEntriesImmutability db (.update row { row with status := .posted }) = .ok () ∧
      db.entries row.id = some row ∧ db' = db.withEntry (row.moved now .posted) := by
  simp only [post, bind_eq_ok] at h
  obtain ⟨t, hUpdate, hCommit⟩ := h
  cases t with
  | none => simp at hCommit
  | some t =>
    obtain ⟨row, hRow, hOrg, hDraft, hTrigger, hKey, rfl⟩ := Txn.updateStatus_some hUpdate
    simp only [map_eq_ok, Option.some.injEq, exists_eq_right] at hCommit
    obtain ⟨rfl, -⟩ := Txn.commit_ok hCommit
    exact ⟨row, hRow, hOrg, hDraft, hTrigger, hKey, rfl⟩

/-- What the transaction of `reverse` leaves: a posted storno that mirrors the lines it was given,
and the original as reversed. -/
theorem reverse_ok {num : NumericText} {now : Timestamp} {db db' : Db} {org user : Uuid}
    {original : EntryRow} {lines : List JournalLine} {id : Uuid} {lineIds : Nat → Uuid}
    (h : reverse num now db org user original lines id lineIds = .ok db')
    (hOriginal : org ∈ db.organizations → (db.entries original.id).isSome) :
    ∃ rows row, List.Forall₂ (fun d row => Txn.lineRow num now org id d = .ok row)
        (withIds lineIds (lines.map mirrored)) rows ∧
      db.entries id = none ∧ org ∈ db.organizations ∧ db.entries original.id = some row ∧
      row.orgId = org ∧ row.status = .posted ∧
      db' = (db.addEntry ((stornoHeader now id org user original).moved now .posted) rows).withEntry
        (row.moved now .reversed) ∧
      (rows ≠ [] → balanceOf (db'.linesOf id) = 0) := by
  simp only [reverse, bind_eq_ok, mapError_eq_ok] at h
  obtain ⟨t, hHeader, t', hLines, posted, hPost, h⟩ := h
  obtain ⟨hNew, hOrg, -, rfl⟩ := Txn.exec_insertEntry hHeader
  replace hNew : db.entries id = none := hNew
  obtain ⟨rows, hRows, rfl⟩ := Txn.insertLines_ok hLines
  cases posted with
  | none => cases h
  | some tPosted =>
    obtain ⟨storno, hStorno, -, -, -, -, rfl⟩ := Txn.updateStatus_some hPost
    obtain rfl : stornoHeader now id org user original = storno := by
      simpa [Txn.begin, stornoHeader] using hStorno
    simp only [bind_eq_ok, mapError_eq_ok] at h
    obtain ⟨reversed, hReverse, h⟩ := h
    cases reversed with
    | none => cases h
    | some tReversed =>
      obtain ⟨row, hRow, hRowOrg, hPosted, -, -, rfl⟩ := Txn.updateStatus_some hReverse
      obtain ⟨rfl, hQueue⟩ := Txn.commit_ok (mapError_eq_ok.mp h)
      have hNe : original.id ≠ id := by
        intro hEq
        have hThere := hOriginal hOrg
        rw [hEq, hNew] at hThere
        cases hThere
      have hFound : db.entries original.id = some row := by
        simpa [Txn.begin, Table.put_apply, EntryRow.moved, stornoHeader, hNe] using hRow
      refine ⟨rows, row, hRows, hNew, hOrg, hFound, hRowOrg, hPosted, ?_, fun hSome => ?_⟩
      · simp [Db.addEntry, Db.withEntry, Txn.begin, EntryRow.moved, stornoHeader]
      · obtain ⟨line, hLine⟩ := List.exists_mem_of_ne_nil rows hSome
        have hZero := hQueue (.insert line) (List.mem_append_right _ (List.mem_map_of_mem hLine))
        rw [RowOp.entryId, (rows_entry hRows line hLine).1] at hZero
        simpa [Txn.begin, Db.addEntry, Db.withEntry, Db.linesOf] using hZero

/-! ### The keys of the tables -/

/-- Entries stand under their ids in organisations that exist, and lines under an entry of their
organisation: the primary and foreign keys between the tables of the journal. -/
structure Constraints (db : Db) : Prop where
  keyed : ∀ k r, db.entries k = some r → r.id = k
  organization : ∀ k r, db.entries k = some r → r.orgId ∈ db.organizations
  parent : ∀ l ∈ db.lines, ∃ r, db.entries l.entryId = some r ∧ r.orgId = l.orgId

section addEntry

variable {db : Db} {header : EntryRow} {rows : List LineRow}

theorem Constraints.no_lines (hOk : Constraints db) {k : Uuid} (h : db.entries k = none) :
    db.linesOf k = [] := by
  refine List.filter_eq_nil_iff.mpr fun l hl hEq => ?_
  obtain ⟨r, hRow, -⟩ := hOk.parent l hl
  rw [decide_eq_true_eq] at hEq
  rw [hEq, h] at hRow
  cases hRow

theorem linesOf_addEntry_ne (hRows : ∀ row ∈ rows, row.entryId = header.id ∧ row.orgId = header.orgId)
    {k : Uuid} (hNe : k ≠ header.id) : (db.addEntry header rows).linesOf k = db.linesOf k := by
  have hNone : rows.filter (·.entryId = k) = [] := by
    refine List.filter_eq_nil_iff.mpr fun row hRow hEq => hNe ?_
    rw [decide_eq_true_eq] at hEq
    rw [← hEq, (hRows row hRow).1]
  simp [Db.addEntry, Db.linesOf, List.filter_append, hNone]

theorem Constraints.linesOf_addEntry (hOk : Constraints db) (hNew : db.entries header.id = none)
    (hRows : ∀ row ∈ rows, row.entryId = header.id ∧ row.orgId = header.orgId) :
    (db.addEntry header rows).linesOf header.id = rows := by
  have hOld : db.lines.filter (·.entryId = header.id) = [] := hOk.no_lines hNew
  have hAll : rows.filter (·.entryId = header.id) = rows :=
    List.filter_eq_self.mpr fun row hRow => by simpa using (hRows row hRow).1
  simp [Db.addEntry, Db.linesOf, List.filter_append, hOld, hAll]

theorem ne_of_new {k k' : Uuid} {r : EntryRow} (hNew : db.entries k' = none)
    (h : db.entries k = some r) : k ≠ k' := by
  rintro rfl
  rw [hNew] at h
  cases h

theorem Constraints.addEntry (hOk : Constraints db) (hNew : db.entries header.id = none)
    (hOrg : header.orgId ∈ db.organizations)
    (hRows : ∀ row ∈ rows, row.entryId = header.id ∧ row.orgId = header.orgId) :
    Constraints (db.addEntry header rows) := by
  refine ⟨?_, ?_, ?_⟩
  · intro k r hRow
    rcases Table.put_eq_some.mp hRow with ⟨rfl, rfl⟩ | ⟨-, hRow⟩
    · rfl
    · exact hOk.keyed k r hRow
  · intro k r hRow
    rcases Table.put_eq_some.mp hRow with ⟨rfl, rfl⟩ | ⟨-, hRow⟩
    · exact hOrg
    · exact hOk.organization k r hRow
  · intro l hl
    rcases List.mem_append.mp hl with hl | hl
    · obtain ⟨r, hRow, hSame⟩ := hOk.parent l hl
      exact ⟨r, Table.put_eq_some.mpr (.inr ⟨ne_of_new hNew hRow, hRow⟩), hSame⟩
    · obtain ⟨hId, hLineOrg⟩ := hRows l hl
      exact ⟨header, Table.put_eq_some.mpr (.inl ⟨hId, rfl⟩), hLineOrg.symm⟩

end addEntry

section moved

variable {db : Db} {row : EntryRow} {k₀ : Uuid} {now : Timestamp} {target : EntryStatus}

/-- The lookups after a row's status has moved. -/
theorem moved_lookup (hKey : row.id = k₀) {k : Uuid} {r : EntryRow} :
    (db.withEntry (row.moved now target)).entries k = some r ↔
      k = k₀ ∧ r = row.moved now target ∨ k ≠ k₀ ∧ db.entries k = some r := by
  rw [withEntry_entries, Table.put_eq_some, ← hKey, @eq_comm _ r]
  rfl

theorem linesOf_withEntry (k : Uuid) : (db.withEntry row).linesOf k = db.linesOf k := rfl

theorem Constraints.moved (hOk : Constraints db) (hRow : db.entries k₀ = some row) :
    Constraints (db.withEntry (row.moved now target)) := by
  have hKey := hOk.keyed k₀ row hRow
  refine ⟨?_, ?_, ?_⟩
  · intro k r hFound
    rcases (moved_lookup hKey).mp hFound with ⟨rfl, rfl⟩ | ⟨-, hFound⟩
    · exact hKey
    · exact hOk.keyed k r hFound
  · intro k r hFound
    rcases (moved_lookup hKey).mp hFound with ⟨rfl, rfl⟩ | ⟨-, hFound⟩
    · exact hOk.organization k row hRow
    · exact hOk.organization k r hFound
  · intro l hl
    obtain ⟨r, hFound, hSame⟩ := hOk.parent l hl
    by_cases hCase : l.entryId = k₀
    · rw [hCase, hRow] at hFound
      cases hFound
      exact ⟨row.moved now target, (moved_lookup hKey).mpr (.inl ⟨hCase, rfl⟩), hSame⟩
    · exact ⟨r, (moved_lookup hKey).mpr (.inr ⟨hCase, hFound⟩), hSame⟩

end moved

/-- The rows inserted for lines that were read and mirrored say what the lines said on the other
side. -/
theorem rows_mirror {num : NumericText} {now : Timestamp} {org entry : Uuid}
    {drawn : List (Uuid × JournalLine)} {rows ls : List LineRow}
    (h : List.Forall₂ (fun d row => Txn.lineRow num now org entry d = .ok row) drawn rows)
    (hDrawn : drawn.map Prod.snd = ls.map fun l => mirrored (l.toJournalLine num)) :
    rows.map LineRow.posting = ls.map fun l => l.posting.flip := by
  induction h generalizing ls with
  | nil =>
    obtain rfl : ls = [] := by simpa using hDrawn.symm
    rfl
  | @cons d row drawn rows hHead _ ih =>
    cases ls with
    | nil => simp at hDrawn
    | cons l ls =>
      simp only [List.map_cons, List.cons.injEq] at hDrawn
      obtain ⟨hLine, hRest⟩ := hDrawn
      have hRow : Txn.lineRow num now org entry (d.1, mirrored (l.toJournalLine num)) = .ok row := by
        rw [← hLine]
        exact hHead
      rw [List.map_cons, List.map_cons, Txn.lineRow_mirrored hRow, ih hRest]

/-- The storno of an entry whose lines were read from `ls`. -/
theorem reverse_mirrors {num : NumericText} {now : Timestamp} {db db' : Db} {org user : Uuid}
    {original : EntryRow} {ls : List LineRow} {id : Uuid} {lineIds : Nat → Uuid}
    (hOk : Constraints db)
    (h : reverse num now db org user original (ls.map (LineRow.toJournalLine num)) id lineIds = .ok db')
    (hOriginal : org ∈ db.organizations → (db.entries original.id).isSome) :
    ∃ rows row storno, storno = (stornoHeader now id org user original).moved now .posted ∧
      rows.map LineRow.posting = ls.map (fun l => l.posting.flip) ∧
      (∀ l ∈ rows, l.entryId = storno.id ∧ l.orgId = storno.orgId) ∧
      db.entries storno.id = none ∧ org ∈ db.organizations ∧
      db.entries original.id = some row ∧ row.orgId = org ∧ row.status = .posted ∧
      db' = (db.addEntry storno rows).withEntry (row.moved now .reversed) ∧
      (rows ≠ [] → balanceOf rows = 0) := by
  obtain ⟨rows, row, hRows, hNew, hOrg, hRow, hRowOrg, hPosted, rfl, hBalance⟩ :=
    reverse_ok h hOriginal
  have hUnder := rows_entry hRows
  refine ⟨rows, row, _, rfl, rows_mirror hRows (by simp), hUnder, hNew, hOrg, hRow, hRowOrg, hPosted,
    rfl, fun hSome => ?_⟩
  let storno := (stornoHeader now id org user original).moved now .posted
  have hSelf : (db.addEntry storno rows).linesOf storno.id = rows := hOk.linesOf_addEntry hNew hUnder
  have hStored := hBalance hSome
  rw [linesOf_withEntry] at hStored
  exact hSelf ▸ hStored

end CyberAccountant.Ledger
