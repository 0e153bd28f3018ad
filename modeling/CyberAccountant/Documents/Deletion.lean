import CyberAccountant.Documents.Rows
import CyberAccountant.Ledger.JournalRuns
import CyberAccountant.Library.RowLocks

/-! Transactions that delete documents, link them to entries, and post and reverse entries, any number of
them at once.  Each runs statement by statement at READ COMMITTED: a statement sees what has committed
before it, and the rows that it locks stay locked until its transaction ends. -/

namespace CyberAccountant.Documents

open CyberAccountant.Library CyberAccountant.Ledger

/-- How far a transaction has come. -/
inductive EntryTxn where
  /-- `link_entry` has inserted its row; the checks of the two foreign keys that it has made. -/
  | linking (link : Link) (document entry : Bool)
  /-- `remove` has locked the row of the document. -/
  | removing (org document : Uuid)
  /-- `remove` reads the statuses of the linked entries: those that it has yet to lock, and those that
  it has locked with what it has read. -/
  | checking (org document : Uuid) (pending : List Uuid) (locked : List (Uuid × EntryStatus))
  /-- `post` or `reverse` has made its last update. -/
  | posting (client : Nat) (org entry : Uuid)
  | reversing (client : Nat) (org user : Uuid) (original : EntryRow) (lines : List JournalLine)

/-- What the transactions lock: rows of `documents` and `journal_entries`, and values of the unique key of
`document_entries`. -/
inductive EntryKey where
  | document (id : Uuid)
  | entry (id : Uuid)
  | link (document entry : Uuid)

/-- The locks of a transaction. -/
inductive EntryTxn.Locks : EntryTxn → EntryKey → LockMode → Prop where
  | inserted (link : Link) (document entry : Bool) :
      Locks (.linking link document entry) (.link link.documentId link.entryId) .update
  | parentDocument (link : Link) (entry : Bool) :
      Locks (.linking link true entry) (.document link.documentId) .keyShare
  | parentEntry (link : Link) (document : Bool) :
      Locks (.linking link document true) (.entry link.entryId) .keyShare
  | removing (org document : Uuid) : Locks (.removing org document) (.document document) .update
  | checking (org document : Uuid) (pending : List Uuid) (locked : List (Uuid × EntryStatus)) :
      Locks (.checking org document pending locked) (.document document) .update
  | shared (org document : Uuid) (pending : List Uuid) (locked : List (Uuid × EntryStatus)) (entry : Uuid)
      (status : EntryStatus) (hLocked : (entry, status) ∈ locked) :
      Locks (.checking org document pending locked) (.entry entry) .share
  | posting (client : Nat) (org entry : Uuid) : Locks (.posting client org entry) (.entry entry) .noKeyUpdate
  | reversing (client : Nat) (org user : Uuid) (original : EntryRow) (lines : List JournalLine) :
      Locks (.reversing client org user original lines) (.entry original.id) .noKeyUpdate

/-- The journal with its clients, the documents and their links, and the transactions under way. -/
structure DeletionWorld where
  journal : World
  documents : Table Uuid DocumentRow
  links : List Link
  txns : Table Nat EntryTxn

namespace DeletionWorld

/-- The transaction `n` is as far as `t` says. -/
def setTxn (w : DeletionWorld) (n : Nat) (t : EntryTxn) : DeletionWorld := { w with txns := w.txns.put n t }

def endTxn (w : DeletionWorld) (n : Nat) : DeletionWorld := { w with txns := w.txns.drop n }

/-- No transaction has the row in a mode that conflicts with `m`. -/
def Free (w : DeletionWorld) (key : EntryKey) (m : LockMode) : Prop :=
  ∀ n t m', w.txns n = some t → t.Locks key m' → m.conflicts m' = false

/-- The rows of the first statement of `linked_posted_entry_exists_locked`, which it has yet to lock. -/
def linkedEntries (w : DeletionWorld) (org document : Uuid) : List Uuid :=
  (w.links.filter fun l => l.documentId = document ∧ l.orgId = org ∧
    (w.journal.db.entries l.entryId).isSome).map Link.entryId

/-- `DELETE FROM documents` with its cascade, and the end of the transaction. -/
def deleteDocument (w : DeletionWorld) (n : Nat) (document : Uuid) : DeletionWorld :=
  { w.endTxn n with
    documents := w.documents.drop document
    links := w.links.filter (·.documentId ≠ document) }

/-- `DELETE FROM organizations` with its cascades. -/
def withoutOrganization (w : DeletionWorld) (org : Uuid) : DeletionWorld :=
  { w with
    journal := { w.journal with db := w.journal.db.withoutOrganization org }
    documents := fun id => (w.documents id).filter (·.orgId ≠ org)
    links := w.links.filter (·.orgId ≠ org) }

/-- The system before its first organisation. -/
def initial : DeletionWorld where
  journal := World.initial
  documents := Table.empty
  links := []
  txns := Table.empty

end DeletionWorld

/-- One step of the system. -/
inductive DeletionStep (num : NumericText) : DeletionWorld → DeletionWorld → Prop where
  | insertLink (w : DeletionWorld) (n : Nat) (l : Link) (hIdle : w.txns n = none)
      (hLock : Granted EntryTxn.Locks w.txns n (.link l.documentId l.entryId) .update)
      (hUnique : ∀ l' ∈ w.links, ¬(l'.documentId = l.documentId ∧ l'.entryId = l.entryId)) :
      DeletionStep num w (w.setTxn n (.linking l false false))
  | checkDocument (w : DeletionWorld) (n : Nat) (l : Link) (entry : Bool) (row : DocumentRow)
      (hTxn : w.txns n = some (.linking l false entry))
      (hLock : Granted EntryTxn.Locks w.txns n (.document l.documentId) .keyShare)
      (hRow : w.documents l.documentId = some row) (hOrg : row.orgId = l.orgId) :
      DeletionStep num w (w.setTxn n (.linking l true entry))
  | checkEntry (w : DeletionWorld) (n : Nat) (l : Link) (document : Bool) (row : EntryRow)
      (hTxn : w.txns n = some (.linking l document false))
      (hLock : Granted EntryTxn.Locks w.txns n (.entry l.entryId) .keyShare)
      (hRow : w.journal.db.entries l.entryId = some row) (hOrg : row.orgId = l.orgId) :
      DeletionStep num w (w.setTxn n (.linking l document true))
  | commitLink (w : DeletionWorld) (n : Nat) (l : Link) (hTxn : w.txns n = some (.linking l true true)) :
      DeletionStep num w { w.endTxn n with links := l :: w.links }
  | lockDocument (w : DeletionWorld) (n : Nat) (org document : Uuid) (row : DocumentRow)
      (hIdle : w.txns n = none) (hLock : Granted EntryTxn.Locks w.txns n (.document document) .update)
      (hRow : w.documents document = some row) (hOrg : row.orgId = org) (hLive : row.voided = none) :
      DeletionStep num w (w.setTxn n (.removing org document))
  | readLinks (w : DeletionWorld) (n : Nat) (org document : Uuid)
      (hTxn : w.txns n = some (.removing org document)) :
      DeletionStep num w (w.setTxn n (.checking org document (w.linkedEntries org document) []))
  | lockEntry (w : DeletionWorld) (n : Nat) (org document entry : Uuid) (pending : List Uuid)
      (locked : List (Uuid × EntryStatus)) (row : EntryRow)
      (hTxn : w.txns n = some (.checking org document pending locked)) (hNext : entry ∈ pending)
      (hLock : Granted EntryTxn.Locks w.txns n (.entry entry) .share)
      (hRow : w.journal.db.entries entry = some row) :
      DeletionStep num w
        (w.setTxn n (.checking org document (pending.erase entry) ((entry, row.status) :: locked)))
  | deleteDocument (w : DeletionWorld) (n : Nat) (org document : Uuid) (locked : List (Uuid × EntryStatus))
      (hTxn : w.txns n = some (.checking org document [] locked))
      (hNone : ∀ x ∈ locked, ¬(x.2 = .posted ∨ x.2 = .reversed)) :
      DeletionStep num w (w.deleteDocument n document)
  | updatePost (w : DeletionWorld) (n client : Nat) (org entry : Uuid) (row : EntryRow)
      (hIdle : w.txns n = none) (hRead : w.journal.clients client = some (.post org entry))
      (hLock : Granted EntryTxn.Locks w.txns n (.entry entry) .noKeyUpdate)
      (hRow : findInOrg w.journal.db entry org = some row) (hDraft : row.status = .draft) :
      DeletionStep num w (w.setTxn n (.posting client org entry))
  | commitPost (w : DeletionWorld) (n client : Nat) (org entry : Uuid) (now : Timestamp) (db : Db)
      (hTxn : w.txns n = some (.posting client org entry))
      (hRead : w.journal.clients client = some (.post org entry))
      (hWrite : post now w.journal.db org entry = .ok (some db)) :
      DeletionStep num w { w.endTxn n with journal := w.journal.finish client db }
  | updateReverse (w : DeletionWorld) (n client : Nat) (org user : Uuid) (original row : EntryRow)
      (lines : List JournalLine) (hIdle : w.txns n = none)
      (hRead : w.journal.clients client = some (.reverse org user original lines))
      (hLock : Granted EntryTxn.Locks w.txns n (.entry original.id) .noKeyUpdate)
      (hRow : findInOrg w.journal.db original.id org = some row) (hPosted : row.status = .posted) :
      DeletionStep num w (w.setTxn n (.reversing client org user original lines))
  | commitReverse (w : DeletionWorld) (n client : Nat) (org user : Uuid) (original : EntryRow)
      (lines : List JournalLine) (now : Timestamp) (id : Uuid) (lineIds : Nat → Uuid) (db : Db)
      (hTxn : w.txns n = some (.reversing client org user original lines))
      (hRead : w.journal.clients client = some (.reverse org user original lines))
      (hWrite : reverse num now w.journal.db org user original lines id lineIds = .ok db) :
      DeletionStep num w { w.endTxn n with journal := w.journal.finish client db }
  /-- A transaction ends with an error, with a rollback or in a crash. -/
  | abandon (w : DeletionWorld) (n : Nat) : DeletionStep num w (w.endTxn n)
  | createDocument (w : DeletionWorld) (id : Uuid) (row : DocumentRow) (hNew : w.documents id = none)
      (hOrg : row.orgId ∈ w.journal.db.organizations) :
      DeletionStep num w { w with documents := w.documents.put id row }
  /-- `void_document` and the other updates. -/
  | updateDocument (w : DeletionWorld) (id : Uuid) (row row' : DocumentRow)
      (hLock : w.Free (.document id) .noKeyUpdate) (hRow : w.documents id = some row)
      (hOrg : row'.orgId = row.orgId) : DeletionStep num w { w with documents := w.documents.put id row' }
  /-- The steps of the journal that change no entry that is there: reads, drafts, other tables. -/
  | journal (w : DeletionWorld) (journal : World) (hStep : Step num w.journal journal)
      (hEntries : ∀ k row, w.journal.db.entries k = some row → journal.db.entries k = some row)
      (hOrganizations : ∀ org ∈ w.journal.db.organizations, org ∈ journal.db.organizations) :
      DeletionStep num w { w with journal }
  | deleteUser (w : DeletionWorld) (user : Uuid) (hLocks : ∀ k row, w.journal.db.entries k = some row →
        row.createdByUserId = some user → w.Free (.entry k) .noKeyUpdate) :
      DeletionStep num w { w with journal := { w.journal with db := w.journal.db.withoutUser user } }
  | deleteOrganization (w : DeletionWorld) (org : Uuid)
      (hEntries : ∀ k row, w.journal.db.entries k = some row → row.orgId = org → w.Free (.entry k) .update)
      (hDocuments : ∀ id row, w.documents id = some row → row.orgId = org → w.Free (.document id) .update) :
      DeletionStep num w (w.withoutOrganization org)

namespace DeletionWorld

def HasDocument (w : DeletionWorld) (id org : Uuid) : Prop := ∃ row, w.documents id = some row ∧ row.orgId = org

def HasEntry (w : DeletionWorld) (id org : Uuid) : Prop :=
  ∃ row, w.journal.db.entries id = some row ∧ row.orgId = org

/-- The link is there, of an organisation that there has been, and its entry is posted or reversed. -/
structure Backs (w : DeletionWorld) (l : Link) : Prop where
  linked : l ∈ w.links
  known : l.orgId ∈ w.journal.known
  entry : ∃ row, w.journal.db.entries l.entryId = some row ∧ row.orgId = l.orgId ∧ row.status ≠ .draft

end DeletionWorld

/-- What a transaction knows of the rows that it has locked. -/
def EntryTxn.Ok (w : DeletionWorld) : EntryTxn → Prop
  | .linking l document entry =>
    (document = true → w.HasDocument l.documentId l.orgId) ∧ (entry = true → w.HasEntry l.entryId l.orgId)
  | .removing org document => w.HasDocument document org
  | .checking org document pending locked => w.HasDocument document org ∧
    (∀ l ∈ w.links, l.documentId = document → l.entryId ∈ pending ∨ ∃ status, (l.entryId, status) ∈ locked) ∧
    ∀ entry status, (entry, status) ∈ locked → ∃ row, w.journal.db.entries entry = some row ∧ row.status = status
  | .posting _ _ _ | .reversing _ _ _ _ _ => True

/-- The foreign keys of the links hold, and each transaction knows its rows. -/
structure DeletionOk (num : NumericText) (w : DeletionWorld) : Prop where
  journal : WorldOk num w.journal
  locks : LocksOk EntryTxn.Locks w.txns
  parents : ∀ l ∈ w.links, w.HasDocument l.documentId l.orgId ∧ w.HasEntry l.entryId l.orgId
  txns : ∀ n t, w.txns n = some t → t.Ok w

/-- A link to a posted or reversed entry stays as long as its organisation. -/
structure BackingKeeps (w w' : DeletionWorld) : Prop where
  journal : Keeps w.journal w'.journal
  backs : ∀ l, w.Backs l → l.orgId ∈ w'.journal.db.organizations → l ∈ w'.links

theorem DeletionWorld.Backs.keeps {w w' : DeletionWorld} {l : Link} (h : w.Backs l)
    (hKeeps : BackingKeeps w w') (hOrg : l.orgId ∈ w'.journal.db.organizations) : w'.Backs l := by
  obtain ⟨row, hRow, hRowOrg, hStatus⟩ := h.entry
  obtain ⟨row', hRow', hRowOrg', hRank, -⟩ := hKeeps.journal.entry l.entryId row hRow
    (by rw [hRowOrg]; exact h.known) (by rw [hRowOrg]; exact hOrg)
  exact ⟨hKeeps.backs l h hOrg, hKeeps.journal.known _ h.known, row', hRow', hRowOrg'.trans hRowOrg,
    EntryStatus.rank_ne_draft hRank hStatus⟩

theorem BackingKeeps.refl (w : DeletionWorld) : BackingKeeps w w where
  journal := .refl w.journal
  backs _ h _ := h.linked

theorem BackingKeeps.trans {a b c : DeletionWorld} (hAB : BackingKeeps a b) (hBC : BackingKeeps b c) :
    BackingKeeps a c where
  journal := hAB.journal.trans hBC.journal
  backs l h hOrg := by
    have hMid : l.orgId ∈ b.journal.db.organizations :=
      hBC.journal.gone l.orgId (hAB.journal.known _ h.known) hOrg
    exact hBC.backs l (h.keeps hAB hMid) hOrg

/-! ### What a transaction has locked stays as it is -/

/-- A transaction goes on knowing its rows while those that it has locked stay. -/
theorem EntryTxn.Ok.frame {w w' : DeletionWorld} {t : EntryTxn} (h : t.Ok w)
    (hDocuments : ∀ id m org, t.Locks (.document id) m → w.HasDocument id org → w'.HasDocument id org)
    (hEntries : ∀ k m row, t.Locks (.entry k) m → w.journal.db.entries k = some row →
      ∃ row', w'.journal.db.entries k = some row' ∧ row'.orgId = row.orgId ∧ (m = .share → row'.status = row.status))
    (hLinks : ∀ id, t.Locks (.document id) .update → ∀ l ∈ w'.links, l.documentId = id → l ∈ w.links) :
    t.Ok w' := by
  cases t with
  | linking l document entry =>
    refine ⟨fun hChecked => ?_, fun hChecked => ?_⟩
    · subst hChecked
      exact hDocuments _ _ _ (.parentDocument l entry) (h.1 rfl)
    · subst hChecked
      obtain ⟨row, hRow, hOrg⟩ := h.2 rfl
      obtain ⟨row', hRow', hOrg', -⟩ := hEntries _ _ row (.parentEntry l document) hRow
      exact ⟨row', hRow', hOrg'.trans hOrg⟩
  | removing org document => exact hDocuments _ _ _ (.removing org document) h
  | checking org document pending locked =>
    obtain ⟨hDocument, hFound, hRead⟩ := h
    refine ⟨hDocuments _ _ _ (.checking org document pending locked) hDocument, fun l hl hHis => ?_,
      fun entry status hLocked => ?_⟩
    · exact hFound l (hLinks document (.checking org document pending locked) l hl hHis) hHis
    · obtain ⟨row, hRow, hStatus⟩ := hRead entry status hLocked
      obtain ⟨row', hRow', -, hSame⟩ :=
        hEntries entry _ row (.shared org document pending locked entry status hLocked) hRow
      exact ⟨row', hRow', (hSame rfl).trans hStatus⟩
  | posting | reversing => trivial

section

variable {num : NumericText} {w w' : DeletionWorld} {n : Nat} {t : EntryTxn}

/-- No other transaction has a row in a mode that conflicts with the lock of one that is under way. -/
theorem DeletionOk.unlocked (hOk : DeletionOk num w) (hTxn : w.txns n = some t) {key : EntryKey} {m : LockMode}
    (hLock : t.Locks key m) {n' : Nat} {t' : EntryTxn} (hOther : w.txns n' = some t') (hNe : n' ≠ n) {m' : LockMode}
    (hLock' : t'.Locks key m') : m.conflicts m' = false :=
  hOk.locks n t n' t' key m m' hTxn hOther hNe.symm hLock hLock'

theorem BackingKeeps.of_links (hJournal : w'.journal = w.journal) (hLinks : ∀ l ∈ w.links, l ∈ w'.links) :
    BackingKeeps w w' where
  journal := by
    rw [hJournal]
    exact .refl w.journal
  backs l h _ := hLinks l h.linked

/-- A transaction takes a step that writes to no table. -/
theorem DeletionOk.setTxn (hOk : DeletionOk num w) (hNow : t.Ok w) (hLocks : ∀ key m, t.Locks key m →
      (∃ before, w.txns n = some before ∧ before.Locks key m) ∨ Granted EntryTxn.Locks w.txns n key m) :
    DeletionOk num (w.setTxn n t) ∧ BackingKeeps w (w.setTxn n t) := by
  refine ⟨⟨hOk.journal, hOk.locks.put hLocks, hOk.parents, fun n' t' h => ?_⟩, .of_links rfl fun _ h => h⟩
  have hSame : ∀ t : EntryTxn, t.Ok w → t.Ok (w.setTxn n t') := fun t hBefore =>
    hBefore.frame (fun _ _ _ _ hThere => hThere) (fun _ _ row _ hRow => ⟨row, hRow, rfl, fun _ => rfl⟩)
      fun _ _ _ hl _ => hl
  rcases Table.put_eq_some.mp h with ⟨rfl, rfl⟩ | ⟨-, hThere⟩
  · exact hSame _ hNow
  · exact hSame t' (hOk.txns n' t' hThere)

theorem DeletionOk.endTxn (hOk : DeletionOk num w) :
    DeletionOk num (w.endTxn n) ∧ BackingKeeps w (w.endTxn n) := by
  refine ⟨⟨hOk.journal, hOk.locks.drop, hOk.parents, fun n' t' h => ?_⟩, .of_links rfl fun _ h => h⟩
  exact (hOk.txns n' t' (Table.drop_eq_some.mp h).2).frame (fun _ _ _ _ hThere => hThere)
    (fun _ _ row _ hRow => ⟨row, hRow, rfl, fun _ => rfl⟩) fun _ _ _ hl _ => hl

/-- A row of `documents` is written under an id that had none or one of the same organisation. -/
theorem DeletionOk.putDocument (hOk : DeletionOk num w) {id : Uuid} {row : DocumentRow}
    (hOrg : ∀ found, w.documents id = some found → row.orgId = found.orgId) :
    DeletionOk num { w with documents := w.documents.put id row } ∧
      BackingKeeps w { w with documents := w.documents.put id row } := by
  have hKept : ∀ id' org, w.HasDocument id' org →
      DeletionWorld.HasDocument { w with documents := w.documents.put id row } id' org := by
    rintro id' org ⟨found, hFound, hFoundOrg⟩
    by_cases hMine : id' = id
    · subst hMine
      exact ⟨row, Table.put_same _ _ _, (hOrg found hFound).trans hFoundOrg⟩
    · exact ⟨found, (Table.put_ne hMine).trans hFound, hFoundOrg⟩
  refine ⟨⟨hOk.journal, hOk.locks, fun l hl => ?_, fun n t hTxn => ?_⟩, .of_links rfl fun _ h => h⟩
  · exact ⟨hKept _ _ (hOk.parents l hl).1, (hOk.parents l hl).2⟩
  · exact (hOk.txns n t hTxn).frame (fun id' _ org _ => hKept id' org)
      (fun _ _ row _ hRow => ⟨row, hRow, rfl, fun _ => rfl⟩) fun _ _ _ hl _ => hl

/-- `link_entry` commits its row after both checks. -/
theorem DeletionOk.commitLink (hOk : DeletionOk num w) {l : Link} (hTxn : w.txns n = some (.linking l true true)) :
    DeletionOk num { w.endTxn n with links := l :: w.links } ∧
      BackingKeeps w { w.endTxn n with links := l :: w.links } := by
  obtain ⟨hDocument, hEntry⟩ : EntryTxn.Ok w (.linking l true true) := hOk.txns n _ hTxn
  refine ⟨⟨hOk.journal, hOk.locks.drop, fun l' hl => ?_, fun n' t' h => ?_⟩,
    .of_links rfl fun _ h => List.mem_cons_of_mem _ h⟩
  · rcases List.mem_cons.mp hl with rfl | hl
    · exact ⟨hDocument rfl, hEntry rfl⟩
    · exact hOk.parents l' hl
  · obtain ⟨hNe, hThere⟩ := Table.drop_eq_some.mp h
    refine (hOk.txns n' t' hThere).frame (fun _ _ _ _ hDoc => hDoc)
      (fun _ _ row _ hRow => ⟨row, hRow, rfl, fun _ => rfl⟩) fun id hLock l' hl hHis => ?_
    rcases List.mem_cons.mp hl with rfl | hl
    · -- The check of the foreign key has locked the document that the other has locked for deletion.
      subst hHis
      have hConflict := hOk.unlocked hTxn (.parentDocument l' true) hThere hNe hLock
      cases hConflict
    · exact hl

/-- What `remove` has yet to lock after its first read are all entries that its document is linked to. -/
theorem DeletionOk.linked_mem (hOk : DeletionOk num w) {org document : Uuid} (hDocument : w.HasDocument document org)
    {l : Link} (hl : l ∈ w.links) (hHis : l.documentId = document) : l.entryId ∈ w.linkedEntries org document := by
  obtain ⟨⟨row, hRow, hOrg⟩, entry, hEntry, -⟩ := hOk.parents l hl
  obtain ⟨row', hRow', hOrg'⟩ := hDocument
  rw [hHis, hRow'] at hRow
  cases hRow
  have hSome : (w.journal.db.entries l.entryId).isSome := by
    rw [hEntry]
    rfl
  apply List.mem_map_of_mem
  exact List.mem_filter.mpr ⟨hl, decide_eq_true ⟨hHis, hOrg.symm.trans hOrg', hSome⟩⟩

/-- `remove` locks one more of the linked entries and reads its status. -/
theorem DeletionOk.lockEntry (hOk : DeletionOk num w) {org document entry : Uuid} {pending : List Uuid}
    {locked : List (Uuid × EntryStatus)} {row : EntryRow}
    (hTxn : w.txns n = some (.checking org document pending locked))
    (hLock : Granted EntryTxn.Locks w.txns n (.entry entry) .share)
    (hRow : w.journal.db.entries entry = some row) :
    DeletionOk num (w.setTxn n (.checking org document (pending.erase entry) ((entry, row.status) :: locked))) ∧
      BackingKeeps w
        (w.setTxn n (.checking org document (pending.erase entry) ((entry, row.status) :: locked))) := by
  obtain ⟨hDocument, hFound, hRead⟩ : EntryTxn.Ok w (.checking org document pending locked) := hOk.txns n _ hTxn
  refine hOk.setTxn ⟨hDocument, fun l hl hHis => ?_, fun e status h => ?_⟩ fun key m hNow => ?_
  · by_cases hMine : l.entryId = entry
    · rw [hMine]
      exact .inr ⟨row.status, List.mem_cons_self⟩
    · rcases hFound l hl hHis with hPending | ⟨status, hLocked⟩
      · exact .inl ((List.mem_erase_of_ne hMine).mpr hPending)
      · exact .inr ⟨status, List.mem_cons_of_mem _ hLocked⟩
  · rcases List.mem_cons.mp h with hMine | h
    · cases hMine
      exact ⟨row, hRow, rfl⟩
    · exact hRead e status h
  · cases hNow with
    | checking => exact .inl ⟨_, hTxn, .checking org document pending locked⟩
    | shared _ _ _ _ e status hLocked =>
      rcases List.mem_cons.mp hLocked with hMine | hLocked
      · cases hMine
        exact .inr hLock
      · exact .inl ⟨_, hTxn, .shared org document pending locked e status hLocked⟩

/-- `remove` deletes the document after it has found all of its entries to be drafts. -/
theorem DeletionOk.deleteDocument (hOk : DeletionOk num w) {org document : Uuid} {locked : List (Uuid × EntryStatus)}
    (hTxn : w.txns n = some (.checking org document [] locked))
    (hNone : ∀ x ∈ locked, ¬(x.2 = .posted ∨ x.2 = .reversed)) :
    DeletionOk num (w.deleteDocument n document) ∧ BackingKeeps w (w.deleteDocument n document) := by
  obtain ⟨hDocument, hFound, hRead⟩ : EntryTxn.Ok w (.checking org document [] locked) := hOk.txns n _ hTxn
  have hOthers : ∀ id, id ≠ document → ∀ org', w.HasDocument id org' →
      (w.deleteDocument n document).HasDocument id org' := by
    rintro id hNe org' ⟨row, hRow, hOrg⟩
    exact ⟨row, (Table.drop_ne hNe).trans hRow, hOrg⟩
  refine ⟨⟨hOk.journal, hOk.locks.drop, fun l hl => ?_, fun n' t' h => ?_⟩, ⟨.refl w.journal, fun l h _ => ?_⟩⟩
  · obtain ⟨hl, hNe⟩ := List.mem_filter.mp hl
    obtain ⟨hParent, hEntry⟩ := hOk.parents l hl
    exact ⟨hOthers l.documentId (of_decide_eq_true hNe) _ hParent, hEntry⟩
  · obtain ⟨hNe, hThere⟩ := Table.drop_eq_some.mp h
    refine (hOk.txns n' t' hThere).frame (fun id m org' hLock hDoc => ?_)
      (fun _ _ row _ hRow => ⟨row, hRow, rfl, fun _ => rfl⟩) fun _ _ l hl _ => (List.mem_filter.mp hl).1
    refine hOthers id ?_ org' hDoc
    rintro rfl
    have hConflict := hOk.unlocked hTxn (.checking org id [] locked) hThere hNe hLock
    cases m <;> cases hConflict
  · -- The link stays, since `remove` has read the status of every entry of its document.
    apply List.mem_filter.mpr
    refine ⟨h.linked, decide_eq_true fun hHis => ?_⟩
    obtain ⟨row, hRow, -, hStatus⟩ := h.entry
    rcases hFound l h.linked hHis with hPending | ⟨status, hLocked⟩
    · cases hPending
    · obtain ⟨row', hRow', rfl⟩ := hRead _ status hLocked
      rw [hRow] at hRow'
      cases hRow'
      apply hNone _ hLocked
      cases hCase : row.status with
      | draft => exact absurd hCase hStatus
      | posted => exact .inl rfl
      | reversed => exact .inr rfl

/-- An organisation is deleted with all of its rows, none of which anybody has locked. -/
theorem DeletionOk.withoutOrganization (hOk : DeletionOk num w) {org : Uuid}
    (hEntries : ∀ k row, w.journal.db.entries k = some row → row.orgId = org → w.Free (.entry k) .update)
    (hDocuments : ∀ id row, w.documents id = some row → row.orgId = org → w.Free (.document id) .update) :
    DeletionOk num (w.withoutOrganization org) ∧ BackingKeeps w (w.withoutOrganization org) := by
  have hJournal : WorldOk num (w.withoutOrganization org).journal ∧ Keeps w.journal (w.withoutOrganization org).journal :=
    hOk.journal.step (.deleteOrganization w.journal org)
  have hDocument : ∀ id org', org' ≠ org → w.HasDocument id org' → (w.withoutOrganization org).HasDocument id org' := by
    rintro id org' hNe ⟨row, hRow, rfl⟩
    exact ⟨row, Option.filter_eq_some_iff.mpr ⟨hRow, decide_eq_true hNe⟩, rfl⟩
  have hEntry : ∀ k row, row.orgId ≠ org → w.journal.db.entries k = some row →
      (w.withoutOrganization org).journal.db.entries k = some row := fun k row hNe hRow =>
    withoutOrganization_lookup.mpr ⟨hRow, hNe⟩
  have hUnlocked : ∀ m, LockMode.update.conflicts m ≠ false := fun m => by cases m <;> decide
  refine ⟨⟨hJournal.1, hOk.locks, fun l hl => ?_, fun n t hTxn => ?_⟩, ⟨hJournal.2, fun l h hThere => ?_⟩⟩
  · obtain ⟨hl, hKept⟩ := List.mem_filter.mp hl
    have hNe : l.orgId ≠ org := of_decide_eq_true hKept
    obtain ⟨hParent, row, hRow, hOrg⟩ := hOk.parents l hl
    exact ⟨hDocument _ _ hNe hParent, row, hEntry _ row (by rw [hOrg]; exact hNe) hRow, hOrg⟩
  · refine (hOk.txns n t hTxn).frame (fun id m org' hLock hThere => hDocument id org' ?_ hThere)
      (fun k m row hLock hRow => ⟨row, hEntry k row ?_ hRow, rfl, fun _ => rfl⟩)
      fun _ _ l hl _ => (List.mem_filter.mp hl).1
    · rintro rfl
      obtain ⟨row, hRow, hOrg⟩ := hThere
      exact hUnlocked m (hDocuments id row hRow hOrg n t m hTxn hLock)
    · intro hOrg
      exact hUnlocked m (hEntries k row hRow hOrg n t m hTxn hLock)
  · have hStays : l.orgId ≠ org := of_decide_eq_true (List.mem_filter.mp hThere).2
    exact List.mem_filter.mpr ⟨h.linked, decide_eq_true hStays⟩

/-- A step of the journal, and a transaction that ends with it: entries stay, and those that a
transaction goes on reading stay as they are. -/
theorem DeletionOk.setJournal (hOk : DeletionOk num w) {journal : World} {txns : Table Nat EntryTxn}
    (hJournal : WorldOk num journal ∧ Keeps w.journal journal) (hLocks : LocksOk EntryTxn.Locks txns)
    (hRows : ∀ k row, w.journal.db.entries k = some row →
      ∃ row', journal.db.entries k = some row' ∧ row'.orgId = row.orgId ∧
        ((∃ n t, txns n = some t ∧ t.Locks (.entry k) .share) → row'.status = row.status))
    (hTxns : ∀ n t, txns n = some t → w.txns n = some t) :
    DeletionOk num { w with journal, txns } ∧ BackingKeeps w { w with journal, txns } := by
  refine ⟨⟨hJournal.1, hLocks, fun l hl => ?_, fun n t hTxn => ?_⟩, ⟨hJournal.2, fun l h _ => h.linked⟩⟩
  · obtain ⟨hDocument, row, hRow, hOrg⟩ := hOk.parents l hl
    obtain ⟨row', hRow', hOrg', -⟩ := hRows l.entryId row hRow
    exact ⟨hDocument, row', hRow', hOrg'.trans hOrg⟩
  · refine (hOk.txns n t (hTxns n t hTxn)).frame (fun _ _ _ _ hThere => hThere) (fun k m row hLock hRow => ?_)
      fun _ _ _ hl _ => hl
    obtain ⟨row', hRow', hOrg, hStatus⟩ := hRows k row hRow
    refine ⟨row', hRow', hOrg, fun hShare => hStatus ⟨n, t, hTxn, ?_⟩⟩
    rw [← hShare]
    exact hLock

/-- A transaction commits an update of the one entry that it has locked. -/
theorem DeletionOk.commitEntry (hOk : DeletionOk num w) (hTxn : w.txns n = some t) {entry : Uuid}
    (hLock : t.Locks (.entry entry) .noKeyUpdate) {journal : World}
    (hJournal : WorldOk num journal ∧ Keeps w.journal journal)
    (hRows : ∀ k row, w.journal.db.entries k = some row →
      ∃ row', journal.db.entries k = some row' ∧ row'.orgId = row.orgId ∧ (k ≠ entry → row' = row)) :
    DeletionOk num { w.endTxn n with journal } ∧ BackingKeeps w { w.endTxn n with journal } := by
  refine hOk.setJournal hJournal hOk.locks.drop (fun k row hRow => ?_) fun n' t' h => (Table.drop_eq_some.mp h).2
  obtain ⟨row', hRow', hOrg, hSame⟩ := hRows k row hRow
  refine ⟨row', hRow', hOrg, ?_⟩
  rintro ⟨n', t', hOther, hShare⟩
  obtain ⟨hNe, hThere⟩ := Table.drop_eq_some.mp hOther
  have hOther : k ≠ entry := by
    rintro rfl
    -- A row that another transaction reads under a share lock is not one that this one may update.
    have hConflict := hOk.unlocked hTxn hLock hThere hNe hShare
    cases hConflict
  rw [hSame hOther]

theorem post_rows {db db' : Db} {now : Timestamp} {org entry : Uuid}
    (hKeyed : ∀ k row, db.entries k = some row → row.id = k) (hWrite : post now db org entry = .ok (some db'))
    (k : Uuid) (row : EntryRow) (hRow : db.entries k = some row) :
    ∃ row', db'.entries k = some row' ∧ row'.orgId = row.orgId ∧ (k ≠ entry → row' = row) := by
  obtain ⟨posted, hPosted, -, -, -, -, rfl⟩ := post_ok hWrite
  have hKey := hKeyed entry posted hPosted
  by_cases hCase : k = entry
  · subst hCase
    rw [hPosted] at hRow
    cases hRow
    exact ⟨_, (moved_lookup hKey).mpr (.inl ⟨rfl, rfl⟩), rfl, fun hNe => absurd rfl hNe⟩
  · exact ⟨row, (moved_lookup hKey).mpr (.inr ⟨hCase, hRow⟩), rfl, fun _ => rfl⟩

theorem reverse_rows {db db' : Db} {now : Timestamp} {org user : Uuid} {original : EntryRow}
    {lines : List JournalLine} {id : Uuid} {lineIds : Nat → Uuid}
    (hKeyed : ∀ k row, db.entries k = some row → row.id = k)
    (hThere : org ∈ db.organizations → (db.entries original.id).isSome)
    (hWrite : reverse num now db org user original lines id lineIds = .ok db')
    (k : Uuid) (row : EntryRow) (hRow : db.entries k = some row) :
    ∃ row', db'.entries k = some row' ∧ row'.orgId = row.orgId ∧ (k ≠ original.id → row' = row) := by
  obtain ⟨rows, found, -, hNew, -, hFound, -, -, rfl, -⟩ := reverse_ok hWrite hThere
  have hKey := hKeyed original.id found hFound
  by_cases hCase : k = original.id
  · subst hCase
    rw [hFound] at hRow
    cases hRow
    exact ⟨_, (reversed_lookup hKey).mpr (.inl ⟨rfl, rfl⟩), rfl,
      fun hNe => absurd rfl hNe⟩
  · refine ⟨row, (reversed_lookup hKey).mpr (.inr ⟨hCase, .inr ⟨?_, hRow⟩⟩), rfl, fun _ => rfl⟩
    rintro rfl
    exact absurd (hNew.symm.trans hRow) (by simp)

/-- A storno is written while the organisation of its original is there, and the original with it. -/
theorem DeletionOk.commitReverse (hOk : DeletionOk num w) {client : Nat} {org user : Uuid} {original : EntryRow}
    {lines : List JournalLine} {now : Timestamp} {id : Uuid} {lineIds : Nat → Uuid} {db : Db}
    (hTxn : w.txns n = some (.reversing client org user original lines))
    (hRead : w.journal.clients client = some (.reverse org user original lines))
    (hWrite : reverse num now w.journal.db org user original lines id lineIds = .ok db) :
    DeletionOk num { w.endTxn n with journal := w.journal.finish client db } ∧
      BackingKeeps w { w.endTxn n with journal := w.journal.finish client db } := by
  obtain ⟨⟨-, hFrozen⟩, -⟩ : PendingOk num w.journal (.reverse org user original lines) :=
    hOk.journal.pending client _ hRead
  have hThere : org ∈ w.journal.db.organizations → (w.journal.db.entries original.id).isSome := by
    intro hOrg
    obtain ⟨row, hRow, -⟩ := hFrozen hOrg
    rw [hRow]
    rfl
  exact hOk.commitEntry hTxn (.reversing client org user original lines)
    (hOk.journal.step (.writeReverse _ client org user original lines now id lineIds db hRead hWrite))
    (reverse_rows hOk.journal.lines.keyed hThere hWrite)

end

/-- One step keeps the invariant, and the links to posted and reversed entries. -/
theorem DeletionOk.step {num : NumericText} {w w' : DeletionWorld} (hOk : DeletionOk num w)
    (hStep : DeletionStep num w w') : DeletionOk num w' ∧ BackingKeeps w w' := by
  cases hStep with
  | insertLink n l hIdle hLock hUnique =>
    refine hOk.setTxn ⟨fun h => (by cases h), fun h => (by cases h)⟩ fun key m hNow => .inr ?_
    cases hNow
    exact hLock
  | checkDocument n l entry row hTxn hLock hRow hOrg =>
    have hBefore : EntryTxn.Ok w (.linking l false entry) := hOk.txns n _ hTxn
    refine hOk.setTxn ⟨fun _ => ⟨row, hRow, hOrg⟩, hBefore.2⟩ fun key m hNow => ?_
    cases hNow with
    | inserted => exact .inl ⟨_, hTxn, .inserted l false entry⟩
    | parentDocument => exact .inr hLock
    | parentEntry => exact .inl ⟨_, hTxn, .parentEntry l false⟩
  | checkEntry n l document row hTxn hLock hRow hOrg =>
    have hBefore : EntryTxn.Ok w (.linking l document false) := hOk.txns n _ hTxn
    refine hOk.setTxn ⟨hBefore.1, fun _ => ⟨row, hRow, hOrg⟩⟩ fun key m hNow => ?_
    cases hNow with
    | inserted => exact .inl ⟨_, hTxn, .inserted l document false⟩
    | parentDocument => exact .inl ⟨_, hTxn, .parentDocument l false⟩
    | parentEntry => exact .inr hLock
  | commitLink n l hTxn => exact hOk.commitLink hTxn
  | lockDocument n org document row hIdle hLock hRow hOrg hLive =>
    refine hOk.setTxn ⟨row, hRow, hOrg⟩ fun key m hNow => .inr ?_
    cases hNow
    exact hLock
  | readLinks n org document hTxn =>
    have hDocument : w.HasDocument document org := hOk.txns n _ hTxn
    refine hOk.setTxn ⟨hDocument, fun l hl hHis => .inl (hOk.linked_mem hDocument hl hHis), fun _ _ h => by cases h⟩
      fun key m hNow => .inl ?_
    cases hNow with
    | checking => exact ⟨_, hTxn, .removing org document⟩
    | shared _ _ _ _ _ _ hNone => cases hNone
  | lockEntry n org document entry pending locked row hTxn hNext hLock hRow => exact hOk.lockEntry hTxn hLock hRow
  | deleteDocument n org document locked hTxn hNone => exact hOk.deleteDocument hTxn hNone
  | updatePost n client org entry row hIdle hRead hLock hRow hDraft =>
    refine hOk.setTxn trivial fun key m hNow => .inr ?_
    cases hNow
    exact hLock
  | commitPost n client org entry now db hTxn hRead hWrite =>
    exact hOk.commitEntry hTxn (.posting client org entry)
      (hOk.journal.step (.writePost _ client org entry now db hRead hWrite))
      (post_rows hOk.journal.lines.keyed hWrite)
  | updateReverse n client org user original row lines hIdle hRead hLock hRow hPosted =>
    refine hOk.setTxn trivial fun key m hNow => .inr ?_
    cases hNow
    exact hLock
  | commitReverse n client org user original lines now id lineIds db hTxn hRead hWrite =>
    exact hOk.commitReverse hTxn hRead hWrite
  | abandon n => exact hOk.endTxn
  | createDocument id row hNew hOrg =>
    apply hOk.putDocument
    intro found hFound
    rw [hNew] at hFound
    cases hFound
  | updateDocument id row row' hLock hRow hOrg =>
    apply hOk.putDocument
    intro found hFound
    rw [hRow] at hFound
    cases hFound
    exact hOrg
  | journal journal hStep hEntries hOrganizations =>
    exact hOk.setJournal (hOk.journal.step hStep) hOk.locks
      (fun k row hRow => ⟨row, hEntries k row hRow, rfl, fun _ => rfl⟩) fun _ _ h => h
  | deleteUser user hLocks =>
    exact hOk.setJournal (hOk.journal.step (.deleteUser w.journal user)) hOk.locks
      (fun k row hRow => ⟨row.clearAuthor user, withoutUser_lookup.mpr ⟨row, hRow, rfl⟩,
        clearAuthor_orgId user row, fun _ => clearAuthor_status user row⟩) fun _ _ h => h
  | deleteOrganization org hEntries hDocuments => exact hOk.withoutOrganization hEntries hDocuments

theorem DeletionOk.initial (num : NumericText) : DeletionOk num .initial where
  journal := .initial num
  locks := .empty
  parents l hl := by cases hl
  txns n t hTxn := by cases hTxn

/-- A document that is linked to an entry while that is posted or reversed is there in every later state,
unless its organisation has been deleted. -/
theorem backing_document_kept {num : NumericText} {w : DeletionWorld} (hRun : Run (DeletionStep num) .initial w)
    {l : Link} (hLink : l ∈ w.links) {row : EntryRow} (hRow : w.journal.db.entries l.entryId = some row)
    (hPosted : row.status = .posted ∨ row.status = .reversed) {w' : DeletionWorld}
    (hLater : Run (DeletionStep num) w w') :
    w'.HasDocument l.documentId l.orgId ∨ l.orgId ∉ w'.journal.db.organizations := by
  have keeps : ∀ a b, DeletionOk num a → DeletionStep num a b → DeletionOk num b := fun _ _ h hStep =>
    (h.step hStep).1
  have hOk : DeletionOk num w := hRun.invariant keeps (.initial num)
  have hKeeps : BackingKeeps w w' := Run.relates BackingKeeps.refl (fun _ _ _ => BackingKeeps.trans) keeps
    (fun _ _ h hStep => (h.step hStep).2) hLater hOk
  by_cases hThere : l.orgId ∈ w'.journal.db.organizations
  · obtain ⟨-, found, hFound, hOrg⟩ := hOk.parents l hLink
    rw [hRow] at hFound
    cases hFound
    have hKnown : l.orgId ∈ w.journal.known := by
      rw [← hOrg]
      exact hOk.journal.known _ (hOk.journal.lines.organization _ row hRow)
    have hBacks : w.Backs l := ⟨hLink, hKnown, row, hRow, hOrg, by rcases hPosted with h | h <;> rw [h] <;> decide⟩
    have hStays : l ∈ w'.links := hKeeps.backs l hBacks hThere
    have hOk' : DeletionOk num w' := hLater.invariant keeps hOk
    exact .inl (hOk'.parents l hStays).1
  · exact .inr hThere

/-- The invoice of the sale. -/
def saleInvoice : DocumentRow := ⟨1, .uploaded, .final, none, none, none⟩

def saleLink : Link := ⟨1, 30, 10⟩

/-- The invoice is linked to the draft of the sale, and the sale is posted. -/
theorem backing_document_kept_sale : ∃ w row, Run (DeletionStep .plain) .initial w ∧ saleLink ∈ w.links ∧
    w.journal.db.entries 10 = some row ∧ (row.status = .posted ∨ row.status = .reversed) ∧
      ∀ w', Run (DeletionStep .plain) w w' → w'.HasDocument 30 1 ∨ 1 ∉ w'.journal.db.organizations := by
  have hStatus := salePosted_status
  cases hSale : salePosted with
  | error e => simp [hSale, Except.toOption] at hStatus
  | ok result =>
    cases result with
    | none => simp [hSale, Except.toOption] at hStatus
    | some db =>
      simp only [hSale, Except.toOption, Option.join_some, Option.map_some, Option.some.injEq] at hStatus
      obtain ⟨drafted, hDraft, hPost⟩ := bind_eq_ok.mp hSale
      obtain ⟨row, hRow, hOrg, hIsDraft, -⟩ := post_ok hPost
      obtain ⟨posted, hPosted, hPostedStatus⟩ := Option.map_eq_some_iff.mp hStatus
      have hFind : findInOrg drafted 10 1 = some row := by simp [findInOrg, hRow, hOrg]
      have hChecks : checkDraft saleStart saleRequest = .ok () := by decide +kernel
      have hAlone : ∀ (txns : Table Nat EntryTxn) key m, (∀ n, n ≠ 0 → txns n = none) →
          Granted EntryTxn.Locks txns 0 key m := fun _ _ _ h => .of_alone h
      have hOrganization : Run (DeletionStep .plain) .initial _ := .single
        (.journal .initial _ (.createOrganization World.initial 1 (by decide)) (fun _ _ h => h)
          fun _ h => List.mem_cons_of_mem _ h)
      have hStart := hOrganization.tail
        (.journal _ ⟨saleStart, [1], Table.empty⟩ (.otherTables _ [7] systemChart []) (fun _ _ h => h) fun _ h => h)
      have hDocument := hStart.tail (.createDocument _ 30 saleInvoice rfl (by decide))
      have hAsked := hDocument.tail
        (.journal _ _ (.readDraft _ 0 saleRequest rfl hChecks) (fun _ _ h => h) fun _ h => h)
      have hDrafted := hAsked.tail (.journal _ _ (.writeDraft _ 0 saleRequest 100 10 (· + 20) drafted rfl hDraft)
        (fun k row h => by cases h) fun org h => by
          obtain ⟨rows, -, -, -, rfl, -⟩ := createDraft_ok hDraft
          exact h)
      have hInserted := hDrafted.tail (.insertLink _ 0 saleLink rfl (hAlone _ _ _ fun _ _ => rfl) fun _ h => by cases h)
      have hChecked := hInserted.tail (.checkDocument _ 0 saleLink false saleInvoice rfl
        (hAlone _ _ _ fun n hn => by simp [DeletionWorld.setTxn, Table.put_apply, hn, DeletionWorld.initial]) rfl rfl)
      have hBoth := hChecked.tail (.checkEntry _ 0 saleLink true row rfl
        (hAlone _ _ _ fun n hn => by simp [DeletionWorld.setTxn, Table.put_apply, hn, DeletionWorld.initial]) hRow hOrg)
      have hLinked := hBoth.tail (.commitLink _ 0 saleLink rfl)
      have hPosting := hLinked.tail
        (.journal _ _ (.readPost _ 0 1 10 row rfl hFind hIsDraft) (fun _ _ h => h) fun _ h => h)
      have hUpdated := hPosting.tail (.updatePost _ 0 0 1 10 row rfl rfl
        (hAlone _ _ _ fun n hn => by
          simp [DeletionWorld.setTxn, DeletionWorld.endTxn, Table.put_apply, Table.drop_apply, hn,
            DeletionWorld.initial]) hFind hIsDraft)
      have hCommitted := hUpdated.tail (.commitPost _ 0 0 1 10 200 db rfl rfl hPost)
      exact ⟨_, posted, hCommitted, List.mem_cons_self, hPosted, .inl hPostedStatus,
        fun w' => backing_document_kept hCommitted List.mem_cons_self hPosted (.inl hPostedStatus)⟩

end CyberAccountant.Documents
