import CyberAccountant.Ledger.JournalService

/-! The tables of the journal without the service: any number of sessions whose transactions change
rows at will, as far as constraints and triggers let them.  A transaction sees the committed rows
under its own versions of the rows that it has written, and holds the locks of these rows until it
ends. -/

namespace CyberAccountant.Ledger

open CyberAccountant.Library

/-- The ids of the lines that a change writes. -/
def RowOp.lineIds : RowOp LineRow → List Uuid
  | .insert new => [new.id]
  | .update old new => [old.id, new.id]
  | .delete old => [old.id]

/-- The row that a change leaves. -/
def RowOp.left : RowOp LineRow → Option LineRow
  | .insert new => some new
  | .update _ new => some new
  | .delete _ => none

/-- The keys of the headers that a change writes. -/
def JournalOp.entryKeys : JournalOp → List Uuid
  | .entry (.insert new) => [new.id]
  | .entry (.update old new) => [old.id, new.id]
  | .entry (.delete old) => [old.id]
  | .line _ => []

def JournalOp.lineIds : JournalOp → List Uuid
  | .entry _ => []
  | .line op => op.lineIds

/-- An open transaction: its versions of the headers and lines that it has written, the changes of
lines that the deferred trigger will look at, and whether a statement of it is under way. -/
structure Session where
  entries : Table Uuid (Option EntryRow)
  lines : List LineRow
  changes : List (RowOp LineRow)
  inStatement : Bool

namespace Session

def fresh : Session := ⟨Table.empty, [], [], false⟩

def lineIds (s : Session) : List Uuid := s.changes.flatMap RowOp.lineIds

/-- The entries whose lines the transaction has changed. -/
def lineEntries (s : Session) : List Uuid := s.changes.map RowOp.entryId

/-- The tables as the transaction sees them. -/
def view (s : Session) (db : Db) : Db :=
  { db with
    entries := Table.overlay s.entries db.entries
    lines := db.lines.filter (·.id ∉ s.lineIds) ++ s.lines }

def write (s : Session) : JournalOp → Session
  | .entry (.insert new) => { s with entries := s.entries.put new.id (some new) }
  | .entry (.update old new) =>
    { s with entries := (s.entries.put old.id none).put new.id (some new) }
  | .entry (.delete old) => { s with entries := s.entries.put old.id none }
  | .line op =>
    { s with
      lines := s.lines.filter (·.id ∉ op.lineIds) ++ op.left.toList
      changes := s.changes ++ [op] }

/-- The transaction has written none of the rows that the change writes. -/
def LeavesFree (s : Session) (op : JournalOp) : Prop :=
  (∀ k ∈ op.entryKeys, s.entries k = none) ∧ ∀ i ∈ op.lineIds, i ∉ s.lineIds

end Session

/-- The organisation of a new header exists.  No statement on the journal brings an organisation, so
the foreign key may be looked at before the end of the statement. -/
def OrganizationExists (db : Db) : JournalOp → Prop
  | .entry (.insert new) | .entry (.update _ new) => new.orgId ∈ db.organizations
  | _ => True

instance (db : Db) : (op : JournalOp) → Decidable (OrganizationExists db op)
  | .entry (.insert _) | .entry (.update _ _) => inferInstanceAs (Decidable (_ ∈ _))
  | .entry (.delete _) | .line _ => .isTrue trivial

/-- One row of a statement of a transaction. -/
def Session.writeRow (now : Timestamp) (db : Db) (s : Session) (op : JournalOp) :
    Except DbError Session := do
  beforeRow (s.view db) op
  ensure (KeysOk (s.view db) op) .uniqueViolation
  ensure (OrganizationExists db op) .foreignKeyViolation
  pure (s.write (op.touched now))

/-- The committed tables and the open transactions. -/
structure Sessions where
  db : Db
  opened : Table Nat Session

namespace Sessions

def withSession (w : Sessions) (n : Nat) (s : Session) : Sessions :=
  { w with opened := w.opened.put n s }

def withoutSession (w : Sessions) (n : Nat) (db : Db) : Sessions :=
  ⟨db, w.opened.drop n⟩

/-- An empty journal. -/
def Initial (w : Sessions) : Prop :=
  w.db.entries = Table.empty ∧ w.db.lines = [] ∧ w.opened = Table.empty

end Sessions

/-- What a session does. -/
inductive SessionAct where
  | begin
  | startStatement
  | row (now : Timestamp) (op : JournalOp)
  | endStatement
  | commit
  | abort

/-- What a session can do next.  Between any two rows of a statement the other sessions may take
their turn.  A row that another open transaction has written is locked; the share locks that foreign
keys take on top of this are left out, which leaves more runs. -/
inductive SessionStep (w : Sessions) (n : Nat) : SessionAct → Sessions → Prop where
  | begin (hIdle : w.opened n = none) : SessionStep w n .begin (w.withSession n .fresh)
  | startStatement (s : Session) (hOpen : w.opened n = some s) :
      SessionStep w n .startStatement (w.withSession n { s with inStatement := true })
  | row (s s' : Session) (now : Timestamp) (op : JournalOp) (hOpen : w.opened n = some s)
      (hStatement : s.inStatement = true)
      (hLocks : ∀ n' other, n' ≠ n → w.opened n' = some other → other.LeavesFree op)
      (hRow : s.writeRow now w.db op = .ok s') :
      SessionStep w n (.row now op) (w.withSession n s')
  /-- The keys hold when a statement ends.  The references of a header to its author and to the entry
  that it reverses, and of a line to a counterparty, are left out, which leaves more runs. -/
  | endStatement (s : Session) (hOpen : w.opened n = some s) (hOk : Constraints (s.view w.db)) :
      SessionStep w n .endStatement (w.withSession n { s with inStatement := false })
  | commit (s : Session) (hOpen : w.opened n = some s) (hStatement : s.inStatement = false)
      (hBalance : s.changes.forM (journalEntryMustBalance (s.view w.db)) = .ok ()) :
      SessionStep w n .commit (w.withoutSession n (s.view w.db))
  | abort (s : Session) (hOpen : w.opened n = some s) :
      SessionStep w n .abort (w.withoutSession n w.db)

/-- The entry is posted or reversed. -/
def LeftDraft (db : Db) (k : Uuid) : Prop := ∃ r, db.entries k = some r ∧ r.status ≠ .draft

/-- The row takes none of the ways around the triggers: a header that comes as posted or reversed, a
posted header that gets another id, a line that moves to an entry that the trigger does not see. -/
def RowGuarded (db : Db) : JournalOp → Prop
  | .entry (.insert new) => new.status = .draft
  | .entry (.update old new) => old.status ≠ .draft → new.id = old.id
  | .line (.update _ new) => (db.entries new.entryId).isSome
  | _ => True

/-- No line that the transaction has changed is of an entry that another transaction, committed or
not, has posted. -/
def CommitGuarded (w : Sessions) (n : Nat) (s : Session) : Prop :=
  ∀ k ∈ s.lineEntries, ¬LeftDraft w.db k ∧
    ∀ n' other, n' ≠ n → w.opened n' = some other → ¬LeftDraft (other.view w.db) k

/-- The condition on a session's next act. -/
def Guarded (w : Sessions) (n : Nat) : SessionAct → Prop
  | .row _ op => ∀ s, w.opened n = some s → RowGuarded (s.view w.db) op
  | .commit => ∀ s, w.opened n = some s → CommitGuarded w n s
  | _ => True

/-- One step of any session, or a change of the tables that the journal only refers to. -/
inductive SessionsStep (Allowed : Sessions → Nat → SessionAct → Prop) : Sessions → Sessions → Prop where
  | act (w w' : Sessions) (n : Nat) (a : SessionAct) (hAllowed : Allowed w n a)
      (hStep : SessionStep w n a w') : SessionsStep Allowed w w'
  | otherTables (w : Sessions) (users : List Uuid) (accounts : Chart)
      (counterparties : List Counterparty) :
      SessionsStep Allowed w { w with db := { w.db with users, accounts, counterparties } }

/-- Any act. -/
def AnyAct (_ : Sessions) (_ : Nat) (_ : SessionAct) : Prop := True

/-! ### What a transaction sees -/

namespace Session

variable {s : Session} {db : Db}

theorem view_entries (s : Session) (db : Db) :
    (s.view db).entries = Table.overlay s.entries db.entries := rfl

theorem mem_view_lines {l : LineRow} :
    l ∈ (s.view db).lines ↔ l ∈ db.lines ∧ l.id ∉ s.lineIds ∨ l ∈ s.lines := by
  simp [view]

@[simp] theorem lineIds_write_line (s : Session) (op : RowOp LineRow) :
    (s.write (.line op)).lineIds = s.lineIds ++ op.lineIds := by
  simp [write, lineIds]

@[simp] theorem lineEntries_write_line (s : Session) (op : RowOp LineRow) :
    (s.write (.line op)).lineEntries = s.lineEntries ++ [op.entryId] := by
  simp [write, lineEntries]

theorem write_entry_lines (s : Session) (op : RowOp EntryRow) :
    (s.write (.entry op)).lines = s.lines ∧ (s.write (.entry op)).changes = s.changes := by
  cases op <;> exact ⟨rfl, rfl⟩

/-- A change of a header changes the view as it would change the tables. -/
theorem view_write_entry (s : Session) (db : Db) (op : RowOp EntryRow) :
    (s.write (.entry op)).view db = (s.view db).write (.entry op) := by
  cases op with
  | insert new => simp [view, write, Db.write, Table.overlay_put_some, lineIds]
  | update old new =>
    simp [view, write, Db.write, Table.overlay_put_some, Table.overlay_put_none, lineIds]
  | delete old => simp [view, write, Db.write, Table.overlay_put_none, lineIds]

theorem mem_view_write_line {op : RowOp LineRow} {l : LineRow} :
    l ∈ ((s.write (.line op)).view db).lines ↔
      l ∈ (s.view db).lines ∧ l.id ∉ op.lineIds ∨ op.left = some l := by
  rw [mem_view_lines, mem_view_lines, lineIds_write_line]
  simp only [write, List.mem_append, List.mem_filter, decide_eq_true_eq, Option.mem_toList, not_or]
  tauto

end Session

theorem mem_linesOf {db : Db} {k : Uuid} {l : LineRow} :
    l ∈ db.linesOf k ↔ l ∈ db.lines ∧ l.entryId = k := by
  simp [Db.linesOf]

theorem linesOf_view_eq (s : Session) (db : Db) (k : Uuid) :
    (s.view db).linesOf k =
      (db.linesOf k).filter (·.id ∉ s.lineIds) ++ s.lines.filter (·.entryId = k) := by
  rw [Db.linesOf, Db.linesOf, Session.view, List.filter_append, List.filter_comm]

theorem leftDraft_congr {db db' : Db} {k : Uuid} (h : db.entries k = db'.entries k) :
    LeftDraft db k ↔ LeftDraft db' k := by
  rw [LeftDraft, LeftDraft, h]

/-! ### The invariant -/

/-- What holds of an open transaction. -/
structure SessionOk (db : Db) (s : Session) : Prop where
  organization : ∀ k r, (s.view db).entries k = some r → r.orgId ∈ db.organizations
  keyed : ∀ k r, s.entries k = some (some r) → r.id = k
  nodup : (s.lines.map LineRow.id).Nodup
  lineIds : ∀ l ∈ s.lines, l.id ∈ s.lineIds
  lineEntries : ∀ l ∈ s.lines, l.entryId ∈ s.lineEntries
  /-- A committed line that the transaction has written is of an entry that the deferred trigger will
  look at. -/
  replaced : ∀ l ∈ db.lines, l.id ∈ s.lineIds → l.entryId ∈ s.lineEntries
  /-- The transaction does not take an entry back to draft. -/
  stays : ∀ k, LeftDraft db k → LeftDraft (s.view db) k
  /-- An entry that the transaction sees as posted has lines, unless the transaction changed them
  before another one posted it. -/
  lined : ∀ k, LeftDraft (s.view db) k →
    LeftDraft db k ∧ k ∈ s.lineEntries ∨ (s.view db).linesOf k ≠ []

/-- No two transactions have written one row. -/
structure Apart (s s' : Session) : Prop where
  entries : ∀ k, s.entries k = none ∨ s'.entries k = none
  lines : ∀ i ∈ s.lineIds, i ∉ s'.lineIds

theorem Apart.symm {s s' : Session} (h : Apart s s') : Apart s' s :=
  ⟨fun k => (h.entries k).symm, fun i hi hi' => h.lines i hi' hi⟩

structure SessionsOk (w : Sessions) : Prop where
  organization : ∀ k r, w.db.entries k = some r → r.orgId ∈ w.db.organizations
  keyed : ∀ k r, w.db.entries k = some r → r.id = k
  nodup : (w.db.lines.map LineRow.id).Nodup
  balance : ∀ k, balanceOf (w.db.linesOf k) = 0
  lined : ∀ k, LeftDraft w.db k → w.db.linesOf k ≠ []
  session : ∀ n s, w.opened n = some s → SessionOk w.db s
  apart : ∀ n n' s s', n ≠ n' → w.opened n = some s → w.opened n' = some s' → Apart s s'

/-- The transaction sees the committed lines of an entry whose lines it has not changed. -/
theorem linesOf_view {db : Db} {s : Session} (hOwn : ∀ l ∈ s.lines, l.entryId ∈ s.lineEntries)
    (hReplaced : ∀ l ∈ db.lines, l.id ∈ s.lineIds → l.entryId ∈ s.lineEntries) {k : Uuid}
    (h : k ∉ s.lineEntries) : (s.view db).linesOf k = db.linesOf k := by
  have hNone : s.lines.filter (·.entryId = k) = [] := by
    refine List.filter_eq_nil_iff.mpr fun l hl hEq => ?_
    rw [decide_eq_true_eq] at hEq
    exact h (hEq ▸ hOwn l hl)
  rw [linesOf_view_eq, hNone, List.append_nil, List.filter_eq_self]
  intro l hl
  obtain ⟨hMem, hEntry⟩ := mem_linesOf.mp hl
  rw [decide_eq_true_eq]
  exact fun hId => h (hEntry ▸ hReplaced l hMem hId)

section view

variable {db : Db} {s : Session} (hOk : SessionOk db s)
include hOk

theorem SessionOk.linesOf_view {k : Uuid} (h : k ∉ s.lineEntries) :
    (s.view db).linesOf k = db.linesOf k :=
  Ledger.linesOf_view hOk.lineEntries hOk.replaced h

theorem SessionOk.view_nodup (hDb : (db.lines.map LineRow.id).Nodup) :
    ((s.view db).lines.map LineRow.id).Nodup := by
  rw [Session.view, List.map_append]
  refine List.Nodup.append ?_ hOk.nodup ?_
  · exact hDb.sublist (List.filter_sublist.map _)
  · intro i hi hOwn
    obtain ⟨l, hl, rfl⟩ := List.mem_map.mp hi
    obtain ⟨l', hl', hEq⟩ := List.mem_map.mp hOwn
    have hNot : l.id ∉ s.lineIds := by simpa using (List.mem_filter.mp hl).2
    exact hNot (hEq ▸ hOk.lineIds l' hl')

end view

/-! ### One row of a statement -/

/-- An update that the trigger accepts keeps a posted entry from draft, and posts no entry without
lines. -/
theorem immutability_update {v : Db} {old new : EntryRow}
    (h : journalEntriesImmutability v (.update old new) = .ok ())
    (hOrg : old.orgId ∈ v.organizations) :
    (old.status ≠ .draft → new.status ≠ .draft) ∧
      (old.status = .draft → new.status ≠ .draft → v.linesOf new.id ≠ []) := by
  rw [journalEntriesImmutability, if_neg (not_not.mpr hOrg)] at h
  by_cases hCleared : AuthorCleared v old new
  · have hStatus : new.withoutUpdatedAt.status = old.status := by rw [hCleared.2.2]; rfl
    rw [show new.status = old.status from hStatus]
    exact ⟨id, fun hDraft hNot => absurd hDraft hNot⟩
  · rw [if_neg hCleared] at h
    cases hOld : old.status with
    | posted =>
      rw [hOld] at h
      by_cases hStorno : StornoUpdate old new
      · refine ⟨fun _ => ?_, fun hDraft => by cases hDraft⟩
        rw [hStorno.1]
        decide
      · rw [if_neg hStorno] at h
        cases h
    | reversed =>
      rw [hOld] at h
      cases h
    | draft =>
      rw [hOld] at h
      refine ⟨fun hNot => absurd rfl hNot, fun _ hNew hEmpty => ?_⟩
      cases hStatus : new.status with
      | draft => exact hNew hStatus
      | posted => simp [hStatus, hEmpty] at h
      | reversed => simp [hStatus] at h

section entryRow

variable {v : Db} {now : Timestamp} {op : RowOp EntryRow}
  (hOrgs : ∀ k r, v.entries k = some r → r.orgId ∈ v.organizations)
  (hTrigger : journalEntriesImmutability v op = .ok ()) (hKeys : KeysOk v (.entry op))
  (hGuard : RowGuarded v (.entry op))
include hOrgs hTrigger hKeys hGuard

/-- A row of a statement on headers takes no entry back to draft. -/
theorem leftDraft_stays {k : Uuid} (hLeft : LeftDraft v k) :
    LeftDraft (v.write (JournalOp.touched now (.entry op))) k := by
  obtain ⟨r, hRow, hStatus⟩ := hLeft
  cases op with
  | insert new =>
    refine ⟨r, ?_, hStatus⟩
    have hFree : v.entries new.id = none := hKeys
    have hNe : k ≠ new.id := fun hEq => by rw [hEq, hFree] at hRow; cases hRow
    exact (Table.put_ne hNe).trans hRow
  | update old new =>
    obtain ⟨hOld, hNew⟩ := hKeys
    by_cases hK : k = old.id
    · rw [hK, hOld] at hRow
      cases hRow
      refine ⟨touchUpdatedAt now new, ?_, ?_⟩
      · rw [hK, ← hGuard hStatus]
        exact Table.put_same _ _ _
      · exact (immutability_update hTrigger (hOrgs _ _ hOld)).1 hStatus
    · have hNe : k ≠ new.id := by
        rintro rfl
        rcases hNew with hSame | hFree
        · exact hK hSame
        · rw [hFree] at hRow
          cases hRow
      exact ⟨r, (Table.put_ne hNe).trans ((Table.drop_ne hK).trans hRow), hStatus⟩
  | delete old =>
    have hOld : v.entries old.id = some old := hKeys
    have hK : k ≠ old.id := by
      rintro rfl
      rw [hOld] at hRow
      cases hRow
      simp [journalEntriesImmutability, hOrgs _ _ hOld, hStatus] at hTrigger
    exact ⟨r, (Table.drop_ne hK).trans hRow, hStatus⟩

/-- An entry that a row of a statement posts has lines. -/
theorem leftDraft_new {k : Uuid} (hLeft : LeftDraft (v.write (JournalOp.touched now (.entry op))) k) :
    LeftDraft v k ∨ v.linesOf k ≠ [] := by
  obtain ⟨r, hRow, hStatus⟩ := hLeft
  cases op with
  | insert new =>
    rcases Table.put_eq_some.mp hRow with ⟨-, rfl⟩ | ⟨-, hRow⟩
    · exact absurd hGuard hStatus
    · exact .inl ⟨r, hRow, hStatus⟩
  | update old new =>
    obtain ⟨hOld, -⟩ := hKeys
    rcases Table.put_eq_some.mp hRow with ⟨rfl, rfl⟩ | ⟨-, hRow⟩
    · by_cases hDraft : old.status = .draft
      · exact .inr ((immutability_update hTrigger (hOrgs _ _ hOld)).2 hDraft hStatus)
      · refine .inl ⟨old, ?_, hDraft⟩
        rw [show (touchUpdatedAt now new).id = old.id from hGuard hDraft]
        exact hOld
    · exact .inl ⟨r, (Table.drop_eq_some.mp hRow).2, hStatus⟩
  | delete old => exact .inl ⟨r, (Table.drop_eq_some.mp hRow).2, hStatus⟩

end entryRow

/-- A line is known by its id. -/
theorem line_eq_of_id {ls : List LineRow} (h : (ls.map LineRow.id).Nodup) {a b : LineRow}
    (hA : a ∈ ls) (hB : b ∈ ls) (hId : a.id = b.id) : a = b :=
  List.inj_on_of_nodup_map h hA hB hId

section lineRow

variable {v : Db} {op : RowOp LineRow}

/-- The trigger lets no change of a line through that is of a posted entry. -/
theorem frozen_draft (hTrigger : journalLinesFrozenAfterPost v op = .ok ()) :
    ¬LeftDraft v op.entryId := by
  rintro ⟨parent, hParent, hStatus⟩
  rw [journalLinesFrozenAfterPost, hParent] at hTrigger
  cases op <;> simp_all

/-- The lines that a change writes are of the entry that the deferred trigger will look at. -/
theorem written_entry (hTrigger : journalLinesFrozenAfterPost v op = .ok ())
    (hKeys : KeysOk v (.line op)) (hGuard : RowGuarded v (.line op))
    (hNodup : (v.lines.map LineRow.id).Nodup) {l : LineRow} (hMem : l ∈ v.lines)
    (hId : l.id ∈ op.lineIds) : l.entryId = op.entryId := by
  cases op with
  | insert new =>
    have hEq : l.id = new.id := by simpa [RowOp.lineIds] using hId
    exact absurd (hEq ▸ List.mem_map_of_mem hMem) hKeys
  | update old new =>
    obtain ⟨hOld, hNew⟩ := hKeys
    have hIsOld : l.id = old.id := by
      have hCases : l.id = old.id ∨ l.id = new.id := by simpa [RowOp.lineIds] using hId
      rcases hCases with hEq | hEq
      · exact hEq
      · rcases hNew with hSame | hFree
        · exact hEq.trans hSame
        · exact absurd (hEq ▸ List.mem_map_of_mem hMem) hFree
    obtain ⟨parent, hParent⟩ := Option.isSome_iff_exists.mp hGuard
    rw [line_eq_of_id hNodup hMem hOld hIsOld]
    simp only [journalLinesFrozenAfterPost, RowOp.entryId, hParent, bind_eq_ok, ensure_eq_ok] at hTrigger
    obtain ⟨-, -, hSame, -⟩ := hTrigger
    exact hSame.symm
  | delete old =>
    have hEq : l.id = old.id := by simpa [RowOp.lineIds] using hId
    rw [line_eq_of_id hNodup hMem hKeys hEq]
    rfl

theorem left_id {l : LineRow} (h : op.left = some l) : l.id ∈ op.lineIds ∧ l.entryId = op.entryId := by
  cases op with
  | insert new => cases h; simp [RowOp.lineIds, RowOp.entryId]
  | update old new => cases h; simp [RowOp.lineIds, RowOp.entryId]
  | delete old => cases h

end lineRow

section writeRow

variable {now : Timestamp} {db : Db} {s : Session} (hOk : SessionOk db s)
include hOk

/-- A header that a row of a statement writes. -/
theorem SessionOk.entries_written (now : Timestamp) {op : RowOp EntryRow} (hOrg : OrganizationExists db (.entry op)) :
    (∀ k r, ((s.view db).write (JournalOp.touched now (.entry op))).entries k = some r →
      r.orgId ∈ db.organizations) ∧
    ∀ k r, (s.write (JournalOp.touched now (.entry op))).entries k = some (some r) → r.id = k := by
  cases op with
  | insert new =>
    refine ⟨fun k r hRow => ?_, fun k r hRow => ?_⟩
    · rcases Table.put_eq_some.mp hRow with ⟨-, rfl⟩ | ⟨-, hRow⟩
      · exact hOrg
      · exact hOk.organization k r hRow
    · rcases Table.put_eq_some.mp hRow with ⟨rfl, hEq⟩ | ⟨-, hRow⟩
      · cases hEq
        rfl
      · exact hOk.keyed k r hRow
  | update old new =>
    refine ⟨fun k r hRow => ?_, fun k r hRow => ?_⟩
    · rcases Table.put_eq_some.mp hRow with ⟨-, rfl⟩ | ⟨-, hRow⟩
      · exact hOrg
      · exact hOk.organization k r (Table.drop_eq_some.mp hRow).2
    · rcases Table.put_eq_some.mp hRow with ⟨rfl, hEq⟩ | ⟨-, hRow⟩
      · cases hEq
        rfl
      · rcases Table.put_eq_some.mp hRow with ⟨-, hEq⟩ | ⟨-, hRow⟩
        · cases hEq
        · exact hOk.keyed k r hRow
  | delete old =>
    refine ⟨fun k r hRow => hOk.organization k r (Table.drop_eq_some.mp hRow).2, fun k r hRow => ?_⟩
    rcases Table.put_eq_some.mp hRow with ⟨-, hEq⟩ | ⟨-, hRow⟩
    · cases hEq
    · exact hOk.keyed k r hRow

theorem SessionOk.writeEntry {op : RowOp EntryRow} (hTrigger : journalEntriesImmutability (s.view db) op = .ok ())
    (hKeys : KeysOk (s.view db) (.entry op)) (hGuard : RowGuarded (s.view db) (.entry op))
    (hOrg : OrganizationExists db (.entry op)) : SessionOk db (s.write (JournalOp.touched now (.entry op))) := by
  have hView : (s.write (JournalOp.touched now (.entry op))).view db =
      (s.view db).write (JournalOp.touched now (.entry op)) := by
    cases op <;> exact s.view_write_entry db _
  have hSame : (s.write (JournalOp.touched now (.entry op))).lines = s.lines ∧
      (s.write (JournalOp.touched now (.entry op))).changes = s.changes := by
    cases op <;> exact s.write_entry_lines _
  have hIds : (s.write (JournalOp.touched now (.entry op))).lineIds = s.lineIds := by
    rw [Session.lineIds, hSame.2, Session.lineIds]
  have hEntries : (s.write (JournalOp.touched now (.entry op))).lineEntries = s.lineEntries := by
    rw [Session.lineEntries, hSame.2, Session.lineEntries]
  have hLines : ((s.view db).write (JournalOp.touched now (.entry op))).lines = (s.view db).lines := by
    cases op <;> rfl
  obtain ⟨hOrganization, hKeyed⟩ := hOk.entries_written now hOrg
  constructor
  · rw [hView]
    exact hOrganization
  · exact hKeyed
  · rw [hSame.1]
    exact hOk.nodup
  · rw [hSame.1, hIds]
    exact hOk.lineIds
  · rw [hSame.1, hEntries]
    exact hOk.lineEntries
  · rw [hIds, hEntries]
    exact hOk.replaced
  · intro k hLeft
    rw [hView]
    exact leftDraft_stays hOk.organization hTrigger hKeys hGuard (hOk.stays k hLeft)
  · intro k hLeft
    rw [hView] at hLeft ⊢
    rw [hEntries, Db.linesOf, hLines]
    rcases leftDraft_new hOk.organization hTrigger hKeys hGuard hLeft with hBefore | hLined
    · exact hOk.lined k hBefore
    · exact .inr hLined

/-- The lines that the transaction has written have different ids. -/
theorem SessionOk.nodup_written (op : RowOp LineRow) : ((s.write (.line op)).lines.map LineRow.id).Nodup := by
  have hLeftIds : ∀ l ∈ op.left.toList, l.id ∈ op.lineIds := fun l hl =>
    (left_id (Option.mem_toList.mp hl)).1
  change ((s.lines.filter (·.id ∉ op.lineIds) ++ op.left.toList).map LineRow.id).Nodup
  rw [List.map_append]
  refine List.Nodup.append (hOk.nodup.sublist (List.filter_sublist.map _)) ?_ ?_
  · cases op.left <;> simp
  · intro i hi hNew
    obtain ⟨l, hl, rfl⟩ := List.mem_map.mp hi
    obtain ⟨l', hl', hEq⟩ := List.mem_map.mp hNew
    have hNot : l.id ∉ op.lineIds := by simpa using (List.mem_filter.mp hl).2
    exact hNot (hEq ▸ hLeftIds l' hl')

theorem SessionOk.writeLine (hDb : (db.lines.map LineRow.id).Nodup) {op : RowOp LineRow}
    (hTrigger : journalLinesFrozenAfterPost (s.view db) op = .ok ()) (hKeys : KeysOk (s.view db) (.line op))
    (hGuard : RowGuarded (s.view db) (.line op)) : SessionOk db (s.write (.line op)) := by
  have hNodup := hOk.view_nodup hDb
  have hDraft := frozen_draft hTrigger
  have hWritten : ∀ l ∈ (s.view db).lines, l.id ∈ op.lineIds → l.entryId = op.entryId :=
    fun l hl hId => written_entry hTrigger hKeys hGuard hNodup hl hId
  have hNewLines : ∀ l ∈ (s.write (.line op)).lines,
      l ∈ s.lines ∧ l.id ∉ op.lineIds ∨ op.left = some l := by
    intro l hl
    simpa [Session.write, List.mem_append] using hl
  constructor
  · exact hOk.organization
  · exact hOk.keyed
  · exact hOk.nodup_written op
  · intro l hl
    rw [Session.lineIds_write_line, List.mem_append]
    rcases hNewLines l hl with ⟨hl, -⟩ | hLeft
    · exact .inl (hOk.lineIds l hl)
    · exact .inr (left_id hLeft).1
  · intro l hl
    rw [Session.lineEntries_write_line, List.mem_append, List.mem_singleton]
    rcases hNewLines l hl with ⟨hl, -⟩ | hLeft
    · exact .inl (hOk.lineEntries l hl)
    · exact .inr (left_id hLeft).2
  · intro l hl hId
    rw [Session.lineIds_write_line, List.mem_append] at hId
    rw [Session.lineEntries_write_line, List.mem_append, List.mem_singleton]
    by_cases hOwn : l.id ∈ s.lineIds
    · exact .inl (hOk.replaced l hl hOwn)
    · exact .inr (hWritten l (Session.mem_view_lines.mpr (.inl ⟨hl, hOwn⟩))
        (hId.resolve_left hOwn))
  · exact hOk.stays
  · intro k hLeft
    change LeftDraft (s.view db) k at hLeft
    rw [Session.lineEntries_write_line, List.mem_append]
    rcases hOk.lined k hLeft with ⟨hCommitted, hChanged⟩ | hLined
    · exact .inl ⟨hCommitted, .inl hChanged⟩
    · right
      obtain ⟨l, hl⟩ := List.exists_mem_of_ne_nil _ hLined
      obtain ⟨hl, hEntry⟩ := mem_linesOf.mp hl
      refine List.ne_nil_of_mem (a := l) (mem_linesOf.mpr ⟨?_, hEntry⟩)
      refine Session.mem_view_write_line.mpr (.inl ⟨hl, fun hId => hDraft ?_⟩)
      rw [← hWritten l hl hId, hEntry]
      exact hLeft

/-- One row of a statement keeps what holds of its transaction. -/
theorem SessionOk.writeRow {s' : Session} {op : JournalOp} (hDb : (db.lines.map LineRow.id).Nodup)
    (hGuard : RowGuarded (s.view db) op) (hRow : s.writeRow now db op = .ok s') : SessionOk db s' := by
  simp only [Session.writeRow, bind_eq_ok, ensure_eq_ok, pure_eq_ok] at hRow
  obtain ⟨_, hTrigger, _, hKeys, _, hOrg, rfl⟩ := hRow
  cases op with
  | entry op => exact hOk.writeEntry hTrigger hKeys hGuard hOrg
  | line op => exact hOk.writeLine hDb hTrigger hKeys hGuard

end writeRow

/-! ### Commits -/

/-- A row that a transaction has written looks to it the same whatever others commit. -/
theorem view_view_entries (db : Db) (s other : Session) (k : Uuid) :
    other.entries k = none ∧ (other.view (s.view db)).entries k = (s.view db).entries k ∨
      other.entries k ≠ none ∧ (other.view (s.view db)).entries k = (other.view db).entries k := by
  simp only [Session.view_entries]
  cases hOwn : other.entries k with
  | none => exact .inl ⟨rfl, Table.overlay_of_none hOwn⟩
  | some v => exact .inr ⟨by simp, by rw [Table.overlay_of_some hOwn, Table.overlay_of_some hOwn]⟩

section commit

variable {db : Db} {s other : Session} (hOk : SessionOk db s) (hOther : SessionOk db other)
  (hApart : Apart s other)

include hOk hOther hApart

/-- What holds of a transaction still holds when another one has committed. -/
theorem SessionOk.afterCommit (hGuard : ∀ k ∈ s.lineEntries, ¬LeftDraft db k ∧
      ¬LeftDraft (other.view db) k) : SessionOk (s.view db) other := by
  have hReplaced : ∀ l ∈ (s.view db).lines, l.id ∈ other.lineIds → l.entryId ∈ other.lineEntries := by
    intro l hl hId
    rcases Session.mem_view_lines.mp hl with ⟨hl, -⟩ | hOwn
    · exact hOther.replaced l hl hId
    · exact absurd hId (hApart.lines l.id (hOk.lineIds l hOwn))
  constructor
  · intro k r hRow
    rcases view_view_entries db s other k with ⟨-, hEq⟩ | ⟨-, hEq⟩
    · exact hOk.organization k r (hEq ▸ hRow)
    · exact hOther.organization k r (hEq ▸ hRow)
  · exact hOther.keyed
  · exact hOther.nodup
  · exact hOther.lineIds
  · exact hOther.lineEntries
  · exact hReplaced
  · intro k hLeft
    rcases view_view_entries db s other k with ⟨-, hEq⟩ | ⟨hWritten, hEq⟩
    · exact (leftDraft_congr hEq).mpr hLeft
    · have hCommitted : (s.view db).entries k = db.entries k :=
        Table.overlay_of_none ((hApart.entries k).resolve_right hWritten)
      exact (leftDraft_congr hEq).mpr (hOther.stays k ((leftDraft_congr hCommitted).mp hLeft))
  · intro k hLeft
    have hSame : k ∉ s.lineEntries →
        (other.view (s.view db)).linesOf k = (other.view db).linesOf k := fun hNot => by
      rw [linesOf_view_eq, hOk.linesOf_view hNot, ← linesOf_view_eq]
    rcases view_view_entries db s other k with ⟨-, hEq⟩ | ⟨-, hEq⟩
    · have hPosted : LeftDraft (s.view db) k := (leftDraft_congr hEq).mp hLeft
      by_cases hChanged : k ∈ other.lineEntries
      · exact .inl ⟨hPosted, hChanged⟩
      · right
        rcases hOk.lined k hPosted with ⟨hCommitted, hOwn⟩ | hLined
        · exact absurd hCommitted (hGuard k hOwn).1
        · rw [Ledger.linesOf_view hOther.lineEntries hReplaced hChanged]
          exact hLined
    · have hPosted : LeftDraft (other.view db) k := (leftDraft_congr hEq).mp hLeft
      rcases hOther.lined k hPosted with ⟨hCommitted, hChanged⟩ | hLined
      · exact .inl ⟨hOk.stays k hCommitted, hChanged⟩
      · right
        rw [hSame fun hOwn => (hGuard k hOwn).2 hPosted]
        exact hLined

end commit

/-- Entries that are posted stay so with their lines. -/
def KeepsPosted (w w' : Sessions) : Prop :=
  ∀ k, LeftDraft w.db k → LeftDraft w'.db k ∧ w'.db.linesOf k = w.db.linesOf k

theorem KeepsPosted.of_db {w w' : Sessions} (h : w'.db = w.db) : KeepsPosted w w' := by
  intro k hLeft
  rw [h]
  exact ⟨hLeft, rfl⟩

section step

variable {w w' : Sessions} (hOk : SessionsOk w)
include hOk

/-- A transaction changes on its own. -/
theorem SessionsOk.withSession {n : Nat} {s : Session} (hSession : SessionOk w.db s)
    (hApart : ∀ n' other, n' ≠ n → w.opened n' = some other → Apart s other) :
    SessionsOk (w.withSession n s) where
  organization := hOk.organization
  keyed := hOk.keyed
  nodup := hOk.nodup
  balance := hOk.balance
  lined := hOk.lined
  session n' s' h := by
    rcases Table.put_eq_some.mp h with ⟨-, rfl⟩ | ⟨-, h⟩
    · exact hSession
    · exact hOk.session n' s' h
  apart n₁ n₂ s₁ s₂ hNe h₁ h₂ := by
    rcases Table.put_eq_some.mp h₁ with ⟨rfl, rfl⟩ | ⟨hNe₁, hOld₁⟩ <;>
      rcases Table.put_eq_some.mp h₂ with ⟨hEq, rfl⟩ | ⟨hNe₂, hOld₂⟩
    · exact absurd hEq.symm hNe
    · exact hApart n₂ s₂ hNe₂ hOld₂
    · exact (hApart n₁ s₁ (hEq ▸ hNe) hOld₁).symm
    · exact hOk.apart n₁ n₂ s₁ s₂ hNe hOld₁ hOld₂

theorem SessionsOk.abort (n : Nat) : SessionsOk (w.withoutSession n w.db) where
  organization := hOk.organization
  keyed := hOk.keyed
  nodup := hOk.nodup
  balance := hOk.balance
  lined := hOk.lined
  session n' s' h := hOk.session n' s' (Table.drop_eq_some.mp h).2
  apart n₁ n₂ s₁ s₂ hNe h₁ h₂ :=
    hOk.apart n₁ n₂ s₁ s₂ hNe (Table.drop_eq_some.mp h₁).2 (Table.drop_eq_some.mp h₂).2

/-- A commit that meets its condition leaves balanced entries, and posted ones with their lines. -/
theorem SessionsOk.commit {n : Nat} {s : Session} (hOpen : w.opened n = some s)
    (hBalance : s.changes.forM (journalEntryMustBalance (s.view w.db)) = .ok ())
    (hGuard : CommitGuarded w n s) :
    SessionsOk (w.withoutSession n (s.view w.db)) ∧
      KeepsPosted w (w.withoutSession n (s.view w.db)) := by
  have hSession := hOk.session n s hOpen
  refine ⟨?_, fun k hLeft => ⟨hSession.stays k hLeft,
    hSession.linesOf_view fun hOwn => (hGuard k hOwn).1 hLeft⟩⟩
  constructor
  · exact hSession.organization
  · intro k r hRow
    change Table.overlay s.entries w.db.entries k = some r at hRow
    cases hOwn : s.entries k with
    | none => exact hOk.keyed k r (by rwa [Table.overlay_of_none hOwn] at hRow)
    | some v =>
      rw [Table.overlay_of_some hOwn] at hRow
      exact hSession.keyed k r (by rw [hOwn, hRow])
  · exact hSession.view_nodup hOk.nodup
  · intro k
    by_cases hOwn : k ∈ s.lineEntries
    · obtain ⟨op, hOp, rfl⟩ := List.mem_map.mp hOwn
      have hCheck := forM_eq_ok.mp hBalance op hOp
      simp only [journalEntryMustBalance, bind_eq_ok, ensure_eq_ok] at hCheck
      obtain ⟨-, -, hZero⟩ := hCheck
      exact hZero
    · change balanceOf ((s.view w.db).linesOf k) = 0
      rw [hSession.linesOf_view hOwn]
      exact hOk.balance k
  · intro k hLeft
    rcases hSession.lined k hLeft with ⟨hCommitted, hOwn⟩ | hLined
    · exact absurd hCommitted (hGuard k hOwn).1
    · exact hLined
  · intro n' other h
    obtain ⟨hNe, h⟩ := Table.drop_eq_some.mp h
    exact hSession.afterCommit (hOk.session n' other h) (hOk.apart n n' s other hNe.symm hOpen h)
      fun k hOwn => ⟨(hGuard k hOwn).1, (hGuard k hOwn).2 n' other hNe h⟩
  · intro n₁ n₂ s₁ s₂ hNe h₁ h₂
    exact hOk.apart n₁ n₂ s₁ s₂ hNe (Table.drop_eq_some.mp h₁).2 (Table.drop_eq_some.mp h₂).2

end step

/-- A row that locks let a transaction write is written by no other one. -/
theorem Apart.write {s other : Session} {now : Timestamp} {op : JournalOp} (h : Apart s other)
    (hFree : other.LeavesFree op) : Apart (s.write (op.touched now)) other := by
  constructor
  · intro k
    by_cases hKey : k ∈ op.entryKeys
    · exact .inr (hFree.1 k hKey)
    · refine (h.entries k).imp_left fun hNone => ?_
      cases op with
      | entry op =>
        cases op <;>
          simp_all [JournalOp.touched, JournalOp.entryKeys, Session.write, Table.put_apply, touchUpdatedAt]
      | line op => exact hNone
  · intro i hi
    cases op with
    | entry op =>
      refine h.lines i ?_
      cases op <;> exact hi
    | line op =>
      change i ∈ (s.write (.line op)).lineIds at hi
      rw [Session.lineIds_write_line, List.mem_append] at hi
      rcases hi with hi | hi
      · exact h.lines i hi
      · exact hFree.2 i hi

theorem SessionOk.fresh {w : Sessions} (hOk : SessionsOk w) : SessionOk w.db .fresh where
  organization := hOk.organization
  keyed k r h := by cases h
  nodup := List.nodup_nil
  lineIds l h := by cases h
  lineEntries l h := by cases h
  replaced l _ h := by cases h
  stays k h := h
  lined k h := by
    right
    have hSame : (Session.fresh.view w.db).linesOf k = w.db.linesOf k :=
      Ledger.linesOf_view (fun l h => by cases h) (fun l _ h => by cases h) (by simp [Session.lineEntries,
        Session.fresh])
    rw [hSame]
    exact hOk.lined k h

/-- Every act that meets its condition keeps the invariant, and the posted entries with their
lines. -/
theorem SessionsOk.act {w w' : Sessions} {n : Nat} {a : SessionAct} (hOk : SessionsOk w)
    (hGuard : Guarded w n a) (hStep : SessionStep w n a w') : SessionsOk w' ∧ KeepsPosted w w' := by
  cases hStep with
  | begin hIdle =>
    refine ⟨hOk.withSession (.fresh hOk) fun n' other _ h => ?_, .of_db rfl⟩
    exact ⟨fun k => .inl rfl, fun i hi => by cases hi⟩
  | startStatement s hOpen =>
    have hSession := hOk.session n s hOpen
    refine ⟨hOk.withSession ⟨hSession.1, hSession.2, hSession.3, hSession.4, hSession.5, hSession.6,
      hSession.7, hSession.8⟩ fun n' other hNe h => ?_, .of_db rfl⟩
    have hApart := hOk.apart n n' s other hNe.symm hOpen h
    exact ⟨hApart.entries, hApart.lines⟩
  | row s s' now op hOpen _ hLocks hRow =>
    refine ⟨hOk.withSession ((hOk.session n s hOpen).writeRow hOk.nodup (hGuard s hOpen) hRow)
      fun n' other hNe h => ?_, .of_db rfl⟩
    have hWritten : s' = s.write (op.touched now) := by
      simp only [Session.writeRow, bind_eq_ok, pure_eq_ok] at hRow
      obtain ⟨-, -, -, -, -, -, rfl⟩ := hRow
      rfl
    rw [hWritten]
    exact (hOk.apart n n' s other hNe.symm hOpen h).write (hLocks n' other hNe h)
  | endStatement s hOpen _ =>
    have hSession := hOk.session n s hOpen
    refine ⟨hOk.withSession ⟨hSession.1, hSession.2, hSession.3, hSession.4, hSession.5, hSession.6,
      hSession.7, hSession.8⟩ fun n' other hNe h => ?_, .of_db rfl⟩
    have hApart := hOk.apart n n' s other hNe.symm hOpen h
    exact ⟨hApart.entries, hApart.lines⟩
  | commit s hOpen _ hBalance => exact hOk.commit hOpen hBalance (hGuard s hOpen)
  | abort s hOpen => exact ⟨hOk.abort n, .of_db rfl⟩

theorem SessionsOk.step {w w' : Sessions} (hOk : SessionsOk w) (hStep : SessionsStep Guarded w w') :
    SessionsOk w' ∧ KeepsPosted w w' := by
  cases hStep with
  | act _ n a hAllowed hAct => exact hOk.act hAllowed hAct
  | otherTables users accounts counterparties =>
    refine ⟨?_, fun k hLeft => ⟨hLeft, rfl⟩⟩
    refine ⟨hOk.organization, hOk.keyed, hOk.nodup, hOk.balance, hOk.lined, fun n s h => ?_, hOk.apart⟩
    have hSession := hOk.session n s h
    exact ⟨hSession.organization, hSession.keyed, hSession.nodup, hSession.lineIds,
      hSession.lineEntries, hSession.replaced, hSession.stays, hSession.lined⟩

theorem SessionsOk.initial {w : Sessions} (h : w.Initial) : SessionsOk w := by
  obtain ⟨hEntries, hLines, hOpened⟩ := h
  have hNone : ∀ k, ¬LeftDraft w.db k := by
    rintro k ⟨r, hRow, -⟩
    rw [hEntries] at hRow
    cases hRow
  constructor
  · intro k r hRow
    rw [hEntries] at hRow
    cases hRow
  · intro k r hRow
    rw [hEntries] at hRow
    cases hRow
  · rw [hLines]
    exact List.nodup_nil
  · intro k
    rw [Db.linesOf, hLines]
    rfl
  · exact fun k hLeft => absurd hLeft (hNone k)
  · intro n s hOpen
    rw [hOpened] at hOpen
    cases hOpen
  · intro n n' s s' _ hOpen
    rw [hOpened] at hOpen
    cases hOpen

/-- While no transaction takes a way around the triggers and none commits changes of lines under
another one's posting, every committed entry that is posted or reversed has lines, they make double
entry, and every later committed state has the entry, still posted or reversed, with the same
lines. -/
theorem backstop_holds {w₀ w w' : Sessions} (hInitial : w₀.Initial)
    (hRun : Run (SessionsStep Guarded) w₀ w) (hLater : Run (SessionsStep Guarded) w w') {k : Uuid}
    {r : EntryRow} (hRow : w.db.entries k = some r) (hPosted : r.status ≠ .draft) :
    w.db.linesOf k ≠ [] ∧ Balanced (w.db.linesOf k) ∧
      ∃ r', w'.db.entries k = some r' ∧ r'.status ≠ .draft ∧ w'.db.linesOf k = w.db.linesOf k := by
  have hOk : SessionsOk w :=
    Run.invariant (fun _ _ hOk hStep => (hOk.step hStep).1) hRun (SessionsOk.initial hInitial)
  have hKeeps : KeepsPosted w w' := by
    refine Run.relates (fun _ _ hLeft => ⟨hLeft, rfl⟩) (fun a b c hAB hBC k hLeft => ?_)
      (fun _ _ hOk hStep => (hOk.step hStep).1) (fun _ _ hOk hStep => (hOk.step hStep).2) hLater hOk
    obtain ⟨hMid, hLines⟩ := hAB k hLeft
    obtain ⟨hEnd, hLines'⟩ := hBC k hMid
    exact ⟨hEnd, hLines'.trans hLines⟩
  have hLeft : LeftDraft w.db k := ⟨r, hRow, hPosted⟩
  obtain ⟨⟨r', hRow', hStatus'⟩, hLines⟩ := hKeeps k hLeft
  exact ⟨hOk.lined k hLeft, balanced_of_balanceOf (hOk.balance k), r', hRow', hStatus', hLines⟩

/-! ### Runs on the tables of one organisation -/

section statement

variable {Allowed : Sessions → Nat → SessionAct → Prop}

theorem Sessions.withSession_twice (w : Sessions) (n : Nat) (s s' : Session) :
    (w.withSession n s).withSession n s' = w.withSession n s' := by
  rw [Sessions.withSession, Sessions.withSession, Table.put_put_same, Sessions.withSession]

theorem Sessions.withSession_opened (w : Sessions) (n : Nat) (s : Session) :
    (w.withSession n s).opened n = some s := Table.put_same _ _ _

theorem Sessions.withSession_other {w : Sessions} {n n' : Nat} {s : Session} (h : n' ≠ n) :
    (w.withSession n s).opened n' = w.opened n' := Table.put_ne h

/-- The rows of a statement that no other session stands in the way of. -/
theorem rows_run {now : Timestamp} {ops : List JournalOp} {w : Sessions} {n : Nat} {s s' : Session}
    (hAllowed : ∀ w', ∀ op ∈ ops, Allowed w' n (.row now op))
    (hFree : ∀ n' other, n' ≠ n → w.opened n' = some other → ∀ op ∈ ops, other.LeavesFree op)
    (hIn : s.inStatement = true)
    (hRows : ops.foldlM (Session.writeRow now w.db) s = .ok s') :
    Run (SessionsStep Allowed) (w.withSession n s) (w.withSession n s') := by
  induction ops generalizing s with
  | nil =>
    obtain rfl : s = s' := by simpa using hRows
    exact .refl
  | cons op rest ih =>
    rw [List.foldlM_cons, bind_eq_ok] at hRows
    obtain ⟨mid, hFirst, hRest⟩ := hRows
    have hMid : mid.inStatement = true := by
      simp only [Session.writeRow, bind_eq_ok, pure_eq_ok] at hFirst
      obtain ⟨-, -, -, -, -, -, rfl⟩ := hFirst
      rw [← hIn]
      cases op with
      | entry op => cases op <;> rfl
      | line op => rfl
    have hStep : SessionsStep Allowed (w.withSession n s) ((w.withSession n s).withSession n mid) := by
      refine .act _ _ n (.row now op) (hAllowed _ op List.mem_cons_self)
        (.row s mid now op (w.withSession_opened n s) hIn (fun n' other hNe h => ?_) hFirst)
      have hOther : w.opened n' = some other := (Sessions.withSession_other hNe).symm.trans h
      exact hFree n' other hNe hOther op List.mem_cons_self
    rw [Sessions.withSession_twice] at hStep
    refine .head hStep (ih (fun w' op' h => hAllowed w' op' (List.mem_cons_of_mem _ h)) ?_ hMid hRest)
    exact fun n' other hNe h op' hOp => hFree n' other hNe h op' (List.mem_cons_of_mem _ hOp)

/-- A statement that no other session stands in the way of. -/
theorem statement_run (now : Timestamp) (ops : List JournalOp) {w : Sessions} {n : Nat}
    {s : Session} (s' : Session) (hStart : ∀ w', Allowed w' n .startStatement)
    (hAllowed : ∀ w', ∀ op ∈ ops, Allowed w' n (.row now op))
    (hEnd : ∀ w', Allowed w' n .endStatement)
    (hFree : ∀ n' other, n' ≠ n → w.opened n' = some other → ∀ op ∈ ops, other.LeavesFree op)
    (hRows : ops.foldlM (Session.writeRow now w.db) { s with inStatement := true } = .ok s')
    (hKeys : Constraints (s'.view w.db)) :
    Run (SessionsStep Allowed) (w.withSession n s) (w.withSession n { s' with inStatement := false }) := by
  have hFirst : SessionsStep Allowed (w.withSession n s) (w.withSession n { s with inStatement := true }) := by
    rw [← w.withSession_twice n s { s with inStatement := true }]
    exact .act _ _ n .startStatement (hStart _) (.startStatement s (w.withSession_opened n s))
  have hLast : SessionsStep Allowed (w.withSession n s') (w.withSession n { s' with inStatement := false }) := by
    rw [← w.withSession_twice n s' { s' with inStatement := false }]
    exact .act _ _ n .endStatement (hEnd _) (.endStatement s' (w.withSession_opened n s') hKeys)
  exact (Relation.ReflTransGen.head hFirst (rows_run hAllowed hFree rfl hRows)).tail hLast

end statement

/-- Organisation 1 before its first entry. -/
def noEntries : Sessions := ⟨⟨[1], [7], systemChart, [], Table.empty, []⟩, Table.empty⟩

/-- Entry 10 of organisation 1. -/
def entryTen (status : EntryStatus) : EntryRow :=
  ⟨10, 1, .firstOfMarch, "Sale", status, none, some 7, none, 100, 100⟩

def lineOfTen (id : Uuid) (accountCode : String) (side : Side) : LineRow :=
  ⟨id, 1, 10, accountCode, side, .ofSale, none, none, 100⟩

/-- The keys hold where entry 10 is the only one. -/
theorem constraints_ten {db : Db} (status : EntryStatus) (hOrgs : db.organizations = [1])
    (hEntries : db.entries = Table.empty.put 10 (entryTen status))
    (hLines : ∀ l ∈ db.lines, l.entryId = 10 ∧ l.orgId = 1) : Constraints db := by
  constructor
  · intro k r hRow
    rw [hEntries] at hRow
    rcases Table.put_eq_some.mp hRow with ⟨rfl, rfl⟩ | ⟨-, hRow⟩
    · rfl
    · cases hRow
  · intro k r hRow
    rw [hEntries] at hRow
    rcases Table.put_eq_some.mp hRow with ⟨rfl, rfl⟩ | ⟨-, hRow⟩
    · rw [hOrgs]
      exact List.mem_singleton.mpr rfl
    · cases hRow
  · intro l hl
    obtain ⟨hEntry, hOrg⟩ := hLines l hl
    rw [hEntries, hEntry, hOrg]
    exact ⟨entryTen status, Table.put_same _ _ _, rfl⟩

/-- The transaction after the rows. -/
def afterRows (s : Session) (rows : List JournalOp) : Session :=
  rows.foldl (fun s op => s.write (op.touched 100)) s

/-- A transaction whose first statement starts. -/
def starting : Session := { Session.fresh with inStatement := true }

/-- The rows of four statements: a draft, its lines, its posting, two more lines. -/
def draftRows : List JournalOp := [.entry (.insert (entryTen .draft))]

def lineRows : List JournalOp :=
  [.line (.insert (lineOfTen 20 "1210" .debit)), .line (.insert (lineOfTen 21 "6010" .credit))]

def postRows : List JournalOp := [.entry (.update (entryTen .draft) (entryTen .posted))]

def moreRows : List JournalOp :=
  [.line (.insert (lineOfTen 22 "1210" .debit)), .line (.insert (lineOfTen 23 "6010" .credit))]

/-- The draft with its lines, as one transaction commits it. -/
def draftJournal : Sessions :=
  ⟨(afterRows .fresh (draftRows ++ lineRows)).view noEntries.db, Table.empty⟩

/-- A world without other sessions. -/
theorem drop_alone (db : Db) (n : Nat) (s : Session) (db' : Db) :
    (Sessions.withSession ⟨db, Table.empty⟩ n s).withoutSession n db' = ⟨db', Table.empty⟩ := by
  have hDrop : (Table.empty.put n s).drop n = Table.empty := by
    funext n'
    by_cases h : n' = n
    · rw [h, Table.drop_same, Table.empty_apply]
    · rw [Table.drop_ne h, Table.put_ne h]
  rw [Sessions.withoutSession, Sessions.withSession, hDrop]

theorem draft_run : Run (SessionsStep Guarded) noEntries draftJournal := by
  have hBegin : SessionsStep Guarded noEntries (noEntries.withSession 0 .fresh) :=
    .act _ _ 0 .begin trivial (.begin rfl)
  have hFree : ∀ n' other, n' ≠ 0 → noEntries.opened n' = some other →
      ∀ ops : List JournalOp, ∀ op ∈ ops, other.LeavesFree op := fun n' other _ h => by cases h
  have hDraft : Run (SessionsStep Guarded) (noEntries.withSession 0 .fresh)
      (noEntries.withSession 0 (afterRows .fresh draftRows)) := by
    refine statement_run 100 draftRows (afterRows starting draftRows) (fun _ => trivial) ?_
      (fun _ => trivial) (fun n' other hNe h => hFree n' other hNe h _) rfl
      (constraints_ten .draft rfl (Table.overlay_put_some _ _ _ _) fun l hl => by cases hl)
    intro w' op hOp s _
    obtain rfl := List.mem_singleton.mp hOp
    rfl
  have hLines : Run (SessionsStep Guarded) (noEntries.withSession 0 (afterRows .fresh draftRows))
      (noEntries.withSession 0 (afterRows .fresh (draftRows ++ lineRows))) := by
    refine statement_run 100 lineRows (afterRows starting (draftRows ++ lineRows)) (fun _ => trivial) ?_ (fun _ => trivial) (fun n' other hNe h => hFree n' other hNe h _) rfl
      (constraints_ten .draft rfl (Table.overlay_put_some _ _ _ _) ?_)
    · intro w' op hOp s _
      simp only [lineRows, List.mem_cons, List.not_mem_nil, or_false] at hOp
      rcases hOp with rfl | rfl <;> trivial
    · change ∀ l ∈ [lineOfTen 20 "1210" .debit, lineOfTen 21 "6010" .credit], _
      simp [lineOfTen]
  have hCommit : SessionsStep Guarded (noEntries.withSession 0 (afterRows .fresh (draftRows ++ lineRows)))
      draftJournal := by
    rw [draftJournal, ← drop_alone noEntries.db 0 (afterRows .fresh (draftRows ++ lineRows))]
    refine .act _ _ 0 .commit (fun s hOpen k hk => ⟨?_, fun n' other hNe h => ?_⟩)
      (.commit _ (noEntries.withSession_opened 0 _) rfl (by decide +kernel))
    · rintro ⟨r, hRow, -⟩
      cases hRow
    · rw [Sessions.withSession_other hNe] at h
      cases h
  exact ((Relation.ReflTransGen.head hBegin hDraft).trans hLines).tail hCommit

/-- The transaction that posts entry 10. -/
def posting : Session := afterRows .fresh postRows

theorem posting_entries :
    (posting.view draftJournal.db).entries = Table.empty.put 10 (entryTen .posted) := by
  funext k
  by_cases h : k = 10
  · rw [h]
    rfl
  · have hOwn : posting.entries k = none := (Table.put_ne h).trans (Table.put_ne h)
    have hDraft : draftJournal.db.entries k = none := Table.overlay_of_none (Table.put_ne h)
    rw [Table.put_ne h, Session.view_entries, Table.overlay_of_none hOwn, hDraft]
    rfl

theorem posting_run : Run (SessionsStep Guarded) draftJournal (draftJournal.withSession 0 posting) := by
  have hBegin : SessionsStep Guarded draftJournal (draftJournal.withSession 0 .fresh) :=
    .act _ _ 0 .begin trivial (.begin rfl)
  have hPost : Run (SessionsStep Guarded) (draftJournal.withSession 0 .fresh)
      (draftJournal.withSession 0 posting) := by
    refine statement_run 100 postRows (afterRows starting postRows) (fun _ => trivial) ?_
      (fun _ => trivial) (fun n' other _ h => by cases h) rfl
      (constraints_ten .posted rfl posting_entries ?_)
    · intro w' op hOp s _
      obtain rfl := List.mem_singleton.mp hOp
      exact fun hDraft => absurd rfl hDraft
    · change ∀ l ∈ [lineOfTen 20 "1210" .debit, lineOfTen 21 "6010" .credit], _
      simp [lineOfTen]
  exact .head hBegin hPost

/-- The journal with entry 10 posted. -/
def postedJournal : Sessions := ⟨posting.view draftJournal.db, Table.empty⟩

theorem posted_run : Run (SessionsStep Guarded) noEntries postedJournal := by
  have hCommit : SessionsStep Guarded (draftJournal.withSession 0 posting) postedJournal := by
    rw [postedJournal, ← drop_alone draftJournal.db 0 posting]
    exact .act _ _ 0 .commit (fun s hOpen k hk => by
      rw [Sessions.withSession_opened] at hOpen
      cases hOpen
      cases hk) (.commit _ (draftJournal.withSession_opened 0 _) rfl rfl)
  exact (draft_run.trans posting_run).tail hCommit

theorem backstop_holds_sale : Run (SessionsStep Guarded) noEntries postedJournal ∧
    postedJournal.db.linesOf 10 ≠ [] ∧ Balanced (postedJournal.db.linesOf 10) := by
  have hRow : postedJournal.db.entries 10 = some (entryTen .posted) := rfl
  obtain ⟨hLined, hBalanced, -⟩ :=
    backstop_holds ⟨rfl, rfl, rfl⟩ posted_run .refl hRow (by decide)
  exact ⟨posted_run, hLined, hBalanced⟩

theorem guarded_run {w w' : Sessions} (h : Run (SessionsStep Guarded) w w') :
    Run (SessionsStep AnyAct) w w' := by
  refine h.mono fun a b hStep => ?_
  cases hStep with
  | act _ n act _ hAct => exact .act _ _ n act trivial hAct
  | otherTables users accounts counterparties => exact .otherTables _ _ _ _

/-- A posted header that comes by insertion. -/
def insertedPosted : List JournalOp := [.entry (.insert (entryTen .posted))]

theorem insertedPosted_run : Run (SessionsStep AnyAct) noEntries
    ⟨(afterRows .fresh insertedPosted).view noEntries.db, Table.empty⟩ := by
  have hBegin : SessionsStep AnyAct noEntries (noEntries.withSession 0 .fresh) :=
    .act _ _ 0 .begin trivial (.begin rfl)
  have hInsert : Run (SessionsStep AnyAct) (noEntries.withSession 0 .fresh)
      (noEntries.withSession 0 (afterRows .fresh insertedPosted)) := by
    refine statement_run 100 insertedPosted (afterRows starting insertedPosted) (fun _ => trivial)
      (fun _ _ _ => trivial) (fun _ => trivial) (fun n' other _ h => by cases h) rfl
      (constraints_ten .posted rfl (Table.overlay_put_some _ _ _ _) fun l hl => by cases hl)
  have hCommit : SessionsStep AnyAct (noEntries.withSession 0 (afterRows .fresh insertedPosted))
      ⟨(afterRows .fresh insertedPosted).view noEntries.db, Table.empty⟩ := by
    rw [← drop_alone noEntries.db 0 (afterRows .fresh insertedPosted)]
    exact .act _ _ 0 .commit trivial (.commit _ (noEntries.withSession_opened 0 _) rfl rfl)
  exact (Relation.ReflTransGen.head hBegin hInsert).tail hCommit

/-- The transaction that adds two lines to entry 10. -/
def adding : Session := afterRows .fresh moreRows

/-- Both transactions are open: one has posted entry 10, the other, which still sees the draft, adds
lines to it. -/
def racing : Sessions := (draftJournal.withSession 0 posting).withSession 1 adding

theorem racing_run : Run (SessionsStep AnyAct) draftJournal racing := by
  have hBegin : SessionsStep AnyAct (draftJournal.withSession 0 posting)
      ((draftJournal.withSession 0 posting).withSession 1 .fresh) :=
    .act _ _ 1 .begin trivial (.begin rfl)
  have hAdd : Run (SessionsStep AnyAct) ((draftJournal.withSession 0 posting).withSession 1 .fresh)
      racing := by
    refine statement_run 100 moreRows (afterRows starting moreRows) (fun _ => trivial)
      (fun _ _ _ => trivial) (fun _ => trivial) (fun n' other hNe h op hOp => ?_) rfl
      (constraints_ten .draft rfl (Table.overlay_put_some _ _ _ _) ?_)
    · rcases Table.put_eq_some.mp h with ⟨-, rfl⟩ | ⟨-, h⟩
      · simp only [moreRows, List.mem_cons, List.not_mem_nil, or_false] at hOp
        rcases hOp with rfl | rfl <;>
          exact ⟨fun k hk => absurd hk List.not_mem_nil, fun i _ hi => absurd hi List.not_mem_nil⟩
      · cases h
    · change ∀ l ∈ [lineOfTen 20 "1210" .debit, lineOfTen 21 "6010" .credit,
        lineOfTen 22 "1210" .debit, lineOfTen 23 "6010" .credit], _
      simp [lineOfTen]
  exact ((guarded_run posting_run).tail hBegin).trans hAdd

/-- An insertion of a posted header passes no trigger, so an entry without lines is committed.  And
lines that are added to a draft while another transaction posts it are committed after the
posting. -/
theorem backstop_bypassed :
    (∃ w, Run (SessionsStep AnyAct) noEntries w ∧ w.db.entries 10 = some (entryTen .posted) ∧
      w.db.linesOf 10 = []) ∧
    ∃ w w', Run (SessionsStep AnyAct) noEntries w ∧ w.db.entries 10 = some (entryTen .posted) ∧
      Run (SessionsStep AnyAct) w w' ∧ w'.db.linesOf 10 ≠ w.db.linesOf 10 := by
  refine ⟨⟨_, insertedPosted_run, rfl, rfl⟩, ?_⟩
  have hPosted : SessionsStep AnyAct racing (racing.withoutSession 0 (posting.view racing.db)) :=
    .act _ _ 0 .commit trivial (.commit _ rfl rfl rfl)
  have hAdded : SessionsStep AnyAct (racing.withoutSession 0 (posting.view racing.db))
      ((racing.withoutSession 0 (posting.view racing.db)).withoutSession 1
        (adding.view (posting.view racing.db))) :=
    .act _ _ 1 .commit trivial (.commit adding rfl rfl (by decide +kernel))
  exact ⟨_, _, ((guarded_run draft_run).trans racing_run).tail hPosted, rfl, .single hAdded,
    by decide⟩

end CyberAccountant.Ledger
