import CyberAccountant.Ledger.JournalService

/-! Any number of clients working on the journal at once.  Each operation of the service is a
sequence of reads followed by one transaction, and between any two of them every other client, and
the removal of an organisation or of a user, may take its turn. -/

namespace CyberAccountant.Ledger

open CyberAccountant.Library

/-- What a client has read for the transaction that it has yet to run. -/
inductive Pending where
  | createDraft (req : DraftRequest)
  | post (org entry : Uuid)
  | reverseHeader (org user : Uuid) (original : EntryRow)
  | reverse (org user : Uuid) (original : EntryRow) (lines : List JournalLine)

/-- The database, the organisations that it has ever had, and the clients. -/
structure World where
  db : Db
  known : List Uuid
  clients : Table Nat Pending

namespace World

def begin (w : World) (client : Nat) (p : Pending) : World :=
  { w with clients := w.clients.put client p }

def finish (w : World) (client : Nat) (db : Db) : World :=
  { w with db, clients := w.clients.drop client }

/-- The system before its first organisation. -/
def initial : World where
  db := ⟨[], [], systemChart, [], Table.empty, []⟩
  known := []
  clients := Table.empty

end World

/-- `DELETE FROM organizations` with its cascades. -/
def Db.withoutOrganization (db : Db) (org : Uuid) : Db where
  organizations := db.organizations.filter (· ≠ org)
  users := db.users
  accounts := db.accounts.filter (·.orgId ≠ some org)
  counterparties := db.counterparties.filter (·.orgId ≠ org)
  entries := fun k => (db.entries k).filter (·.orgId ≠ org)
  lines := db.lines.filter (·.orgId ≠ org)

/-- The row without its author if that is `user`. -/
def EntryRow.clearAuthor (user : Uuid) (row : EntryRow) : EntryRow :=
  if row.createdByUserId = some user then { row with createdByUserId := none } else row

/-- `DELETE FROM users` with its `ON DELETE SET NULL`. -/
def Db.withoutUser (db : Db) (user : Uuid) : Db :=
  { db with
    users := db.users.filter (· ≠ user)
    entries := fun k => (db.entries k).map (EntryRow.clearAuthor user) }

/-- One step of the system. -/
inductive Step (num : NumericText) : World → World → Prop where
  | readDraft (w : World) (client : Nat) (req : DraftRequest) (hIdle : w.clients client = none)
      (hChecks : checkDraft w.db req = .ok ()) : Step num w (w.begin client (.createDraft req))
  | writeDraft (w : World) (client : Nat) (req : DraftRequest) (now : Timestamp) (id : Uuid)
      (lineIds : Nat → Uuid) (db : Db) (hRead : w.clients client = some (.createDraft req))
      (hWrite : createDraft num now w.db req id lineIds = .ok db) : Step num w (w.finish client db)
  | readPost (w : World) (client : Nat) (org entry : Uuid) (row : EntryRow)
      (hIdle : w.clients client = none) (hFind : findInOrg w.db entry org = some row)
      (hDraft : row.status = .draft) : Step num w (w.begin client (.post org entry))
  | writePost (w : World) (client : Nat) (org entry : Uuid) (now : Timestamp) (db : Db)
      (hRead : w.clients client = some (.post org entry))
      (hWrite : post now w.db org entry = .ok (some db)) : Step num w (w.finish client db)
  | readOriginal (w : World) (client : Nat) (org user entry : Uuid) (original : EntryRow)
      (hIdle : w.clients client = none) (hFind : findInOrg w.db entry org = some original)
      (hPosted : original.status = .posted) :
      Step num w (w.begin client (.reverseHeader org user original))
  | readLines (w : World) (client : Nat) (org user : Uuid) (original : EntryRow)
      (hRead : w.clients client = some (.reverseHeader org user original)) :
      Step num w
        (w.begin client (.reverse org user original (loadLines num w.db original.id)))
  | writeReverse (w : World) (client : Nat) (org user : Uuid) (original : EntryRow)
      (lines : List JournalLine) (now : Timestamp) (id : Uuid) (lineIds : Nat → Uuid) (db : Db)
      (hRead : w.clients client = some (.reverse org user original lines))
      (hWrite : reverse num now w.db org user original lines id lineIds = .ok db) :
      Step num w (w.finish client db)
  /-- An operation ends with an error, with a transaction that matched no row, or in a crash. -/
  | abandon (w : World) (client : Nat) : Step num w (w.finish client w.db)
  | createOrganization (w : World) (org : Uuid) (hNew : org ∉ w.known) :
      Step num w { w with
        db := { w.db with organizations := org :: w.db.organizations }
        known := org :: w.known }
  | deleteOrganization (w : World) (org : Uuid) :
      Step num w { w with db := w.db.withoutOrganization org }
  | deleteUser (w : World) (user : Uuid) : Step num w { w with db := w.db.withoutUser user }
  /-- The other services change the tables that the journal only reads. -/
  | otherTables (w : World) (users : List Uuid) (accounts : Chart)
      (counterparties : List Counterparty) :
      Step num w { w with db := { w.db with users, accounts, counterparties } }

/-- The states that the system reaches. -/
def Reachable (num : NumericText) : World → Prop := Run (Step num) World.initial

/-- A step of a run in which the drafts that pass their checks have `text` in every line. -/
def DraftsStep (num : NumericText) (text : JournalLine → Prop) (w w' : World) : Prop :=
  Step num w w' ∧ ∀ c req, checkDraft w.db req = .ok () → w'.clients c = some (.createDraft req) →
    ∀ line ∈ req.lines, text line

/-! ### The invariant -/

/-- The lines of `storno` are those of `original` on the other side. -/
def Mirrors (db : Db) (storno original : Uuid) : Prop :=
  ((db.linesOf storno).map LineRow.posting).Perm
    ((db.linesOf original).map fun l => l.posting.flip)

/-- The keys of the tables hold, and every entry has two lines or more that make double entry. -/
structure LinesOk (db : Db) : Prop extends Constraints db where
  balance : ∀ k r, db.entries k = some r → balanceOf (db.linesOf k) = 0
  twoLines : ∀ k r, db.entries k = some r → 2 ≤ (db.linesOf k).length

/-- Stornos are no drafts and mirror the reversed entry that they name, and every reversed entry is
named by one storno. -/
structure StornosOk (db : Db) : Prop where
  storno : ∀ k r o, db.entries k = some r → r.reversesEntryId = some o → r.status ≠ .draft ∧
    (∃ original, db.entries o = some original ∧ original.orgId = r.orgId ∧
      original.status = .reversed) ∧ Mirrors db k o
  reversed : ∀ o r, db.entries o = some r → r.status = .reversed →
    ∃ k storno, db.entries k = some storno ∧ storno.reversesEntryId = some o
  unique : ∀ k r k' r' o, db.entries k = some r → db.entries k' = some r' →
    r.reversesEntryId = some o → r'.reversesEntryId = some o → k = k'

/-- What a client that reverses an entry knows of it while the organisation exists. -/
def OriginalFrozen (w : World) (org : Uuid) (original : EntryRow) : Prop :=
  org ∈ w.known ∧ (org ∈ w.db.organizations → ∃ r, w.db.entries original.id = some r ∧
    r.orgId = org ∧ r.status ≠ .draft)

/-- What holds of a client's reads until its transaction. -/
def PendingOk (num : NumericText) (w : World) : Pending → Prop
  | .createDraft req => 2 ≤ req.lines.length
  | .post _ _ => True
  | .reverseHeader org _ original => OriginalFrozen w org original
  | .reverse org _ original lines => OriginalFrozen w org original ∧
    (org ∈ w.db.organizations → ∃ ls : List LineRow, ls.Perm (w.db.linesOf original.id) ∧
      lines = ls.map (LineRow.toJournalLine num))

structure WorldOk (num : NumericText) (w : World) : Prop where
  lines : LinesOk w.db
  stornos : StornosOk w.db
  known : ∀ org ∈ w.db.organizations, org ∈ w.known
  pending : ∀ c p, w.clients c = some p → PendingOk num w p

/-! ### What later states keep of an earlier one -/

/-- Entries stay, with their organisation, their columns and their lines, and their status moves
forward only, as long as their organisation stays; and an organisation that is gone stays so. -/
structure Keeps (w w' : World) : Prop where
  known : ∀ org ∈ w.known, org ∈ w'.known
  gone : ∀ org ∈ w.known, org ∈ w'.db.organizations → org ∈ w.db.organizations
  entry : ∀ k r, w.db.entries k = some r → r.orgId ∈ w.known → r.orgId ∈ w'.db.organizations →
    ∃ r', w'.db.entries k = some r' ∧ r'.orgId = r.orgId ∧ r.status.rank ≤ r'.status.rank ∧
      w'.db.linesOf k = w.db.linesOf k

theorem Keeps.refl (w : World) : Keeps w w where
  known _ h := h
  gone _ _ h := h
  entry _ r h _ _ := ⟨r, h, rfl, Nat.le_refl _, rfl⟩

theorem Keeps.trans {a b c : World} (hAB : Keeps a b) (hBC : Keeps b c) : Keeps a c where
  known org h := hBC.known org (hAB.known org h)
  gone org hKnown h := hAB.gone org hKnown (hBC.gone org (hAB.known org hKnown) h)
  entry k r hRow hKnown hOrg := by
    have hMid := hBC.gone r.orgId (hAB.known _ hKnown) hOrg
    obtain ⟨r', hRow', hOrg', hRank, hLines⟩ := hAB.entry k r hRow hKnown hMid
    obtain ⟨r'', hRow'', hOrg'', hRank', hLines'⟩ := hBC.entry k r' hRow'
      (by rw [hOrg']; exact hAB.known _ hKnown) (by rw [hOrg']; exact hOrg)
    exact ⟨r'', hRow'', hOrg''.trans hOrg', hRank.trans hRank', hLines'.trans hLines⟩

theorem EntryStatus.rank_ne_draft {s s' : EntryStatus} (h : s.rank ≤ s'.rank) (hs : s ≠ .draft) :
    s' ≠ .draft := by
  rintro rfl
  cases s with
  | draft => exact hs rfl
  | posted => exact absurd h (by decide)
  | reversed => exact absurd h (by decide)

/-- What a client has read stays good while other clients work. -/
theorem PendingOk.keeps {num : NumericText} {w w' : World} {p : Pending} (hKeeps : Keeps w w')
    (h : PendingOk num w p) : PendingOk num w' p := by
  have hFrozen : ∀ org original, OriginalFrozen w org original → OriginalFrozen w' org original := by
    rintro org original ⟨hKnown, hThere⟩
    refine ⟨hKeeps.known org hKnown, fun hOrg => ?_⟩
    obtain ⟨r, hRow, rfl, hStatus⟩ := hThere (hKeeps.gone org hKnown hOrg)
    obtain ⟨r', hRow', hOrg', hRank, -⟩ := hKeeps.entry _ r hRow hKnown hOrg
    exact ⟨r', hRow', hOrg', EntryStatus.rank_ne_draft hRank hStatus⟩
  cases p with
  | createDraft req => exact h
  | post org entry => trivial
  | reverseHeader org user original => exact hFrozen org original h
  | reverse org user original lines =>
    refine ⟨hFrozen org original h.1, fun hOrg => ?_⟩
    have hBefore := hKeeps.gone org h.1.1 hOrg
    obtain ⟨r, hRow, rfl, -⟩ := h.1.2 hBefore
    obtain ⟨-, -, -, -, hLines⟩ := hKeeps.entry _ r hRow h.1.1 hOrg
    obtain ⟨ls, hPerm, rfl⟩ := h.2 hBefore
    exact ⟨ls, by rw [hLines]; exact hPerm, rfl⟩

/-- Where the organisations stay, it is enough to look at the entries. -/
theorem keeps_of_entries {w w' : World} (hKnown : w'.known = w.known)
    (hOrgs : w'.db.organizations = w.db.organizations)
    (hEntry : ∀ k r, w.db.entries k = some r → ∃ r', w'.db.entries k = some r' ∧
      r'.orgId = r.orgId ∧ r.status.rank ≤ r'.status.rank ∧ w'.db.linesOf k = w.db.linesOf k) :
    Keeps w w' where
  known org h := by rw [hKnown]; exact h
  gone org _ h := by rw [← hOrgs]; exact h
  entry k r hRow _ _ := hEntry k r hRow

/-! ### Writing -/

section addEntry

variable {db : Db} {header : EntryRow} {rows : List LineRow}

/-- A new entry with balanced lines leaves the lines in order. -/
theorem LinesOk.addEntry (hOk : LinesOk db) (hNew : db.entries header.id = none)
    (hOrg : header.orgId ∈ db.organizations)
    (hRows : ∀ row ∈ rows, row.entryId = header.id ∧ row.orgId = header.orgId)
    (hTwo : 2 ≤ rows.length) (hBalance : balanceOf rows = 0) :
    LinesOk (db.addEntry header rows) := by
  have hSelf := hOk.linesOf_addEntry hNew hRows
  refine ⟨hOk.toConstraints.addEntry hNew hOrg hRows, ?_, ?_⟩
  · intro k r hRow
    rcases Table.put_eq_some.mp hRow with ⟨rfl, rfl⟩ | ⟨hNe, hRow⟩
    · rw [hSelf, hBalance]
    · rw [linesOf_addEntry_ne hRows hNe, hOk.balance k r hRow]
  · intro k r hRow
    rcases Table.put_eq_some.mp hRow with ⟨rfl, rfl⟩ | ⟨hNe, hRow⟩
    · rw [hSelf]
      exact hTwo
    · rw [linesOf_addEntry_ne hRows hNe]
      exact hOk.twoLines k r hRow

/-- A new draft changes no storno. -/
theorem StornosOk.addDraft (hOk : StornosOk db) (hNew : db.entries header.id = none)
    (hDraft : header.status = .draft) (hReverses : header.reversesEntryId = none)
    (hRows : ∀ row ∈ rows, row.entryId = header.id ∧ row.orgId = header.orgId) :
    StornosOk (db.addEntry header rows) := by
  refine ⟨?_, ?_, ?_⟩
  · intro k r o hRow hO
    rcases Table.put_eq_some.mp hRow with ⟨rfl, rfl⟩ | ⟨hNe, hRow⟩
    · rw [hReverses] at hO
      cases hO
    · obtain ⟨hStatus, ⟨original, hOriginal, hRest⟩, hMirrors⟩ := hOk.storno k r o hRow hO
      have hNeO := ne_of_new hNew hOriginal
      refine ⟨hStatus, ⟨original, Table.put_eq_some.mpr (.inr ⟨hNeO, hOriginal⟩), hRest⟩, ?_⟩
      rw [Mirrors, linesOf_addEntry_ne hRows hNe, linesOf_addEntry_ne hRows hNeO]
      exact hMirrors
  · intro o r hRow hReversed
    rcases Table.put_eq_some.mp hRow with ⟨rfl, rfl⟩ | ⟨hNe, hRow⟩
    · rw [hDraft] at hReversed
      cases hReversed
    · obtain ⟨k, storno, hStorno, hO⟩ := hOk.reversed o r hRow hReversed
      exact ⟨k, storno, Table.put_eq_some.mpr (.inr ⟨ne_of_new hNew hStorno, hStorno⟩), hO⟩
  · intro k r k' r' o hRow hRow' hO hO'
    rcases Table.put_eq_some.mp hRow with ⟨rfl, rfl⟩ | ⟨-, hRow⟩
    · rw [hReverses] at hO
      cases hO
    · rcases Table.put_eq_some.mp hRow' with ⟨rfl, rfl⟩ | ⟨-, hRow'⟩
      · rw [hReverses] at hO'
        cases hO'
      · exact hOk.unique k r k' r' o hRow hRow' hO hO'

end addEntry

section moved

variable {db : Db} {row : EntryRow} {k₀ : Uuid} {now : Timestamp} {target : EntryStatus}

theorem LinesOk.moved (hOk : LinesOk db) (hRow : db.entries k₀ = some row) :
    LinesOk (db.withEntry (row.moved now target)) := by
  have hKey := hOk.keyed k₀ row hRow
  refine ⟨hOk.toConstraints.moved hRow, ?_, ?_⟩
  · intro k r hFound
    rw [linesOf_withEntry]
    rcases (moved_lookup hKey).mp hFound with ⟨rfl, rfl⟩ | ⟨-, hFound⟩
    · exact hOk.balance k row hRow
    · exact hOk.balance k r hFound
  · intro k r hFound
    rw [linesOf_withEntry]
    rcases (moved_lookup hKey).mp hFound with ⟨rfl, rfl⟩ | ⟨-, hFound⟩
    · exact hOk.twoLines k row hRow
    · exact hOk.twoLines k r hFound

/-- Posting a draft changes no storno. -/
theorem StornosOk.posted (hOk : StornosOk db) (hKey : row.id = k₀) (hRow : db.entries k₀ = some row)
    (hDraft : row.status = .draft) : StornosOk (db.withEntry (row.moved now .posted)) := by
  have hNoStorno : ∀ o, row.reversesEntryId ≠ some o := fun o hO =>
    (hOk.storno k₀ row o hRow hO).1 hDraft
  refine ⟨?_, ?_, ?_⟩
  · intro k r o hFound hO
    rcases (moved_lookup hKey).mp hFound with ⟨rfl, rfl⟩ | ⟨-, hFound⟩
    · exact absurd hO (hNoStorno o)
    · obtain ⟨hStatus, ⟨original, hOriginal, hOrg, hReversed⟩, hMirrors⟩ :=
        hOk.storno k r o hFound hO
      have hNeO : o ≠ k₀ := by
        rintro rfl
        rw [hRow] at hOriginal
        cases hOriginal
        rw [hDraft] at hReversed
        cases hReversed
      exact ⟨hStatus, ⟨original, (moved_lookup hKey).mpr (.inr ⟨hNeO, hOriginal⟩), hOrg, hReversed⟩,
        hMirrors⟩
  · intro o r hFound hReversed
    rcases (moved_lookup hKey).mp hFound with ⟨rfl, rfl⟩ | ⟨-, hFound⟩
    · cases hReversed
    · obtain ⟨k, storno, hStorno, hO⟩ := hOk.reversed o r hFound hReversed
      have hNe : k ≠ k₀ := by
        rintro rfl
        rw [hRow] at hStorno
        cases hStorno
        exact hNoStorno o hO
      exact ⟨k, storno, (moved_lookup hKey).mpr (.inr ⟨hNe, hStorno⟩), hO⟩
  · intro k r k' r' o hFound hFound' hO hO'
    rcases (moved_lookup hKey).mp hFound with ⟨rfl, rfl⟩ | ⟨-, hFound⟩
    · exact absurd hO (hNoStorno o)
    · rcases (moved_lookup hKey).mp hFound' with ⟨rfl, rfl⟩ | ⟨-, hFound'⟩
      · exact absurd hO' (hNoStorno o)
      · exact hOk.unique k r k' r' o hFound hFound' hO hO'

end moved

section reversed

variable {db : Db} {row storno : EntryRow} {rows : List LineRow} {k₀ : Uuid} {now : Timestamp}

/-- The lookups after a storno of the posted entry under `k₀`. -/
theorem reversed_lookup (hKey : row.id = k₀) {k : Uuid} {r : EntryRow} :
    ((db.addEntry storno rows).withEntry (row.moved now .reversed)).entries k = some r ↔
      k = k₀ ∧ r = row.moved now .reversed ∨
        k ≠ k₀ ∧ (k = storno.id ∧ r = storno ∨ k ≠ storno.id ∧ db.entries k = some r) := by
  rw [moved_lookup hKey, @eq_comm _ r storno]
  exact or_congr Iff.rfl (and_congr Iff.rfl Table.put_eq_some)

/-- Nothing names a posted entry, since it is not reversed. -/
theorem StornosOk.unnamed (hOk : StornosOk db) (hRow : db.entries k₀ = some row)
    (hPosted : row.status = .posted) {k : Uuid} {r : EntryRow} (hFound : db.entries k = some r) :
    r.reversesEntryId ≠ some k₀ := by
  intro hO
  obtain ⟨-, ⟨original, hOriginal, -, hReversed⟩, -⟩ := hOk.storno k r k₀ hFound hO
  rw [hRow] at hOriginal
  cases hOriginal
  rw [hPosted] at hReversed
  cases hReversed

theorem linesOf_reversed (hRows : ∀ l ∈ rows, l.entryId = storno.id ∧ l.orgId = storno.orgId)
    {k : Uuid} (hNe : k ≠ storno.id) :
    ((db.addEntry storno rows).withEntry (row.moved now .reversed)).linesOf k = db.linesOf k :=
  (linesOf_withEntry k).trans (linesOf_addEntry_ne hRows hNe)

/-- What a storno of before says of its original, it says after another one. -/
theorem StornosOk.original_reversed (hOk : StornosOk db) (hKey : row.id = k₀)
    (hRow : db.entries k₀ = some row) (hPosted : row.status = .posted)
    (hNew : db.entries storno.id = none)
    (hRows : ∀ l ∈ rows, l.entryId = storno.id ∧ l.orgId = storno.orgId)
    {k o : Uuid} {r : EntryRow} (hFound : db.entries k = some r) (hO : r.reversesEntryId = some o) :
    (∃ original, ((db.addEntry storno rows).withEntry (row.moved now .reversed)).entries o
      = some original ∧ original.orgId = r.orgId ∧ original.status = .reversed) ∧
    Mirrors ((db.addEntry storno rows).withEntry (row.moved now .reversed)) k o := by
  obtain ⟨-, ⟨original, hOriginal, hRest⟩, hMirrors⟩ := hOk.storno k r o hFound hO
  have hNeO : o ≠ k₀ := by
    rintro rfl
    exact hOk.unnamed hRow hPosted hFound hO
  have hNeS := ne_of_new hNew hOriginal
  refine ⟨⟨original, (reversed_lookup hKey).mpr (.inr ⟨hNeO, .inr ⟨hNeS, hOriginal⟩⟩), hRest⟩, ?_⟩
  rw [Mirrors, linesOf_reversed hRows (ne_of_new hNew hFound), linesOf_reversed hRows hNeS]
  exact hMirrors

/-- Every row after a storno that names an original is that storno, or named the same one before. -/
theorem StornosOk.before_reverse (hOk : StornosOk db) (hKey : row.id = k₀)
    (hRow : db.entries k₀ = some row) (hPosted : row.status = .posted)
    (hReverses : storno.reversesEntryId = some k₀) {k o : Uuid} {r : EntryRow}
    (hFound : ((db.addEntry storno rows).withEntry (row.moved now .reversed)).entries k = some r)
    (hO : r.reversesEntryId = some o) : k = storno.id ∧ o = k₀ ∨
      o ≠ k₀ ∧ ∃ r₀, db.entries k = some r₀ ∧ r₀.reversesEntryId = some o := by
  rcases (reversed_lookup hKey).mp hFound with ⟨rfl, rfl⟩ | ⟨-, ⟨rfl, rfl⟩ | ⟨-, hFound⟩⟩
  · refine .inr ⟨?_, row, hRow, hO⟩
    rintro rfl
    exact hOk.unnamed hRow hPosted hRow hO
  · rw [hReverses, Option.some.injEq] at hO
    exact .inl ⟨rfl, hO.symm⟩
  · refine .inr ⟨?_, r, hFound, hO⟩
    rintro rfl
    exact hOk.unnamed hRow hPosted hFound hO

/-- A storno that mirrors a posted entry, with that entry marked reversed, leaves the stornos in
order. -/
theorem StornosOk.reverse (hOk : StornosOk db) (hKey : row.id = k₀)
    (hRow : db.entries k₀ = some row) (hPosted : row.status = .posted)
    (hNew : db.entries storno.id = none) (hStatus : storno.status = .posted)
    (hReverses : storno.reversesEntryId = some k₀) (hOrg : storno.orgId = row.orgId)
    (hRows : ∀ l ∈ rows, l.entryId = storno.id ∧ l.orgId = storno.orgId)
    (hSelf : (db.addEntry storno rows).linesOf storno.id = rows)
    (hMirror : (rows.map LineRow.posting).Perm ((db.linesOf k₀).map fun l => l.posting.flip)) :
    StornosOk ((db.addEntry storno rows).withEntry (row.moved now .reversed)) := by
  have hNe₀ : k₀ ≠ storno.id := ne_of_new hNew hRow
  refine ⟨?_, ?_, ?_⟩
  · intro k r o hFound hO
    rcases (reversed_lookup hKey).mp hFound with ⟨rfl, rfl⟩ | ⟨-, ⟨rfl, rfl⟩ | ⟨-, hFound⟩⟩
    · obtain ⟨hOriginal, hMirrors⟩ :=
        hOk.original_reversed hKey hRow hPosted hNew hRows (r := row) hRow hO
      exact ⟨by simp [EntryRow.moved], hOriginal, hMirrors⟩
    · rw [hReverses, Option.some.injEq] at hO
      subst hO
      refine ⟨by simp [hStatus], ⟨row.moved now .reversed,
        (reversed_lookup hKey).mpr (.inl ⟨rfl, rfl⟩), hOrg.symm, rfl⟩, ?_⟩
      rw [Mirrors, linesOf_reversed hRows hNe₀, linesOf_withEntry, hSelf]
      exact hMirror
    · exact ⟨(hOk.storno k r o hFound hO).1,
        hOk.original_reversed hKey hRow hPosted hNew hRows hFound hO⟩
  · intro o r hFound hReversed
    rcases (reversed_lookup hKey).mp hFound with ⟨rfl, rfl⟩ | ⟨-, ⟨rfl, rfl⟩ | ⟨-, hFound⟩⟩
    · exact ⟨storno.id, storno,
        (reversed_lookup hKey).mpr (.inr ⟨hNe₀.symm, .inl ⟨rfl, rfl⟩⟩), hReverses⟩
    · rw [hStatus] at hReversed
      cases hReversed
    · obtain ⟨k, namer, hNamer, hO⟩ := hOk.reversed o r hFound hReversed
      by_cases hCase : k = k₀
      · rw [hCase, hRow] at hNamer
        cases hNamer
        exact ⟨k₀, row.moved now .reversed, (reversed_lookup hKey).mpr (.inl ⟨rfl, rfl⟩), hO⟩
      · exact ⟨k, namer, (reversed_lookup hKey).mpr
          (.inr ⟨hCase, .inr ⟨ne_of_new hNew hNamer, hNamer⟩⟩), hO⟩
  · intro k r k' r' o hFound hFound' hO hO'
    rcases hOk.before_reverse hKey hRow hPosted hReverses hFound hO with
      ⟨rfl, rfl⟩ | ⟨hNe, r₀, hFound, hO⟩
    · rcases hOk.before_reverse hKey hRow hPosted hReverses hFound' hO' with ⟨rfl, -⟩ | ⟨hNe, -⟩
      · rfl
      · exact absurd rfl hNe
    · rcases hOk.before_reverse hKey hRow hPosted hReverses hFound' hO' with
        ⟨-, hEq⟩ | ⟨-, r₀', hFound', hO'⟩
      · exact absurd hEq hNe
      · exact hOk.unique k r₀ k' r₀' o hFound hFound' hO hO'

end reversed

/-! ### Removing an organisation or a user -/

theorem linesOf_withoutOrganization {db : Db} (hOk : LinesOk db) {org k : Uuid} {r : EntryRow}
    (hRow : db.entries k = some r) (hNe : r.orgId ≠ org) :
    (db.withoutOrganization org).linesOf k = db.linesOf k := by
  simp only [Db.linesOf, Db.withoutOrganization, List.filter_filter]
  refine List.filter_congr fun l hl => ?_
  by_cases hEntry : l.entryId = k
  · obtain ⟨r', hRow', hOrg⟩ := hOk.parent l hl
    rw [hEntry, hRow] at hRow'
    cases hRow'
    simp [hEntry, ← hOrg, hNe]
  · simp [hEntry]

theorem withoutOrganization_lookup {db : Db} {org k : Uuid} {r : EntryRow} :
    (db.withoutOrganization org).entries k = some r ↔ db.entries k = some r ∧ r.orgId ≠ org := by
  simp [Db.withoutOrganization, Option.filter_eq_some_iff]

theorem LinesOk.withoutOrganization {db : Db} (hOk : LinesOk db) (org : Uuid) :
    LinesOk (db.withoutOrganization org) := by
  refine ⟨⟨?_, ?_, ?_⟩, ?_, ?_⟩
  · intro k r hFound
    exact hOk.keyed k r (withoutOrganization_lookup.mp hFound).1
  · intro k r hFound
    obtain ⟨hFound, hNe⟩ := withoutOrganization_lookup.mp hFound
    exact List.mem_filter.mpr ⟨hOk.organization k r hFound, by simpa using hNe⟩
  · intro l hl
    obtain ⟨hl, hNe⟩ := List.mem_filter.mp hl
    obtain ⟨r, hFound, hOrg⟩ := hOk.parent l hl
    refine ⟨r, withoutOrganization_lookup.mpr ⟨hFound, ?_⟩, hOrg⟩
    rw [hOrg]
    simpa using hNe
  · intro k r hFound
    obtain ⟨hFound, hNe⟩ := withoutOrganization_lookup.mp hFound
    rw [linesOf_withoutOrganization hOk hFound hNe]
    exact hOk.balance k r hFound
  · intro k r hFound
    obtain ⟨hFound, hNe⟩ := withoutOrganization_lookup.mp hFound
    rw [linesOf_withoutOrganization hOk hFound hNe]
    exact hOk.twoLines k r hFound

theorem StornosOk.withoutOrganization {db : Db} (hLines : LinesOk db) (hOk : StornosOk db)
    (org : Uuid) : StornosOk (db.withoutOrganization org) := by
  refine ⟨?_, ?_, ?_⟩
  · intro k r o hFound hO
    obtain ⟨hFound, hNe⟩ := withoutOrganization_lookup.mp hFound
    obtain ⟨hStatus, ⟨original, hOriginal, hOrg, hReversed⟩, hMirrors⟩ := hOk.storno k r o hFound hO
    have hNeO : original.orgId ≠ org := by rwa [hOrg]
    refine ⟨hStatus, ⟨original, withoutOrganization_lookup.mpr ⟨hOriginal, hNeO⟩, hOrg,
      hReversed⟩, ?_⟩
    rw [Mirrors, linesOf_withoutOrganization hLines hFound hNe,
      linesOf_withoutOrganization hLines hOriginal hNeO]
    exact hMirrors
  · intro o r hFound hReversed
    obtain ⟨hFound, hNe⟩ := withoutOrganization_lookup.mp hFound
    obtain ⟨k, storno, hStorno, hO⟩ := hOk.reversed o r hFound hReversed
    obtain ⟨-, ⟨original, hOriginal, hOrg, -⟩, -⟩ := hOk.storno k storno o hStorno hO
    rw [hFound] at hOriginal
    cases hOriginal
    exact ⟨k, storno, withoutOrganization_lookup.mpr ⟨hStorno, by rwa [← hOrg]⟩, hO⟩
  · intro k r k' r' o hFound hFound' hO hO'
    exact hOk.unique k r k' r' o (withoutOrganization_lookup.mp hFound).1
      (withoutOrganization_lookup.mp hFound').1 hO hO'

@[simp] theorem clearAuthor_id (user : Uuid) (r : EntryRow) : (r.clearAuthor user).id = r.id := by
  unfold EntryRow.clearAuthor
  split <;> rfl

@[simp] theorem clearAuthor_orgId (user : Uuid) (r : EntryRow) :
    (r.clearAuthor user).orgId = r.orgId := by
  unfold EntryRow.clearAuthor
  split <;> rfl

@[simp] theorem clearAuthor_status (user : Uuid) (r : EntryRow) :
    (r.clearAuthor user).status = r.status := by
  unfold EntryRow.clearAuthor
  split <;> rfl

@[simp] theorem clearAuthor_reversesEntryId (user : Uuid) (r : EntryRow) :
    (r.clearAuthor user).reversesEntryId = r.reversesEntryId := by
  unfold EntryRow.clearAuthor
  split <;> rfl

theorem withoutUser_lookup {db : Db} {user k : Uuid} {r : EntryRow} :
    (db.withoutUser user).entries k = some r ↔
      ∃ r₀, db.entries k = some r₀ ∧ r₀.clearAuthor user = r := by
  simp [Db.withoutUser]

theorem LinesOk.withoutUser {db : Db} (hOk : LinesOk db) (user : Uuid) :
    LinesOk (db.withoutUser user) := by
  refine ⟨⟨?_, ?_, ?_⟩, ?_, ?_⟩
  · intro k r hFound
    obtain ⟨r₀, hBefore, rfl⟩ := withoutUser_lookup.mp hFound
    simpa using hOk.keyed k r₀ hBefore
  · intro k r hFound
    obtain ⟨r₀, hBefore, rfl⟩ := withoutUser_lookup.mp hFound
    rw [clearAuthor_orgId]
    exact hOk.organization k r₀ hBefore
  · intro l hl
    obtain ⟨r, hFound, hOrg⟩ := hOk.parent l hl
    exact ⟨r.clearAuthor user, withoutUser_lookup.mpr ⟨r, hFound, rfl⟩, by simpa using hOrg⟩
  · intro k r hFound
    obtain ⟨r₀, hFound, -⟩ := withoutUser_lookup.mp hFound
    exact hOk.balance k r₀ hFound
  · intro k r hFound
    obtain ⟨r₀, hFound, -⟩ := withoutUser_lookup.mp hFound
    exact hOk.twoLines k r₀ hFound

theorem StornosOk.withoutUser {db : Db} (hOk : StornosOk db) (user : Uuid) :
    StornosOk (db.withoutUser user) := by
  refine ⟨?_, ?_, ?_⟩
  · intro k r o hFound hO
    obtain ⟨r₀, hBefore, rfl⟩ := withoutUser_lookup.mp hFound
    rw [clearAuthor_reversesEntryId] at hO
    obtain ⟨hStatus, ⟨original, hOriginal, hOrg, hReversed⟩, hMirrors⟩ :=
      hOk.storno k r₀ o hBefore hO
    exact ⟨by simpa using hStatus, ⟨original.clearAuthor user,
      withoutUser_lookup.mpr ⟨original, hOriginal, rfl⟩, by simpa using hOrg,
      by simpa using hReversed⟩, hMirrors⟩
  · intro o r hFound hReversed
    obtain ⟨r₀, hBefore, rfl⟩ := withoutUser_lookup.mp hFound
    rw [clearAuthor_status] at hReversed
    obtain ⟨k, storno, hStorno, hO⟩ := hOk.reversed o r₀ hBefore hReversed
    exact ⟨k, storno.clearAuthor user, withoutUser_lookup.mpr ⟨storno, hStorno, rfl⟩,
      by simpa using hO⟩
  · intro k r k' r' o hFound hFound' hO hO'
    obtain ⟨r₀, hBefore, rfl⟩ := withoutUser_lookup.mp hFound
    obtain ⟨r₀', hBefore', rfl⟩ := withoutUser_lookup.mp hFound'
    rw [clearAuthor_reversesEntryId] at hO hO'
    exact hOk.unique k r₀ k' r₀' o hBefore hBefore' hO hO'

/-! ### One step -/

/-- A step that leaves the database leaves all it keeps. -/
theorem keeps_of_db {w w' : World} (hDb : w'.db = w.db) (hKnown : w'.known = w.known) :
    Keeps w w' := by
  refine keeps_of_entries hKnown (by rw [hDb]) fun k r hRow => ⟨r, ?_, rfl, Nat.le_refl _, ?_⟩
  · rw [hDb]
    exact hRow
  · rw [hDb]

theorem keeps_addEntry {w : World} {c : Nat} {header : EntryRow} {rows : List LineRow}
    (hNew : w.db.entries header.id = none)
    (hRows : ∀ row ∈ rows, row.entryId = header.id ∧ row.orgId = header.orgId) :
    Keeps w (w.finish c (w.db.addEntry header rows)) := by
  refine keeps_of_entries rfl rfl fun k r hRow => ?_
  have hNe := ne_of_new hNew hRow
  exact ⟨r, Table.put_eq_some.mpr (.inr ⟨hNe, hRow⟩), rfl, Nat.le_refl _,
    linesOf_addEntry_ne hRows hNe⟩

/-- Two rows of the same entry in the order of its life. -/
theorem keeps_moved {w : World} {c : Nat} {row : EntryRow} {k₀ : Uuid} {now : Timestamp}
    {target : EntryStatus} (hKey : row.id = k₀) (hRow : w.db.entries k₀ = some row)
    (hRank : row.status.rank ≤ target.rank) :
    Keeps w (w.finish c (w.db.withEntry (row.moved now target))) := by
  refine keeps_of_entries rfl rfl fun k r hFound => ?_
  by_cases hCase : k = k₀
  · subst hCase
    rw [hRow] at hFound
    cases hFound
    exact ⟨row.moved now target, (moved_lookup hKey).mpr (.inl ⟨rfl, rfl⟩), rfl, hRank, rfl⟩
  · exact ⟨r, (moved_lookup hKey).mpr (.inr ⟨hCase, hFound⟩), rfl, Nat.le_refl _, rfl⟩

theorem found_of_findInOrg {db : Db} {id org : Uuid} {row : EntryRow}
    (h : findInOrg db id org = some row) : db.entries id = some row ∧ row.orgId = org := by
  simpa [findInOrg, Option.filter_eq_some_iff] using h

section step

variable {num : NumericText} {w w' : World} (hOk : WorldOk num w)
include hOk

/-- What is left to show of a step once the journal is in order. -/
theorem WorldOk.after (hLines : LinesOk w'.db) (hStornos : StornosOk w'.db)
    (hKnown : ∀ org ∈ w'.db.organizations, org ∈ w'.known) (hKeeps : Keeps w w')
    (hClients : ∀ c p, w'.clients c = some p → w.clients c = some p ∨ PendingOk num w' p) :
    WorldOk num w' ∧ Keeps w w' := by
  refine ⟨⟨hLines, hStornos, hKnown, fun c p hPending => ?_⟩, hKeeps⟩
  rcases hClients c p hPending with hBefore | hNow
  · exact (hOk.pending c p hBefore).keeps hKeeps
  · exact hNow

/-- A client begins an operation, with reads that are good now. -/
theorem WorldOk.begins {client : Nat} {p : Pending} (hNow : PendingOk num w p) :
    WorldOk num (w.begin client p) ∧ Keeps w (w.begin client p) := by
  have hKeeps : Keeps w (w.begin client p) := keeps_of_db rfl rfl
  refine hOk.after hOk.lines hOk.stornos hOk.known hKeeps fun c q hPending => ?_
  rcases Table.put_eq_some.mp hPending with ⟨-, rfl⟩ | ⟨-, hPending⟩
  · exact .inr (hNow.keeps hKeeps)
  · exact .inl hPending

/-- A client ends an operation with a transaction that leaves the journal in order. -/
theorem WorldOk.finishes {client : Nat} {db : Db} (hLines : LinesOk db) (hStornos : StornosOk db)
    (hOrgs : db.organizations = w.db.organizations) (hKeeps : Keeps w (w.finish client db)) :
    WorldOk num (w.finish client db) ∧ Keeps w (w.finish client db) := by
  refine hOk.after hLines hStornos (fun org hOrg => hOk.known org ?_) hKeeps fun c p hPending => ?_
  · rw [← hOrgs]
    exact hOrg
  · exact .inl (Table.drop_eq_some.mp hPending).2

theorem WorldOk.writeDraft {client : Nat} {req : DraftRequest} {now : Timestamp} {id : Uuid}
    {lineIds : Nat → Uuid} {db : Db} (hRead : w.clients client = some (.createDraft req))
    (hWrite : createDraft num now w.db req id lineIds = .ok db) :
    WorldOk num (w.finish client db) ∧ Keeps w (w.finish client db) := by
  have hTwo : 2 ≤ req.lines.length := hOk.pending client _ hRead
  obtain ⟨rows, hRows, hNew, hOrg, rfl, hBalance⟩ := createDraft_ok hWrite
  have hUnder := rows_entry hRows
  have hLength : rows.length = req.lines.length := by simpa [withIds] using hRows.length_eq.symm
  have hSelf : (w.db.addEntry (draftHeader now id req) rows).linesOf id = rows :=
    hOk.lines.linesOf_addEntry hNew hUnder
  have hSome : rows ≠ [] := by
    rintro rfl
    simp at hLength
    omega
  have hZero := hBalance hSome
  change balanceOf ((w.db.addEntry (draftHeader now id req) rows).linesOf id) = 0 at hZero
  have hLines : LinesOk (w.db.addEntry (draftHeader now id req) rows) :=
    hOk.lines.addEntry hNew hOrg hUnder (by omega) (by rwa [← hSelf])
  exact hOk.finishes hLines (hOk.stornos.addDraft hNew rfl rfl hUnder) rfl
    (keeps_addEntry hNew hUnder)

theorem WorldOk.writePost {client : Nat} {org entry : Uuid} {now : Timestamp} {db : Db}
    (hWrite : post now w.db org entry = .ok (some db)) :
    WorldOk num (w.finish client db) ∧ Keeps w (w.finish client db) := by
  obtain ⟨row, hRow, -, hDraft, -, -, rfl⟩ := post_ok hWrite
  have hKey := hOk.lines.keyed entry row hRow
  refine hOk.finishes (hOk.lines.moved hRow) (hOk.stornos.posted hKey hRow hDraft) rfl ?_
  exact keeps_moved hKey hRow (by rw [hDraft]; decide)

theorem WorldOk.writeReverse {client : Nat} {org user : Uuid} {original : EntryRow}
    {lines : List JournalLine} {now : Timestamp} {id : Uuid} {lineIds : Nat → Uuid} {db : Db}
    (hRead : w.clients client = some (.reverse org user original lines))
    (hWrite : reverse num now w.db org user original lines id lineIds = .ok db) :
    WorldOk num (w.finish client db) ∧ Keeps w (w.finish client db) := by
  obtain ⟨⟨-, hThere⟩, hLinesRead⟩ : PendingOk num w (.reverse org user original lines) :=
    hOk.pending client _ hRead
  have hSomeRow : org ∈ w.db.organizations → (w.db.entries original.id).isSome := by
    intro hOrg
    obtain ⟨r, hR, -⟩ := hThere hOrg
    simp [hR]
  obtain ⟨-, -, -, -, hThereNow, -⟩ := reverse_ok hWrite hSomeRow
  obtain ⟨ls, hPerm, rfl⟩ := hLinesRead hThereNow
  obtain ⟨rows, row, storno, hStorno, hPostings, hUnder, hNew, hOrg, hRow, rfl, hPosted, rfl,
    hBalance⟩ := reverse_mirrors hOk.lines.toConstraints hWrite hSomeRow
  have hKey := hOk.lines.keyed _ row hRow
  have hSelf : (w.db.addEntry storno rows).linesOf storno.id = rows :=
    hOk.lines.linesOf_addEntry hNew hUnder
  have hMirror : (rows.map LineRow.posting).Perm
      ((w.db.linesOf original.id).map fun l => l.posting.flip) := by
    rw [hPostings]
    exact hPerm.map _
  have hTwo : 2 ≤ rows.length := by
    have hLength := hMirror.length_eq
    simp only [List.length_map] at hLength
    rw [hLength]
    exact hOk.lines.twoLines _ row hRow
  have hSome : rows ≠ [] := by
    rintro rfl
    simp at hTwo
  have hZero := hBalance hSome
  have hNe : original.id ≠ storno.id := ne_of_new hNew hRow
  have hAdded : LinesOk (w.db.addEntry storno rows) :=
    hOk.lines.addEntry hNew (by rw [hStorno]; exact hOrg) hUnder hTwo hZero
  have hStill : (w.db.addEntry storno rows).entries original.id = some row :=
    Table.put_eq_some.mpr (.inr ⟨hNe, hRow⟩)
  refine hOk.finishes (hAdded.moved hStill) ?_ rfl ?_
  · exact hOk.stornos.reverse hKey hRow hPosted hNew (by rw [hStorno]; rfl) (by rw [hStorno]; rfl)
      (by rw [hStorno]; rfl) hUnder hSelf hMirror
  · refine keeps_of_entries rfl rfl fun k r hFound => ?_
    have hNeK := ne_of_new hNew hFound
    have hLines : (w.db.addEntry storno rows).linesOf k = w.db.linesOf k :=
      linesOf_addEntry_ne hUnder hNeK
    by_cases hCase : k = original.id
    · subst hCase
      rw [hRow] at hFound
      cases hFound
      exact ⟨row.moved now .reversed, (moved_lookup hKey).mpr (.inl ⟨rfl, rfl⟩), rfl,
        by rw [hPosted]; exact Nat.le_succ 1, hLines⟩
    · exact ⟨r, (moved_lookup hKey).mpr
        (.inr ⟨hCase, Table.put_eq_some.mpr (.inr ⟨hNeK, hFound⟩)⟩), rfl, Nat.le_refl _, hLines⟩

theorem WorldOk.createOrganization {org : Uuid} (hNew : org ∉ w.known) :
    WorldOk num { w with
        db := { w.db with organizations := org :: w.db.organizations }, known := org :: w.known } ∧
      Keeps w { w with
        db := { w.db with organizations := org :: w.db.organizations }, known := org :: w.known } := by
  refine hOk.after ?_ ⟨hOk.stornos.storno, hOk.stornos.reversed, hOk.stornos.unique⟩ ?_ ?_
    fun c p hPending => .inl hPending
  · exact ⟨⟨hOk.lines.keyed, fun k r hRow =>
      List.mem_cons_of_mem _ (hOk.lines.organization k r hRow), hOk.lines.parent⟩,
      hOk.lines.balance, hOk.lines.twoLines⟩
  · intro o hO
    rcases List.mem_cons.mp hO with rfl | hO
    · exact List.mem_cons_self
    · exact List.mem_cons_of_mem _ (hOk.known o hO)
  · refine ⟨fun o hO => List.mem_cons_of_mem _ hO, fun o hKnown hO => ?_,
      fun k r hRow _ _ => ⟨r, hRow, rfl, Nat.le_refl _, rfl⟩⟩
    rcases List.mem_cons.mp hO with rfl | hO
    · exact absurd hKnown hNew
    · exact hO

theorem WorldOk.deleteOrganization (org : Uuid) :
    WorldOk num { w with db := w.db.withoutOrganization org } ∧
      Keeps w { w with db := w.db.withoutOrganization org } := by
  refine hOk.after (hOk.lines.withoutOrganization org)
    (hOk.stornos.withoutOrganization hOk.lines org)
    (fun o hO => hOk.known o (List.mem_filter.mp hO).1) ?_ fun c p hPending => .inl hPending
  refine ⟨fun o hO => hO, fun o _ hO => (List.mem_filter.mp hO).1, fun k r hRow _ hStays => ?_⟩
  have hNe : r.orgId ≠ org := by simpa using (List.mem_filter.mp hStays).2
  exact ⟨r, withoutOrganization_lookup.mpr ⟨hRow, hNe⟩, rfl, Nat.le_refl _,
    linesOf_withoutOrganization hOk.lines hRow hNe⟩

theorem WorldOk.deleteUser (user : Uuid) :
    WorldOk num { w with db := w.db.withoutUser user } ∧ Keeps w { w with db := w.db.withoutUser user } := by
  refine hOk.after (hOk.lines.withoutUser user) (hOk.stornos.withoutUser user) hOk.known ?_
    fun c p hPending => .inl hPending
  refine keeps_of_entries rfl rfl fun k r hRow => ⟨r.clearAuthor user, ?_, ?_, ?_, rfl⟩
  · exact withoutUser_lookup.mpr ⟨r, hRow, rfl⟩
  · exact clearAuthor_orgId user r
  · rw [clearAuthor_status]

/-- Every step keeps the invariant and what there was. -/
theorem WorldOk.step (h : Step num w w') : WorldOk num w' ∧ Keeps w w' := by
  cases h with
  | readDraft client req hIdle hChecks =>
    refine hOk.begins (p := .createDraft req) ?_
    simp only [checkDraft, bind_eq_ok, ensure_eq_ok] at hChecks
    obtain ⟨_, hTwo, -⟩ := hChecks
    exact hTwo
  | writeDraft client req now id lineIds db hRead hWrite => exact hOk.writeDraft hRead hWrite
  | readPost client org entry row hIdle hFind hDraft => exact hOk.begins trivial
  | writePost client org entry now db hRead hWrite => exact hOk.writePost hWrite
  | readOriginal client org user entry original hIdle hFind hPosted =>
    obtain ⟨hRow, rfl⟩ := found_of_findInOrg hFind
    have hKey := hOk.lines.keyed entry original hRow
    refine hOk.begins (p := .reverseHeader original.orgId user original) ⟨?_, fun _ => ?_⟩
    · exact hOk.known _ (hOk.lines.organization entry original hRow)
    · exact ⟨original, by rw [hKey]; exact hRow, rfl, by rw [hPosted]; decide⟩
  | readLines client org user original hRead =>
    have hFrozen : OriginalFrozen w org original := hOk.pending client _ hRead
    refine hOk.begins (p := .reverse org user original _) ⟨hFrozen, fun _ => ?_⟩
    exact ⟨_, List.mergeSort_perm _ _, rfl⟩
  | writeReverse client org user original lines now id lineIds db hRead hWrite =>
    exact hOk.writeReverse hRead hWrite
  | abandon client =>
    exact hOk.finishes hOk.lines hOk.stornos rfl (keeps_of_db rfl rfl)
  | createOrganization org hNew => exact hOk.createOrganization hNew
  | deleteOrganization org => exact hOk.deleteOrganization org
  | deleteUser user => exact hOk.deleteUser user
  | otherTables users accounts counterparties =>
    refine hOk.after ⟨⟨hOk.lines.keyed, hOk.lines.organization, hOk.lines.parent⟩,
      hOk.lines.balance, hOk.lines.twoLines⟩ ⟨hOk.stornos.storno, hOk.stornos.reversed, hOk.stornos.unique⟩ hOk.known ?_
      fun c p hPending => .inl hPending
    exact keeps_of_entries rfl rfl fun k r hRow => ⟨r, hRow, rfl, Nat.le_refl _, rfl⟩

end step

/-! ### Runs -/

theorem WorldOk.initial (num : NumericText) : WorldOk num World.initial where
  lines := ⟨⟨by simp [World.initial], by simp [World.initial], by simp [World.initial]⟩,
    by simp [World.initial], by simp [World.initial]⟩
  stornos := ⟨by simp [World.initial], by simp [World.initial], by simp [World.initial]⟩
  known := by simp [World.initial]
  pending := by simp [World.initial]

theorem Reachable.ok {num : NumericText} {w : World} (h : Reachable num w) : WorldOk num w :=
  Run.invariant (fun _ _ hOk hStep => (hOk.step hStep).1) h (WorldOk.initial num)

/-- What one state has, every later state keeps. -/
theorem Reachable.keeps {num : NumericText} {w w' : World} (h : Reachable num w)
    (hRun : Run (Step num) w w') : Keeps w w' :=
  Run.relates Keeps.refl (fun _ _ _ => Keeps.trans) (fun _ _ hOk hStep => (hOk.step hStep).1)
    (fun _ _ hOk hStep => (hOk.step hStep).2) hRun h.ok

/-- `storno` is an entry that is no draft and names `original`. -/
def NamesOriginal (db : Db) (storno original : Uuid) : Prop :=
  ∃ r, db.entries storno = some r ∧ r.status ≠ .draft ∧ r.reversesEntryId = some original

/-- The journal in every state that clients reach in any interleaving, and its entries in every
state after it. -/
theorem journal_reachable {num : NumericText} {w : World} (h : Reachable num w) :
    (∀ k r, w.db.entries k = some r → r.status ≠ .draft →
      2 ≤ (w.db.linesOf k).length ∧ Balanced (w.db.linesOf k)) ∧
    (∀ k r, w.db.entries k = some r →
      (r.status = .reversed ↔ ∃! storno, NamesOriginal w.db storno k) ∧
      ∀ storno, NamesOriginal w.db storno k → Mirrors w.db storno k) ∧
    (∀ w', Run (Step num) w w' → ∀ k r, w.db.entries k = some r →
      r.orgId ∈ w'.db.organizations → ∃ r', w'.db.entries k = some r' ∧
        r.status.rank ≤ r'.status.rank ∧ w'.db.linesOf k = w.db.linesOf k) := by
  have hOk := h.ok
  refine ⟨?_, ?_, ?_⟩
  · intro k r hRow _
    exact ⟨hOk.lines.twoLines k r hRow, balanced_of_balanceOf (hOk.lines.balance k r hRow)⟩
  · intro k r hRow
    refine ⟨⟨fun hReversed => ?_, ?_⟩, ?_⟩
    · obtain ⟨storno, r', hStorno, hNames⟩ := hOk.stornos.reversed k r hRow hReversed
      refine ⟨storno, ⟨r', hStorno, (hOk.stornos.storno _ _ _ hStorno hNames).1, hNames⟩, ?_⟩
      rintro other ⟨r'', hOther, -, hNames'⟩
      exact hOk.stornos.unique other r'' storno r' k hOther hStorno hNames' hNames
    · rintro ⟨storno, ⟨r', hStorno, -, hNames⟩, -⟩
      obtain ⟨-, ⟨original, hOriginal, -, hReversed⟩, -⟩ :=
        hOk.stornos.storno storno r' k hStorno hNames
      rw [hRow] at hOriginal
      cases hOriginal
      exact hReversed
    · rintro storno ⟨r', hStorno, -, hNames⟩
      exact (hOk.stornos.storno storno r' k hStorno hNames).2.2
  · intro w' hRun k r hRow hOrg
    have hKnown := hOk.known _ (hOk.lines.organization k r hRow)
    obtain ⟨r', hRow', -, hRank, hLines⟩ := (h.keeps hRun).entry k r hRow hKnown hOrg
    exact ⟨r', hRow', hRank, hLines⟩

/-- A sale of 112.00 with 12.00 of VAT in it. -/
def saleRequest : DraftRequest where
  orgId := 1
  userId := 7
  entryDate := .firstOfMarch
  description := "Sale"
  lines := [⟨"1210", "debit", "112.00", none, none⟩, ⟨"6010", "credit", "112.00", none, some "12.00"⟩]

/-- Organisation 1 with user 7 and an empty journal. -/
def saleStart : Db := ⟨[1], [7], systemChart, [], Table.empty, []⟩

/-- The two transactions that draft and post a request on that journal. -/
def draftedAndPosted (num : NumericText) (req : DraftRequest) : Except DbError (Option Db) := do
  post 200 (← createDraft num 100 saleStart req 10 (· + 20)) 1 10

/-- No client has another draft to write. -/
def OnlyDraft (req : DraftRequest) (w : World) : Prop :=
  ∀ c r, w.clients c = some (.createDraft r) → r = req

section onlyDraft

variable {num : NumericText} {text : JournalLine → Prop} {req : DraftRequest} {w w' : World} {client : Nat}

theorem OnlyDraft.begins (h : OnlyDraft req w) {p : Pending} (hp : ∀ r, p = .createDraft r → r = req) :
    OnlyDraft req (w.begin client p) := by
  intro c r hPending
  rcases Table.put_eq_some.mp hPending with ⟨-, hSame⟩ | ⟨-, hBefore⟩
  · exact hp r hSame
  · exact h c r hBefore

theorem OnlyDraft.finishes (h : OnlyDraft req w) {db : Db} : OnlyDraft req (w.finish client db) :=
  fun c r hPending => h c r (Table.drop_eq_some.mp hPending).2

theorem OnlyDraft.draftsStep (h : OnlyDraft req w') (hText : ∀ line ∈ req.lines, text line)
    (hStep : Step num w w') : DraftsStep num text w w' :=
  ⟨hStep, fun c r _ hPending => h c r hPending ▸ hText⟩

end onlyDraft

/-- The empty journal is reached without a draft. -/
theorem saleStart_run {num : NumericText} {text : JournalLine → Prop} :
    Run (DraftsStep num text) World.initial ⟨saleStart, [1], Table.empty⟩ := by
  have hCreated : DraftsStep num text World.initial ⟨⟨[1], [], systemChart, [], Table.empty, []⟩, [1], Table.empty⟩ :=
    ⟨.createOrganization World.initial 1 (by decide), fun c r _ hPending => by cases hPending⟩
  exact (Relation.ReflTransGen.refl.tail hCreated).tail
    ⟨.otherTables _ [7] systemChart [], fun c r _ hPending => by cases hPending⟩

theorem saleStart_reachable {num : NumericText} : Reachable num ⟨saleStart, [1], Table.empty⟩ :=
  Run.mono (fun _ _ hStep => hStep.1) (@saleStart_run num fun _ => True)

/-- What drafting and posting on that journal leaves is reached by a client that drafts nothing else. -/
theorem draftedAndPosted_run {num : NumericText} {text : JournalLine → Prop} {req : DraftRequest} {p : Db → Bool}
    (hChecks : checkDraft saleStart req = .ok ()) (hText : ∀ line ∈ req.lines, text line)
    (h : (draftedAndPosted num req).toOption.join.any p = true) :
    ∃ w, Run (DraftsStep num text) World.initial w ∧ p w.db = true := by
  cases hRun : draftedAndPosted num req with
  | error e => simp [hRun, Except.toOption] at h
  | ok result =>
    cases result with
    | none => simp [hRun, Except.toOption] at h
    | some db =>
      simp only [hRun, Except.toOption, Option.join_some, Option.any_some] at h
      obtain ⟨drafted, hDraft, hPost⟩ := bind_eq_ok.mp hRun
      obtain ⟨row, hRow, hOrg, hIsDraft, -⟩ := post_ok hPost
      have hFind : findInOrg drafted 10 1 = some row := by simp [findInOrg, hRow, hOrg]
      let empty : World := ⟨saleStart, [1], Table.empty⟩
      let asked := empty.begin 0 (.createDraft req)
      let posting := (asked.finish 0 drafted).begin 0 (.post 1 10)
      have hEmpty : OnlyDraft req empty := fun c r hPending => by cases hPending
      have hAsked : OnlyDraft req asked := hEmpty.begins fun r hr => by cases hr; rfl
      have hPosting : OnlyDraft req posting := hAsked.finishes.begins fun r hr => by cases hr
      refine ⟨posting.finish 0 db, ?_, h⟩
      exact (((saleStart_run.tail (hAsked.draftsStep hText (.readDraft _ 0 req rfl hChecks))).tail
        (hAsked.finishes.draftsStep hText (.writeDraft _ 0 req 100 10 (· + 20) drafted rfl hDraft))).tail
        (hPosting.draftsStep hText (.readPost _ 0 1 10 row rfl hFind hIsDraft))).tail
        (hPosting.finishes.draftsStep hText (.writePost _ 0 1 10 200 db rfl hPost))

/-- What drafting and posting on that journal leaves is reached by a client. -/
theorem draftedAndPosted_reachable {num : NumericText} {req : DraftRequest} {p : Db → Bool}
    (hChecks : checkDraft saleStart req = .ok ())
    (h : (draftedAndPosted num req).toOption.join.any p = true) : ∃ w, Reachable num w ∧ p w.db = true := by
  obtain ⟨w, hRun, hDb⟩ := @draftedAndPosted_run num (fun _ => True) req p hChecks (fun _ _ => trivial) h
  exact ⟨w, Run.mono (fun _ _ hStep => hStep.1) hRun, hDb⟩

/-- The two transactions that draft and post the sale. -/
def salePosted : Except DbError (Option Db) := do
  post 200 (← createDraft .plain 100 saleStart saleRequest 10 (· + 20)) 1 10

theorem salePosted_status :
    salePosted.toOption.join.map (fun db => (db.entries 10).map EntryRow.status)
      = some (some .posted) := by
  decide +kernel

theorem salePosted_reachable : ∃ w, Reachable .plain w ∧
    (w.db.entries 10).map EntryRow.status = some .posted := by
  have hChecks : checkDraft saleStart saleRequest = .ok () := by decide +kernel
  obtain ⟨w, hReachable, hStatus⟩ := @draftedAndPosted_reachable .plain saleRequest
    (fun db => (db.entries 10).map EntryRow.status = some .posted) hChecks (by decide +kernel)
  exact ⟨w, hReachable, by simpa using hStatus⟩

theorem journal_reachable_sale : ∃ w, Reachable .plain w ∧
    (w.db.entries 10).map EntryRow.status = some .posted ∧
    2 ≤ (w.db.linesOf 10).length ∧ Balanced (w.db.linesOf 10) := by
  obtain ⟨w, hReachable, hStatus⟩ := salePosted_reachable
  obtain ⟨r, hRow, hPosted⟩ := Option.map_eq_some_iff.mp hStatus
  exact ⟨w, hReachable, hStatus, (journal_reachable hReachable).1 10 r hRow (by rw [hPosted]; decide)⟩

end CyberAccountant.Ledger
