import CyberAccountant.Library.Checked
import CyberAccountant.Library.Table
import CyberAccountant.Ledger.Accounts
import CyberAccountant.Ledger.Money
import Mathlib.Data.List.Perm.Basic

/-! The tables of the journal with their triggers: rows of `journal_entries` and `journal_lines`,
the changes that a statement makes to them row by row, the trigger functions in the form that
migration 022 gives them, and the checks of the columns and keys. -/

namespace CyberAccountant.Ledger

open CyberAccountant.Library

abbrev Timestamp := Nat

def IsLeapYear (year : Nat) : Prop := year % 4 = 0 ∧ (year % 100 ≠ 0 ∨ year % 400 = 0)

instance (year : Nat) : Decidable (IsLeapYear year) := inferInstanceAs (Decidable (_ ∧ _))

def daysInMonth (year month : Nat) : Nat :=
  if month = 2 then if IsLeapYear year then 29 else 28
  else if month = 4 ∨ month = 6 ∨ month = 9 ∨ month = 11 then 30
  else 31

/-- The numbers make a day of the calendar. -/
def IsCalendarDay (year month day : Nat) : Prop :=
  1 ≤ year ∧ 1 ≤ month ∧ month ≤ 12 ∧ 1 ≤ day ∧ day ≤ daysInMonth year month

instance (year month day : Nat) : Decidable (IsCalendarDay year month day) :=
  inferInstanceAs (Decidable (_ ∧ _))

/-- A value of the type `DATE`. -/
structure Date where
  year : Nat
  month : Nat
  day : Nat
  calendar : IsCalendarDay year month day
  deriving DecidableEq

namespace Date

instance : LE Date where
  le d e := d.year < e.year ∨ d.year = e.year ∧
    (d.month < e.month ∨ d.month = e.month ∧ d.day ≤ e.day)

instance (d e : Date) : Decidable (d ≤ e) := inferInstanceAs (Decidable (_ ∨ _))

theorem le_refl (d : Date) : d ≤ d := .inr ⟨rfl, .inr ⟨rfl, Nat.le_refl _⟩⟩

theorem le_trans {a b c : Date} (hAB : a ≤ b) (hBC : b ≤ c) : a ≤ c := by
  change _ ∨ _ at hAB hBC ⊢
  omega

/-- The day of the runs on fixed rows. -/
def firstOfMarch : Date := ⟨2026, 3, 1, by decide⟩

theorem isCalendarDay_newYear : IsCalendarDay 2026 1 1 := by decide

theorem isCalendarDay_endOfMarch : IsCalendarDay 2026 3 31 := by decide

theorem isCalendarDay_endOfJune : IsCalendarDay 2026 6 30 := by decide

/-- The first and the last days of the quarter and of the half-year of the same runs. -/
def newYear : Date := ⟨2026, 1, 1, isCalendarDay_newYear⟩

def endOfMarch : Date := ⟨2026, 3, 31, isCalendarDay_endOfMarch⟩

def endOfJune : Date := ⟨2026, 6, 30, isCalendarDay_endOfJune⟩

end Date

inductive EntryStatus where
  | draft
  | posted
  | reversed
  deriving DecidableEq

def EntryStatus.text : EntryStatus → String
  | .draft => "draft"
  | .posted => "posted"
  | .reversed => "reversed"

/-- The place of a status in the life of an entry. -/
def EntryStatus.rank : EntryStatus → Nat
  | .draft => 0
  | .posted => 1
  | .reversed => 2

inductive Side where
  | debit
  | credit
  deriving DecidableEq

namespace Side

def text : Side → String
  | .debit => "debit"
  | .credit => "credit"

/-- The column check `side IN ('debit','credit')`. -/
def ofText? (s : String) : Option Side :=
  if s = "debit" then some .debit else if s = "credit" then some .credit else none

def flip : Side → Side
  | .debit => .credit
  | .credit => .debit

@[simp] theorem flip_flip (s : Side) : s.flip.flip = s := by cases s <;> rfl

@[simp] theorem ofText?_text (s : Side) : ofText? s.text = some s := by cases s <;> rfl

end Side

/-- A row of `journal_entries`. -/
structure EntryRow where
  id : Uuid
  orgId : Uuid
  entryDate : Date
  description : String
  status : EntryStatus
  reversesEntryId : Option Uuid
  createdByUserId : Option Uuid
  createdByRunId : Option Uuid
  createdAt : Timestamp
  updatedAt : Timestamp
  deriving DecidableEq

/-- A row of `journal_lines`. -/
structure LineRow where
  id : Uuid
  orgId : Uuid
  entryId : Uuid
  accountCode : String
  side : Side
  amount : Amount
  counterpartyId : Option Uuid
  vatAmount : Option VatAmount
  createdAt : Timestamp
  deriving DecidableEq

/-- What the journal reads of a row of `counterparties`. -/
structure Counterparty where
  id : Uuid
  orgId : Uuid
  deriving DecidableEq

/-- The tables that the journal reads and writes. -/
structure Db where
  organizations : List Uuid
  users : List Uuid
  accounts : Chart
  counterparties : List Counterparty
  entries : Table Uuid EntryRow
  lines : List LineRow

/-- The lines of an entry. -/
def Db.linesOf (db : Db) (entry : Uuid) : List LineRow := db.lines.filter (·.entryId = entry)

/-- The change of one row: `OLD` and `NEW` of its triggers. -/
inductive RowOp (ρ : Type) where
  | insert (new : ρ)
  | update (old new : ρ)
  | delete (old : ρ)

/-- The change of one row of either table of the journal. -/
inductive JournalOp where
  | entry (op : RowOp EntryRow)
  | line (op : RowOp LineRow)

/-- Why the database refuses a statement or a commit. -/
inductive DbError where
  | unbalanced (entry : Uuid) (diff : Numeric)
  | numericOverflow
  | insertOnly
  | postedImmutable
  | reversedImmutable
  | draftNotReversed
  | noLines
  | linesImmutable (status : EntryStatus)
  | cannotAddLines (status : EntryStatus)
  | linesCannotMove
  | uniqueViolation
  | foreignKeyViolation
  | checkViolation
  | invalidText
  deriving DecidableEq

/-- The text after which a message of `journal_entry_must_balance` shows a `NUMERIC(18,2)`. -/
def Numeric.shown : Numeric → String
  | .nan => "NaN"
  | .tiyn x => (if x < 0 then "-" else "") ++ tiynText x.natAbs

def DbError.message : DbError → String
  | .unbalanced entry diff =>
    "journal entry " ++ toString entry ++ " is unbalanced by " ++ diff.shown
  | .numericOverflow => "numeric field overflow"
  | .insertOnly => "posted/reversed journal entries are insert-only"
  | .postedImmutable => "posted journal entries are immutable (use storno)"
  | .reversedImmutable => "reversed journal entries are immutable"
  | .draftNotReversed => "draft cannot be reversed (post it first)"
  | .noLines => "cannot post an entry with no lines"
  | .linesImmutable status => "lines of a " ++ status.text ++ " entry are immutable"
  | .cannotAddLines status => "cannot add lines to a " ++ status.text ++ " entry"
  | .linesCannotMove => "journal lines cannot move between entries or orgs"
  | .uniqueViolation => "duplicate key value violates unique constraint"
  | .foreignKeyViolation => "insert or update violates foreign key constraint"
  | .checkViolation => "new row violates check constraint"
  | .invalidText => "invalid input syntax"

/-! ### Triggers -/

/-- `CASE side WHEN 'debit' THEN amount ELSE -amount END`. -/
def signedAmount (l : LineRow) : Numeric :=
  match l.side with
  | .debit => l.amount.value
  | .credit => -l.amount.value

/-- Debits less credits. -/
def balanceOf (ls : List LineRow) : Numeric := (ls.map signedAmount).sum

/-- `COALESCE(NEW.entry_id, OLD.entry_id)`. -/
def RowOp.entryId : RowOp LineRow → Uuid
  | .insert new => new.entryId
  | .update _ new => new.entryId
  | .delete old => old.entryId

/-- `journal_entry_must_balance`, which runs at the end of the transaction for every line that the
transaction inserted, updated or deleted. -/
def journalEntryMustBalance (db : Db) (op : RowOp LineRow) : Except DbError Unit := do
  let eid := op.entryId
  let diff := balanceOf (db.linesOf eid)
  ensure diff.Fits .numericOverflow
  ensure (diff = 0) (.unbalanced eid diff)

/-- `to_jsonb(row) - 'updated_at'`. -/
def EntryRow.withoutUpdatedAt (row : EntryRow) : EntryRow := { row with updatedAt := 0 }

/-- The branch of `journal_entries_immutability` for the `ON DELETE SET NULL` of the author. -/
def AuthorCleared (db : Db) (old new : EntryRow) : Prop :=
  (∃ u, old.createdByUserId = some u ∧ u ∉ db.users) ∧ new.createdByUserId = none ∧
    new.withoutUpdatedAt = { old with createdByUserId := none }.withoutUpdatedAt

/-- The condition of the one transition that `journal_entries_immutability` names for a posted
entry. -/
def StornoUpdate (old new : EntryRow) : Prop :=
  new.status = .reversed ∧ new.entryDate = old.entryDate ∧ new.description = old.description ∧
    new.orgId = old.orgId ∧ new.reversesEntryId = old.reversesEntryId

instance (db : Db) (old new : EntryRow) : Decidable (AuthorCleared db old new) :=
  match h : old.createdByUserId with
  | none => .isFalse fun ⟨⟨_, hSome, _⟩, _⟩ => by rw [h] at hSome; cases hSome
  | some u =>
    decidable_of_iff (u ∉ db.users ∧ new.createdByUserId = none ∧
        new.withoutUpdatedAt = { old with createdByUserId := none }.withoutUpdatedAt)
      ⟨fun ⟨hGone, hRest⟩ => ⟨⟨u, h, hGone⟩, hRest⟩, fun ⟨⟨v, hSome, hGone⟩, hRest⟩ =>
        ⟨by rw [h] at hSome; cases hSome; exact hGone, hRest⟩⟩

instance (old new : EntryRow) : Decidable (StornoUpdate old new) :=
  inferInstanceAs (Decidable (_ ∧ _))

/-- `journal_entries_immutability`.  It runs before an update or a deletion of a row; an insertion
is not on the list of events of its trigger. -/
def journalEntriesImmutability (db : Db) : RowOp EntryRow → Except DbError Unit
  | .insert _ => .ok ()
  | .delete old =>
    if old.orgId ∉ db.organizations then .ok ()
    else if old.status ≠ .draft then .error .insertOnly
    else .ok ()
  | .update old new =>
    if old.orgId ∉ db.organizations then .ok ()
    else if AuthorCleared db old new then .ok ()
    else
      match old.status with
      | .posted => if StornoUpdate old new then .ok () else .error .postedImmutable
      | .reversed => .error .reversedImmutable
      | .draft =>
        if new.status = .reversed then .error .draftNotReversed
        else if new.status = .posted ∧ db.linesOf new.id = [] then .error .noLines
        else .ok ()

/-- `journal_lines_frozen_after_post`.  It runs before every change of a line. -/
def journalLinesFrozenAfterPost (db : Db) (op : RowOp LineRow) : Except DbError Unit :=
  match db.entries op.entryId with
  -- The parent is not visible: it was deleted earlier in the same transaction.
  | none => .ok ()
  | some parent =>
    match op with
    | .insert _ => ensure (parent.status = .draft) (.cannotAddLines parent.status)
    | .delete _ => ensure (parent.status = .draft) (.linesImmutable parent.status)
    | .update old new => do
      ensure (parent.status = .draft) (.linesImmutable parent.status)
      ensure (new.entryId = old.entryId ∧ new.orgId = old.orgId) .linesCannotMove

/-- `touch_updated_at`. -/
def touchUpdatedAt (now : Timestamp) (row : EntryRow) : EntryRow := { row with updatedAt := now }

/-! ### Statements -/

/-- The triggers that run before the change of a row. -/
def beforeRow (db : Db) : JournalOp → Except DbError Unit
  | .entry op => journalEntriesImmutability db op
  | .line op => journalLinesFrozenAfterPost db op

/-- The row that the touch trigger leaves to be written. -/
def JournalOp.touched (now : Timestamp) : JournalOp → JournalOp
  | .entry (.update old new) => .entry (.update old (touchUpdatedAt now new))
  | op => op

/-- The row that a change replaces or removes is there as it was read, and a new key is free. -/
def KeysOk (db : Db) : JournalOp → Prop
  | .entry (.insert new) => db.entries new.id = none
  | .entry (.update old new) =>
    db.entries old.id = some old ∧ (new.id = old.id ∨ db.entries new.id = none)
  | .entry (.delete old) => db.entries old.id = some old
  | .line (.insert new) => new.id ∉ db.lines.map LineRow.id
  | .line (.update old new) =>
    old ∈ db.lines ∧ (new.id = old.id ∨ new.id ∉ db.lines.map LineRow.id)
  | .line (.delete old) => old ∈ db.lines

instance (db : Db) : (op : JournalOp) → Decidable (KeysOk db op)
  | .entry (.insert _) | .entry (.delete _) => inferInstanceAs (Decidable (_ = _))
  | .entry (.update _ _) => inferInstanceAs (Decidable (_ ∧ (_ = _ ∨ _ = _)))
  | .line (.insert _) => inferInstanceAs (Decidable (_ ∉ _))
  | .line (.update _ _) => inferInstanceAs (Decidable (_ ∈ _ ∧ (_ = _ ∨ _ ∉ _)))
  | .line (.delete _) => inferInstanceAs (Decidable (_ ∈ _))

/-- The tables after the change of a row. -/
def Db.write (db : Db) : JournalOp → Db
  | .entry (.insert new) => { db with entries := db.entries.put new.id new }
  | .entry (.update old new) => { db with entries := (db.entries.drop old.id).put new.id new }
  | .entry (.delete old) => { db with entries := db.entries.drop old.id }
  | .line (.insert new) => { db with lines := db.lines ++ [new] }
  | .line (.update old new) =>
    { db with lines := db.lines.map fun l => if l.id = old.id then new else l }
  | .line (.delete old) => { db with lines := db.lines.filter (·.id ≠ old.id) }

/-- One row of a statement: its triggers, its keys, and then the change. -/
def Db.writeRow (now : Timestamp) (db : Db) (op : JournalOp) : Except DbError Db := do
  beforeRow db op
  ensure (KeysOk db op) .uniqueViolation
  pure (db.write (op.touched now))

/-- The rows that the new row of a change refers to exist. -/
def ReferencesExist (db : Db) : JournalOp → Prop
  | .entry (.insert new) | .entry (.update _ new) =>
    new.orgId ∈ db.organizations ∧ (∀ e ∈ new.reversesEntryId, (db.entries e).isSome) ∧
      ∀ u ∈ new.createdByUserId, u ∈ db.users
  | .line (.insert new) | .line (.update _ new) =>
    (db.entries new.entryId).map EntryRow.orgId = some new.orgId ∧
      ∀ c ∈ new.counterpartyId, c ∈ db.counterparties.map Counterparty.id
  | _ => True

instance (db : Db) : (op : JournalOp) → Decidable (ReferencesExist db op)
  | .entry (.insert new) | .entry (.update _ new) =>
    inferInstanceAs (Decidable (new.orgId ∈ db.organizations ∧
      (∀ e ∈ new.reversesEntryId, (db.entries e).isSome) ∧ ∀ u ∈ new.createdByUserId, u ∈ db.users))
  | .line (.insert new) | .line (.update _ new) =>
    inferInstanceAs (Decidable ((db.entries new.entryId).map EntryRow.orgId = some new.orgId ∧
      ∀ c ∈ new.counterpartyId, c ∈ db.counterparties.map Counterparty.id))
  | .entry (.delete _) | .line (.delete _) => .isTrue trivial

/-- A statement that changes one row. -/
def Db.exec (now : Timestamp) (db : Db) (op : JournalOp) : Except DbError Db := do
  let db' ← db.writeRow now op
  ensure (ReferencesExist db' op) .foreignKeyViolation
  pure db'

/-! ### Balance -/

/-- The total of the lines on one side. -/
def sideTotal (side : Side) (ls : List LineRow) : Numeric :=
  ((ls.filter (·.side = side)).map fun l => l.amount.value).sum

/-- Double entry: the amounts are positive numbers, and the debits make what the credits make. -/
structure Balanced (ls : List LineRow) : Prop where
  positive : ∀ l ∈ ls, ∃ t : Int, l.amount.value = .tiyn t ∧ 0 < t
  total : ∃ t : Int, sideTotal .debit ls = .tiyn t ∧ sideTotal .credit ls = .tiyn t

theorem Numeric.tiyn_of_neg {x : Numeric} {t : Int} (h : -x = .tiyn t) : x = .tiyn (-t) := by
  cases x with
  | nan => cases h
  | tiyn y =>
    rw [Numeric.neg_tiyn, Numeric.tiyn.injEq] at h
    rw [← h, Int.neg_neg]

theorem Numeric.add_eq_tiyn {x y : Numeric} {t : Int} (h : x + y = .tiyn t) :
    ∃ a b, x = .tiyn a ∧ y = .tiyn b ∧ t = a + b := by
  cases x with
  | nan => cases h
  | tiyn a =>
    cases y with
    | nan => cases h
    | tiyn b =>
      rw [Numeric.tiyn_add_tiyn, Numeric.tiyn.injEq] at h
      exact ⟨a, b, rfl, rfl, h.symm⟩

/-- A balance that is a number is the difference of two totals that are numbers. -/
theorem balanceOf_eq_tiyn {ls : List LineRow} {d : Int} (h : balanceOf ls = .tiyn d) :
    (∀ l ∈ ls, ∃ t : Int, l.amount.value = .tiyn t) ∧
      ∃ debit credit : Int, sideTotal .debit ls = .tiyn debit ∧
        sideTotal .credit ls = .tiyn credit ∧ d = debit - credit := by
  induction ls generalizing d with
  | nil =>
    have hZero : (0 : Int) = d := by simpa [balanceOf, Numeric.zero_def] using h
    exact ⟨by simp, 0, 0, rfl, rfl, by omega⟩
  | cons l ls ih =>
    obtain ⟨a, b, hHead, hTail, rfl⟩ := Numeric.add_eq_tiyn (x := signedAmount l) h
    obtain ⟨hAll, debit, credit, hDebit, hCredit, rfl⟩ := ih hTail
    cases hSide : l.side with
    | debit =>
      have hAmount : l.amount.value = .tiyn a := by simpa [signedAmount, hSide] using hHead
      refine ⟨List.forall_mem_cons.mpr ⟨⟨a, hAmount⟩, hAll⟩, a + debit, credit, ?_, ?_, by omega⟩
      · have hTotal : sideTotal .debit (l :: ls) = l.amount.value + sideTotal .debit ls := by
          simp [sideTotal, hSide]
        rw [hTotal, hAmount, hDebit, Numeric.tiyn_add_tiyn]
      · simpa [sideTotal, hSide] using hCredit
    | credit =>
      have hAmount : l.amount.value = .tiyn (-a) :=
        Numeric.tiyn_of_neg (by simpa [signedAmount, hSide] using hHead)
      refine ⟨List.forall_mem_cons.mpr ⟨⟨-a, hAmount⟩, hAll⟩, debit, -a + credit, ?_, ?_, by omega⟩
      · simpa [sideTotal, hSide] using hDebit
      · have hTotal : sideTotal .credit (l :: ls) = l.amount.value + sideTotal .credit ls := by
          simp [sideTotal, hSide]
        rw [hTotal, hAmount, hCredit, Numeric.tiyn_add_tiyn]

/-- What the deferred trigger checks is double entry. -/
theorem balanced_of_balanceOf {ls : List LineRow} (h : balanceOf ls = 0) : Balanced ls := by
  obtain ⟨hNumbers, debit, credit, hDebit, hCredit, hDiff⟩ := balanceOf_eq_tiyn h
  refine ⟨fun l hl => ?_, debit, hDebit, ?_⟩
  · obtain ⟨t, hT⟩ := hNumbers l hl
    have hPos := l.amount.positive
    rw [hT] at hPos
    exact ⟨t, hT, hPos⟩
  · rw [hCredit, show credit = debit by omega]

end CyberAccountant.Ledger
