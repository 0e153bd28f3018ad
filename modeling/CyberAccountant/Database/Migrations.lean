import CyberAccountant.Library.Table
import CyberAccountant.Library.Transition
import Mathlib.Data.List.Infix
import Mathlib.Data.List.Nodup
import Mathlib.Data.List.Perm.Basic

/-! The migration runner, booted by any number of instances at once.  An instance scans the directory,
reads the versions applied and takes the files one by one under an advisory lock, in a transaction or, for
a file that opts out, in autocommit.  Its statements come in between those of the others. -/

namespace CyberAccountant.Database

open CyberAccountant.Library

/-! ### The directory -/

structure MigrationFile where
  version : Nat
  name : String
  deriving DecidableEq

def decimal (digits : List Char) : Nat :=
  digits.foldl (fun n c => 10 * n + (c.toNat - '0'.toNat)) 0

/-- The match of a file name with `^(\d+)[_-].*\.sql$`. -/
def parseMigration (name : String) : Option MigrationFile :=
  let digits := name.toList.takeWhile Char.isDigit
  match name.toList.dropWhile Char.isDigit with
  | [] => none
  | separator :: tail =>
    if digits ≠ [] ∧ (separator = '_' ∨ separator = '-') ∧ ".sql".toList <:+ tail ∧
        '\n' ∉ tail ∧ '\r' ∉ tail then
      some ⟨decimal digits, name⟩
    else none

def migrationFiles (dir : List String) : List MigrationFile := dir.filterMap parseMigration

/-- What `std::stoi` takes. -/
def maxVersion : Nat := 2147483647

/-- A result of `scan_migrations`: the order of files of one version is not determined. -/
def IsScan (dir : List String) (found : List MigrationFile) : Prop :=
  found.Perm (migrationFiles dir) ∧ found.Pairwise (·.version ≤ ·.version) ∧
    ∀ f ∈ found, f.version ≤ maxVersion

def hasNoTransactionMarker (sql : String) : Bool :=
  decide ("-- migrate:no-transaction".toList <:+: sql.toList)

def versions (rows : List MigrationFile) : List Nat := rows.map MigrationFile.version

/-! ### The instances -/

/-- How far `initialize` has come: before the statement that makes the table, before the scan, before the
read of the applied versions, and in the loop. -/
inductive Phase where
  | starting
  | scanning
  | reading (todo : List MigrationFile)
  | working (applied : List Nat) (todo : List MigrationFile)
  | locked (applied : List Nat) (file : MigrationFile) (rest : List MigrationFile)
  /-- The version is not among the rows. -/
  | unseen (applied : List Nat) (file : MigrationFile) (rest : List MigrationFile)
  /-- The file's SQL has run. -/
  | ran (applied : List Nat) (file : MigrationFile) (rest : List MigrationFile)
  /-- All is done but the end of the transaction or the unlock. -/
  | ending (applied : List Nat) (file : MigrationFile) (rest : List MigrationFile) (didApply : Bool)
  | returned
  | failed

def Phase.holds : Phase → Bool
  | locked .. => true
  | unseen .. => true
  | ran .. => true
  | ending .. => true
  | _ => false

structure Boots where
  /-- `schema_migrations`, as committed. -/
  rows : List MigrationFile
  /-- The files whose SQL has run and is not rolled back, in that order. -/
  executed : List MigrationFile
  lock : Option Nat
  instances : Table Nat Phase

namespace Boots

def start : Boots := ⟨[], [], none, Table.empty⟩

def goto (w : Boots) (n : Nat) (phase : Phase) : Boots :=
  { w with instances := w.instances.put n phase }

def unlock (w : Boots) (n : Nat) : Boots :=
  { w with lock := if w.lock = some n then none else w.lock }

def record (w : Boots) (file : MigrationFile) : Boots := { w with rows := w.rows ++ [file] }

def execute (w : Boots) (file : MigrationFile) : Boots := { w with executed := w.executed ++ [file] }

end Boots

section

variable (dir : List String) (sql : String → String)

def noTransaction (file : MigrationFile) : Bool := hasNoTransactionMarker (sql file.name)

/-- One statement of instance `n`.  In a transaction the effects of the file and of its row come with the
commit; in autocommit each comes with its statement. -/
inductive BootStep : Boots → Boots → Prop where
  | boot (w : Boots) (n : Nat) (hFree : w.instances n = none) : BootStep w (w.goto n .starting)
  | ensureTable (w : Boots) (n : Nat) (hPhase : w.instances n = some .starting) :
      BootStep w (w.goto n .scanning)
  | scan (w : Boots) (n : Nat) (found : List MigrationFile) (hPhase : w.instances n = some .scanning)
      (hScan : IsScan dir found) :
      BootStep w (w.goto n (if found = [] then .returned else .reading found))
  | readApplied (w : Boots) (n : Nat) (todo : List MigrationFile)
      (hPhase : w.instances n = some (.reading todo)) :
      BootStep w (w.goto n (.working (versions w.rows) todo))
  | skip (w : Boots) (n : Nat) (applied : List Nat) (file : MigrationFile) (rest : List MigrationFile)
      (hPhase : w.instances n = some (.working applied (file :: rest)))
      (hApplied : file.version ∈ applied) : BootStep w (w.goto n (.working applied rest))
  | takeLock (w : Boots) (n : Nat) (applied : List Nat) (file : MigrationFile) (rest : List MigrationFile)
      (hPhase : w.instances n = some (.working applied (file :: rest)))
      (hPending : file.version ∉ applied) (hLock : w.lock = none) :
      BootStep w ({ w with lock := some n }.goto n (.locked applied file rest))
  | look (w : Boots) (n : Nat) (applied : List Nat) (file : MigrationFile) (rest : List MigrationFile)
      (hPhase : w.instances n = some (.locked applied file rest)) :
      BootStep w (w.goto n (if file.version ∈ versions w.rows then .ending applied file rest false
        else .unseen applied file rest))
  | runSql (w : Boots) (n : Nat) (applied : List Nat) (file : MigrationFile) (rest : List MigrationFile)
      (hPhase : w.instances n = some (.unseen applied file rest)) :
      BootStep w ((if noTransaction sql file then w.execute file else w).goto n (.ran applied file rest))
  | insertRow (w : Boots) (n : Nat) (applied : List Nat) (file : MigrationFile)
      (rest : List MigrationFile) (hPhase : w.instances n = some (.ran applied file rest)) :
      BootStep w ((if noTransaction sql file then w.record file else w).goto n
        (.ending applied file rest true))
  | release (w : Boots) (n : Nat) (applied : List Nat) (file : MigrationFile)
      (rest : List MigrationFile) (didApply : Bool)
      (hPhase : w.instances n = some (.ending applied file rest didApply)) :
      BootStep w (((if didApply && !noTransaction sql file then (w.execute file).record file else w).unlock
        n).goto n (.working applied rest))
  | finish (w : Boots) (n : Nat) (applied : List Nat)
      (hPhase : w.instances n = some (.working applied [])) : BootStep w (w.goto n .returned)
  /-- A transaction is rolled back and tried again. -/
  | retry (w : Boots) (n : Nat) (applied : List Nat) (file : MigrationFile) (rest : List MigrationFile)
      (phase : Phase) (hPhase : w.instances n = some phase)
      (hTxn : noTransaction sql file = false)
      (hIn : phase = .locked applied file rest ∨ phase = .unseen applied file rest ∨
        phase = .ran applied file rest ∨ ∃ did, phase = .ending applied file rest did) :
      BootStep w ((w.unlock n).goto n (.working applied (file :: rest)))
  /-- A statement throws: what is open is rolled back, the lock goes with it, and `initialize` does not
  return.  Between the SQL of a file in autocommit and its row this would be a crash. -/
  | fail (w : Boots) (n : Nat) (phase : Phase) (hPhase : w.instances n = some phase)
      (hRecorded : ∀ applied file rest, phase = .ran applied file rest → noTransaction sql file = false) :
      BootStep w ((w.unlock n).goto n .failed)

end

def AllEnded (w : Boots) : Prop :=
  (∀ n phase, w.instances n = some phase → phase = .returned ∨ phase = .failed) ∧
    ∃ n, w.instances n = some .returned

/-- Every migration ran once and in order, and is named by a row. -/
structure OnceInOrder (dir : List String) (w : Boots) : Prop where
  once : ∀ f ∈ migrationFiles dir, w.executed.count f = 1
  ordered : w.executed.Pairwise (·.version ≤ ·.version)
  recorded : ∀ f ∈ migrationFiles dir, f ∈ w.rows

/-! ### What a boot has behind it -/

/-- Every migration is still to do or has its version among the rows. -/
structure Covers (dir : List String) (rows todo : List MigrationFile) : Prop where
  sorted : todo.Pairwise (·.version ≤ ·.version)
  files : ∀ f ∈ todo, f ∈ migrationFiles dir
  done : ∀ g ∈ migrationFiles dir, g ∈ todo ∨ g.version ∈ versions rows

def PhaseOk (dir : List String) (sql : String → String) (rows : List MigrationFile) : Phase → Prop
  | .reading todo => Covers dir rows todo
  | .working applied todo => applied ⊆ versions rows ∧ Covers dir rows todo
  | .locked applied file rest => applied ⊆ versions rows ∧ Covers dir rows (file :: rest)
  | .unseen applied file rest =>
    applied ⊆ versions rows ∧ Covers dir rows (file :: rest) ∧ file.version ∉ versions rows
  | .ran applied file rest =>
    applied ⊆ versions rows ∧ Covers dir rows (file :: rest) ∧ file.version ∉ versions rows
  | .ending applied file rest didApply =>
    applied ⊆ versions rows ∧ Covers dir rows (file :: rest) ∧
      (file.version ∈ versions rows ↔ (didApply && !noTransaction sql file) = false)
  | .returned => Covers dir rows []
  | _ => True

/-- The rows are those of migrations, in the order of the versions and without gaps. -/
structure RowsOk (dir : List String) (rows : List MigrationFile) : Prop where
  sorted : rows.Pairwise (·.version < ·.version)
  files : ∀ f ∈ rows, f ∈ migrationFiles dir
  gapless : ∀ f ∈ rows, ∀ g ∈ migrationFiles dir, g.version < f.version → g.version ∈ versions rows

section Growth

variable {dir : List String} {sql : String → String} {rows rest : List MigrationFile}
  {file : MigrationFile}

@[simp] theorem versions_append (rows : List MigrationFile) (file : MigrationFile) :
    versions (rows ++ [file]) = versions rows ++ [file.version] := by
  simp [versions]

theorem Covers.grow (h : Covers dir rows rest) (file : MigrationFile) :
    Covers dir (rows ++ [file]) rest where
  sorted := h.sorted
  files := h.files
  done g hg := by
    rcases h.done g hg with hTodo | hDone
    · exact .inl hTodo
    · right
      rw [versions_append]
      exact List.mem_append_left _ hDone

/-- A file whose version is among the rows is no longer to do. -/
theorem Covers.tail (h : Covers dir rows (file :: rest)) (hDone : file.version ∈ versions rows) :
    Covers dir rows rest where
  sorted := h.sorted.of_cons
  files f hf := h.files f (List.mem_cons_of_mem file hf)
  done g hg := by
    rcases h.done g hg with hTodo | hOld
    · rcases List.mem_cons.mp hTodo with rfl | hRest
      · exact .inr hDone
      · exact .inl hRest
    · exact .inr hOld

theorem RowsOk.append (hRows : RowsOk dir rows) (hCovers : Covers dir rows (file :: rest))
    (hNew : file.version ∉ versions rows) : RowsOk dir (rows ++ [file]) := by
  have hFile : file ∈ migrationFiles dir := hCovers.files file List.mem_cons_self
  constructor
  · rw [List.pairwise_append]
    refine ⟨hRows.sorted, List.pairwise_singleton _ _, fun f hf g hg => ?_⟩
    obtain rfl := List.mem_singleton.mp hg
    rcases Nat.lt_trichotomy f.version g.version with hLess | hEqual | hMore
    · exact hLess
    · exact absurd (hEqual ▸ List.mem_map_of_mem hf) hNew
    · exact absurd (hRows.gapless f hf g hFile hMore) hNew
  · intro f hf
    rcases List.mem_append.mp hf with hOld | hLast
    · exact hRows.files f hOld
    · exact List.mem_singleton.mp hLast ▸ hFile
  · intro f hf g hg hLess
    rw [versions_append]
    apply List.mem_append_left
    rcases List.mem_append.mp hf with hOld | hLast
    · exact hRows.gapless f hOld g hg hLess
    · obtain rfl := List.mem_singleton.mp hLast
      rcases hCovers.done g hg with hTodo | hDone
      · rcases List.mem_cons.mp hTodo with rfl | hRest
        · exact absurd hLess (Nat.lt_irrefl _)
        · have hAfter := List.rel_of_pairwise_cons hCovers.sorted hRest
          omega
      · exact hDone

/-- What holds of an instance without the lock still holds when a row is added. -/
theorem PhaseOk.grow {phase : Phase} (h : PhaseOk dir sql rows phase) (hFree : phase.holds = false)
    (file : MigrationFile) : PhaseOk dir sql (rows ++ [file]) phase := by
  cases phase with
  | starting => trivial
  | scanning => trivial
  | reading todo => exact Covers.grow h file
  | working applied todo =>
    refine ⟨fun v hv => ?_, Covers.grow h.2 file⟩
    rw [versions_append]
    exact List.mem_append_left _ (h.1 hv)
  | locked => cases hFree
  | unseen => cases hFree
  | ran => cases hFree
  | ending => cases hFree
  | returned => exact Covers.grow h file
  | failed => trivial

end Growth

/-! ### The invariant -/

structure BootsOk (dir : List String) (sql : String → String) (w : Boots) : Prop where
  rows : RowsOk dir w.rows
  phases : ∀ n phase, w.instances n = some phase → PhaseOk dir sql w.rows phase
  lock : ∀ n phase, w.instances n = some phase → phase.holds = true → w.lock = some n
  recorded : (∀ n applied file rest, w.instances n = some (.ran applied file rest) →
    noTransaction sql file = false) → w.executed = w.rows
  unrecorded : ∀ n applied file rest, w.instances n = some (.ran applied file rest) →
    noTransaction sql file = true → w.executed = w.rows ++ [file]

section Invariant

variable {dir : List String} {sql : String → String} {w : Boots} {n : Nat} {phase : Phase}

theorem bootsOk_start : BootsOk dir sql .start where
  rows := ⟨List.Pairwise.nil, fun f hf => absurd hf List.not_mem_nil,
    fun f hf => absurd hf List.not_mem_nil⟩
  phases n phase h := by cases h
  lock n phase h := by cases h
  recorded _ := rfl
  unrecorded n applied file rest h := by cases h

theorem BootsOk.alone (hOk : BootsOk dir sql w) (hHere : w.instances n = some phase)
    (hHolds : phase.holds = true) {m : Nat} {other : Phase} (hThere : w.instances m = some other)
    (hOther : other.holds = true) : m = n := by
  have hMine := hOk.lock n phase hHere hHolds
  have hTheirs := hOk.lock m other hThere hOther
  exact Option.some.inj (hTheirs.symm.trans hMine)

/-- While the one with the lock is not between the SQL of a file and its row, all that ran is recorded. -/
theorem BootsOk.synced (hOk : BootsOk dir sql w) (hHere : w.instances n = some phase)
    (hHolds : phase.holds = true)
    (hNot : ∀ applied file rest, phase = .ran applied file rest → noTransaction sql file = false) :
    w.executed = w.rows := by
  apply hOk.recorded
  intro m applied file rest hThere
  obtain rfl := hOk.alone hHere hHolds hThere rfl
  exact hNot applied file rest (Option.some.inj (hHere.symm.trans hThere))

theorem BootsOk.move (hOk : BootsOk dir sql w) (lock : Option Nat) (phase' : Phase)
    (hNew : PhaseOk dir sql w.rows phase') (hMine : phase'.holds = true → lock = some n)
    (hOthers : ∀ m other, m ≠ n → w.instances m = some other → other.holds = true → lock = some m)
    (hBefore : ∀ applied file rest, w.instances n = some (.ran applied file rest) →
      noTransaction sql file = false)
    (hAfter : ∀ applied file rest, phase' = .ran applied file rest → noTransaction sql file = false) :
    BootsOk dir sql ({ w with lock := lock }.goto n phase') where
  rows := hOk.rows
  phases m other hThere := by
    rcases Table.put_eq_some.mp hThere with ⟨-, rfl⟩ | ⟨-, hOld⟩
    · exact hNew
    · exact hOk.phases m other hOld
  lock m other hThere hHolds := by
    rcases Table.put_eq_some.mp hThere with ⟨rfl, rfl⟩ | ⟨hNe, hOld⟩
    · exact hMine hHolds
    · exact hOthers m other hNe hOld hHolds
  recorded hNone := by
    apply hOk.recorded
    intro m applied file rest hThere
    by_cases hHere : m = n
    · subst hHere
      exact hBefore applied file rest hThere
    · exact hNone m applied file rest (Table.put_eq_some.mpr (.inr ⟨hHere, hThere⟩))
  unrecorded m applied file rest hThere hAuto := by
    rcases Table.put_eq_some.mp hThere with ⟨rfl, hPhase⟩ | ⟨-, hOld⟩
    · rw [hAfter applied file rest hPhase] at hAuto
      cases hAuto
    · exact hOk.unrecorded m applied file rest hOld hAuto

/-- An instance moves on and takes or gives back nothing. -/
theorem BootsOk.goto (hOk : BootsOk dir sql w) (phase' : Phase) (hNew : PhaseOk dir sql w.rows phase')
    (hMine : phase'.holds = true → w.lock = some n)
    (hBefore : ∀ applied file rest, w.instances n = some (.ran applied file rest) →
      noTransaction sql file = false)
    (hAfter : ∀ applied file rest, phase' = .ran applied file rest → noTransaction sql file = false) :
    BootsOk dir sql (w.goto n phase') :=
  hOk.move w.lock phase' hNew hMine (fun m other _ hThere hHolds => hOk.lock m other hThere hHolds)
    hBefore hAfter

/-- An instance moves on and gives back the lock if it has it. -/
theorem BootsOk.gotoUnlocked (hOk : BootsOk dir sql w) (phase' : Phase)
    (hNew : PhaseOk dir sql w.rows phase') (hFree : phase'.holds = false)
    (hBefore : ∀ applied file rest, w.instances n = some (.ran applied file rest) →
      noTransaction sql file = false) : BootsOk dir sql ((w.unlock n).goto n phase') := by
  apply hOk.move _ phase' hNew
  · intro hHolds
    rw [hFree] at hHolds
    cases hHolds
  · intro m other hNe hThere hHolds
    have hTheirs := hOk.lock m other hThere hHolds
    rw [hTheirs, if_neg (fun h => hNe (Option.some.inj h))]
  · exact hBefore
  · rintro applied file rest rfl
    cases hFree

/-- The lock holder adds the next row; the SQL of its file has run. -/
theorem BootsOk.gotoRecorded (hOk : BootsOk dir sql w) (hHere : w.instances n = some phase)
    (hHolds : phase.holds = true) {file : MigrationFile} {rest : List MigrationFile}
    (hCovers : Covers dir w.rows (file :: rest)) (hUnseen : file.version ∉ versions w.rows)
    (w' : Boots) (phase' : Phase) (hRows : w'.rows = w.rows ++ [file])
    (hExecuted : w'.executed = w.rows ++ [file]) (hInstances : w'.instances = w.instances.put n phase')
    (hNew : PhaseOk dir sql w'.rows phase') (hMine : phase'.holds = true → w'.lock = some n)
    (hAfter : ∀ applied file rest, phase' ≠ .ran applied file rest) : BootsOk dir sql w' := by
  have hOthers : ∀ m other, m ≠ n → w.instances m = some other → other.holds = false := by
    intro m other hNe hThere
    by_contra hOther
    exact hNe (hOk.alone hHere hHolds hThere (eq_true_of_ne_false hOther))
  constructor
  case rows =>
    rw [hRows]
    exact hOk.rows.append hCovers hUnseen
  case phases =>
    intro m other hThere
    rw [hInstances] at hThere
    rcases Table.put_eq_some.mp hThere with ⟨-, rfl⟩ | ⟨hNe, hOld⟩
    · exact hNew
    · rw [hRows]
      exact (hOk.phases m other hOld).grow (hOthers m other hNe hOld) file
  case lock =>
    intro m other hThere hOther
    rw [hInstances] at hThere
    rcases Table.put_eq_some.mp hThere with ⟨rfl, rfl⟩ | ⟨hNe, hOld⟩
    · exact hMine hOther
    · rw [hOthers m other hNe hOld] at hOther
      cases hOther
  case recorded => exact fun _ => hExecuted.trans hRows.symm
  case unrecorded =>
    intro m applied file' rest' hThere
    rw [hInstances] at hThere
    rcases Table.put_eq_some.mp hThere with ⟨-, hPhase⟩ | ⟨hNe, hOld⟩
    · exact absurd hPhase (hAfter applied file' rest')
    · exact nomatch hOthers m _ hNe hOld

theorem not_ran (hHere : w.instances n = some phase) (hNot : ∀ applied file rest, phase ≠ .ran applied file rest)
    (applied : List Nat) (file : MigrationFile) (rest : List MigrationFile)
    (hThere : w.instances n = some (.ran applied file rest)) : noTransaction sql file = false :=
  absurd (Option.some.inj (hHere.symm.trans hThere)) (hNot applied file rest)

section Statements

variable {applied : List Nat} {file : MigrationFile} {rest : List MigrationFile}

theorem BootsOk.runSql (hOk : BootsOk dir sql w)
    (hPhase : w.instances n = some (.unseen applied file rest)) :
    BootsOk dir sql ((if noTransaction sql file then w.execute file else w).goto n
      (.ran applied file rest)) := by
  have hNew := hOk.phases n _ hPhase
  have hMine := hOk.lock n _ hPhase rfl
  cases hAuto : noTransaction sql file with
  | false =>
    apply hOk.goto
    · exact hNew
    · exact fun _ => hMine
    · exact not_ran hPhase (fun _ _ _ h => nomatch h)
    · intro _ _ _ hRan
      cases hRan
      exact hAuto
  | true =>
    have hSynced := hOk.synced hPhase rfl (fun _ _ _ h => nomatch h)
    rw [if_pos rfl]
    constructor
    case rows => exact hOk.rows
    case phases =>
      intro m other hThere
      rcases Table.put_eq_some.mp hThere with ⟨-, rfl⟩ | ⟨-, hOld⟩
      · exact hNew
      · exact hOk.phases m other hOld
    case lock =>
      intro m other hThere hHolds
      rcases Table.put_eq_some.mp hThere with ⟨rfl, -⟩ | ⟨-, hOld⟩
      · exact hMine
      · exact hOk.lock m other hOld hHolds
    case recorded =>
      intro hNone
      have hTxn := hNone n applied file rest (Table.put_same _ _ _)
      rw [hAuto] at hTxn
      cases hTxn
    case unrecorded =>
      intro m applied' file' rest' hThere _
      rcases Table.put_eq_some.mp hThere with ⟨-, hRan⟩ | ⟨hNe, hOld⟩
      · cases hRan
        exact congrArg (· ++ [file]) hSynced
      · exact absurd (hOk.alone hPhase rfl hOld rfl) hNe

theorem BootsOk.insertRow (hOk : BootsOk dir sql w)
    (hPhase : w.instances n = some (.ran applied file rest)) :
    BootsOk dir sql ((if noTransaction sql file then w.record file else w).goto n
      (.ending applied file rest true)) := by
  obtain ⟨hKnown, hCovers, hUnseen⟩ := hOk.phases n _ hPhase
  have hMine := hOk.lock n _ hPhase rfl
  cases hAuto : noTransaction sql file with
  | false =>
    apply hOk.goto
    · refine ⟨hKnown, hCovers, ?_⟩
      simpa [hAuto] using hUnseen
    · exact fun _ => hMine
    · intro _ file' _ hThere
      cases hPhase.symm.trans hThere
      exact hAuto
    · exact fun _ _ _ h => nomatch h
  | true =>
    have hExecuted := hOk.unrecorded n applied file rest hPhase hAuto
    rw [if_pos rfl]
    apply hOk.gotoRecorded hPhase rfl hCovers hUnseen ((w.record file).goto n _) _ rfl hExecuted rfl
    · refine ⟨fun v hv => ?_, hCovers.grow file, ?_⟩
      · show v ∈ versions (w.rows ++ [file])
        rw [versions_append]
        exact List.mem_append_left _ (hKnown hv)
      · show file.version ∈ versions (w.rows ++ [file]) ↔ _
        simp [hAuto]
    · exact fun _ => hMine
    · exact fun _ _ _ h => nomatch h

theorem BootsOk.release {didApply : Bool} (hOk : BootsOk dir sql w)
    (hPhase : w.instances n = some (.ending applied file rest didApply)) :
    BootsOk dir sql (((if didApply && !noTransaction sql file then (w.execute file).record file
      else w).unlock n).goto n (.working applied rest)) := by
  obtain ⟨hKnown, hCovers, hSeen⟩ := hOk.phases n _ hPhase
  cases hApplies : didApply && !noTransaction sql file with
  | false =>
    have hTail := hCovers.tail (hSeen.mpr hApplies)
    apply hOk.gotoUnlocked
    · exact ⟨hKnown, hTail⟩
    · rfl
    · exact not_ran hPhase (fun _ _ _ h => nomatch h)
  | true =>
    have hUnseen : file.version ∉ versions w.rows := by
      intro hIn
      rw [hSeen.mp hIn] at hApplies
      cases hApplies
    have hSynced := hOk.synced hPhase rfl (fun _ _ _ h => nomatch h)
    rw [if_pos rfl]
    apply hOk.gotoRecorded hPhase rfl hCovers hUnseen
      ((((w.execute file).record file).unlock n).goto n _) _ rfl (congrArg (· ++ [file]) hSynced) rfl
    · refine ⟨fun v hv => ?_, (hCovers.grow file).tail ?_⟩
      · show v ∈ versions (w.rows ++ [file])
        rw [versions_append]
        exact List.mem_append_left _ (hKnown hv)
      · rw [versions_append]
        exact List.mem_append_right _ List.mem_cons_self
    · exact fun h => nomatch h
    · exact fun _ _ _ h => nomatch h

theorem BootsOk.retry (hOk : BootsOk dir sql w) (hPhase : w.instances n = some phase)
    (hTxn : noTransaction sql file = false)
    (hIn : phase = .locked applied file rest ∨ phase = .unseen applied file rest ∨
      phase = .ran applied file rest ∨ ∃ did, phase = .ending applied file rest did) :
    BootsOk dir sql ((w.unlock n).goto n (.working applied (file :: rest))) := by
  have hBehind : applied ⊆ versions w.rows ∧ Covers dir w.rows (file :: rest) := by
    have hNow := hOk.phases n phase hPhase
    rcases hIn with rfl | rfl | rfl | ⟨did, rfl⟩
    · exact hNow
    · exact ⟨hNow.1, hNow.2.1⟩
    · exact ⟨hNow.1, hNow.2.1⟩
    · exact ⟨hNow.1, hNow.2.1⟩
  apply hOk.gotoUnlocked
  · exact hBehind
  · rfl
  · intro _ file' _ hThere
    obtain rfl := Option.some.inj (hPhase.symm.trans hThere)
    rcases hIn with h | h | h | ⟨did, h⟩
    · cases h
    · cases h
    · cases h
      exact hTxn
    · cases h

end Statements

theorem BootsOk.step (w w' : Boots) (hOk : BootsOk dir sql w) (hStep : BootStep dir sql w w') :
    BootsOk dir sql w' := by
  cases hStep with
  | boot n hFree =>
    apply hOk.goto
    · trivial
    · exact fun h => nomatch h
    · intro applied file rest hThere
      rw [hFree] at hThere
      cases hThere
    · exact fun _ _ _ h => nomatch h
  | ensureTable n hPhase =>
    apply hOk.goto
    · trivial
    · exact fun h => nomatch h
    · exact not_ran hPhase (fun _ _ _ h => nomatch h)
    · exact fun _ _ _ h => nomatch h
  | scan n found hPhase hScan =>
    obtain ⟨hPerm, hSorted, -⟩ := hScan
    have hCovers : Covers dir w.rows found :=
      ⟨hSorted, fun f hf => hPerm.mem_iff.mp hf, fun g hg => .inl (hPerm.mem_iff.mpr hg)⟩
    apply hOk.goto
    · split
      · rename_i hEmpty
        rw [hEmpty] at hCovers
        exact hCovers
      · exact hCovers
    · split <;> exact fun h => nomatch h
    · exact not_ran hPhase (fun _ _ _ h => nomatch h)
    · split <;> exact fun _ _ _ h => nomatch h
  | readApplied n todo hPhase =>
    have hCovers : Covers dir w.rows todo := hOk.phases n _ hPhase
    apply hOk.goto
    · exact ⟨fun v hv => hv, hCovers⟩
    · exact fun h => nomatch h
    · exact not_ran hPhase (fun _ _ _ h => nomatch h)
    · exact fun _ _ _ h => nomatch h
  | skip n applied file rest hPhase hApplied =>
    obtain ⟨hKnown, hCovers⟩ := hOk.phases n _ hPhase
    apply hOk.goto
    · exact ⟨hKnown, hCovers.tail (hKnown hApplied)⟩
    · exact fun h => nomatch h
    · exact not_ran hPhase (fun _ _ _ h => nomatch h)
    · exact fun _ _ _ h => nomatch h
  | takeLock n applied file rest hPhase hPending hLock =>
    have hNow := hOk.phases n _ hPhase
    apply hOk.move
    · exact hNow
    · exact fun _ => rfl
    · intro m other _ hThere hHolds
      have hTaken := hOk.lock m other hThere hHolds
      rw [hLock] at hTaken
      cases hTaken
    · exact not_ran hPhase (fun _ _ _ h => nomatch h)
    · exact fun _ _ _ h => nomatch h
  | look n applied file rest hPhase =>
    obtain ⟨hKnown, hCovers⟩ := hOk.phases n _ hPhase
    have hMine := hOk.lock n _ hPhase rfl
    apply hOk.goto
    · split
      · rename_i hSeen
        exact ⟨hKnown, hCovers, by simpa using hSeen⟩
      · rename_i hUnseen
        exact ⟨hKnown, hCovers, hUnseen⟩
    · exact fun _ => hMine
    · exact not_ran hPhase (fun _ _ _ h => nomatch h)
    · split <;> exact fun _ _ _ h => nomatch h
  | runSql n applied file rest hPhase => exact hOk.runSql hPhase
  | insertRow n applied file rest hPhase => exact hOk.insertRow hPhase
  | release n applied file rest didApply hPhase => exact hOk.release hPhase
  | finish n applied hPhase =>
    obtain ⟨-, hCovers⟩ := hOk.phases n _ hPhase
    apply hOk.goto
    · exact hCovers
    · exact fun h => nomatch h
    · exact not_ran hPhase (fun _ _ _ h => nomatch h)
    · exact fun _ _ _ h => nomatch h
  | retry n applied file rest phase hPhase hTxn hIn => exact hOk.retry hPhase hTxn hIn
  | fail n phase hPhase hRecorded =>
    apply hOk.gotoUnlocked
    · trivial
    · rfl
    · intro applied file rest hThere
      exact hRecorded applied file rest (Option.some.inj (hPhase.symm.trans hThere))

theorem BootsOk.ended (hOk : BootsOk dir sql w) (hEnded : AllEnded w) :
    w.executed = w.rows ∧ Covers dir w.rows [] := by
  obtain ⟨hAll, n, hReturned⟩ := hEnded
  refine ⟨hOk.recorded fun m applied file rest hRan => ?_, hOk.phases n _ hReturned⟩
  rcases hAll m _ hRan with h | h
  · cases h
  · cases h

end Invariant

def DistinctVersions (dir : List String) : Prop :=
  ∀ f ∈ migrationFiles dir, ∀ g ∈ migrationFiles dir, f.version = g.version → f = g

section Runs

variable {dir : List String} {rows : List MigrationFile}

theorem RowsOk.nodup (h : RowsOk dir rows) : (versions rows).Nodup :=
  List.pairwise_map.mpr (h.sorted.imp Nat.ne_of_lt)

theorem RowsOk.count (h : RowsOk dir rows) {f : MigrationFile} (hf : f ∈ rows) : rows.count f = 1 :=
  List.count_eq_one_of_mem h.nodup.of_map hf

/-- What is recorded is all there is exactly when no version is that of two migrations. -/
theorem RowsOk.complete_iff (hRows : RowsOk dir rows) (hCovers : Covers dir rows []) :
    (∀ f ∈ migrationFiles dir, f ∈ rows) ↔ DistinctVersions dir := by
  constructor
  · intro hAll f hf g hg hSame
    exact List.inj_on_of_nodup_map hRows.nodup (hAll f hf) (hAll g hg) hSame
  · intro hDistinct f hf
    rcases hCovers.done f hf with hTodo | hDone
    · exact absurd hTodo List.not_mem_nil
    · obtain ⟨g, hg, hSame⟩ := List.mem_map.mp hDone
      exact hDistinct g (hRows.files g hg) f hf hSame ▸ hg

/-- At the end of a run, once and in order is the same as that no two migrations have one version. -/
theorem ended_iff {sql : String → String} {w : Boots} (hRun : Run (BootStep dir sql) .start w)
    (hEnded : AllEnded w) : OnceInOrder dir w ↔ DistinctVersions dir := by
  have hOk : BootsOk dir sql w := hRun.invariant BootsOk.step bootsOk_start
  obtain ⟨hExecuted, hCovers⟩ := hOk.ended hEnded
  have hComplete := hOk.rows.complete_iff hCovers
  constructor
  · intro hOnce
    exact hComplete.mp hOnce.recorded
  · intro hDistinct
    have hAll := hComplete.mpr hDistinct
    constructor
    · intro f hf
      rw [hExecuted]
      exact hOk.rows.count (hAll f hf)
    · rw [hExecuted]
      exact hOk.rows.sorted.imp Nat.le_of_lt
    · exact hAll

end Runs

/-- When all the boots of a run have ended, every migration ran once and in order and is recorded if and
only if no two files parse to one version. -/
theorem migrations_once_iff {dir : List String} {sql : String → String} {w : Boots}
    (hRun : Run (BootStep dir sql) .start w) (hEnded : AllEnded w) :
    OnceInOrder dir w ↔ DistinctVersions dir :=
  ended_iff hRun hEnded

/-! ### A boot alone -/

section Alone

variable {dir : List String} {sql : String → String} {file : MigrationFile} {rest : List MigrationFile}

theorem Boots.goto_phase (w : Boots) (n : Nat) (phase : Phase) :
    (w.goto n phase).instances n = some phase := Table.put_same _ _ _

theorem Boots.unlock_lock {w : Boots} {n : Nat} (h : w.lock = some n) (phase : Phase) :
    ((w.unlock n).goto n phase).lock = none :=
  if_pos h

structure Alone (w : Boots) (phase : Phase) : Prop where
  lock : w.lock = none
  instances : w.instances = Table.empty.put 0 phase

theorem Alone.goto {w : Boots} {phase : Phase} (h : Alone w phase) (phase' : Phase) :
    Alone (w.goto 0 phase') phase' where
  lock := h.lock
  instances := by
    show w.instances.put 0 phase' = _
    rw [h.instances, Table.put_put_same]

theorem Alone.phase {w : Boots} {phase : Phase} (h : Alone w phase) : w.instances 0 = some phase := by
  rw [h.instances]
  exact Table.put_same _ _ _

theorem alone_scan (hScan : IsScan dir (file :: rest)) : ∃ w, Run (BootStep dir sql) .start w ∧
    Alone w (.working [] (file :: rest)) ∧ w.rows = [] := by
  have hBoot : Run (BootStep dir sql) .start (Boots.start.goto 0 .starting) :=
    .single (.boot _ 0 rfl)
  have hBooted : Alone (Boots.start.goto 0 .starting) .starting := ⟨rfl, rfl⟩
  have hTable := hBoot.tail (.ensureTable _ 0 hBooted.phase)
  have hScanned := hTable.tail (.scan _ 0 _ (hBooted.goto .scanning).phase hScan)
  rw [if_neg (List.cons_ne_nil file rest)] at hScanned
  have hReads := (hBooted.goto .scanning).goto (.reading (file :: rest))
  exact ⟨_, hScanned.tail (.readApplied _ 0 _ hReads.phase), hReads.goto _, rfl⟩

theorem alone_apply {w : Boots} {applied : List Nat}
    (h : Alone w (.working applied (file :: rest))) (hPending : file.version ∉ applied)
    (hUnseen : file.version ∉ versions w.rows) (hTxn : noTransaction sql file = false) :
    ∃ w', Run (BootStep dir sql) w w' ∧ Alone w' (.working applied rest) ∧
      w'.rows = w.rows ++ [file] := by
  have hLock : Run (BootStep dir sql) w _ := .single (.takeLock w 0 _ _ _ h.phase hPending h.lock)
  have hStill : file.version ∉ versions ({ w with lock := some 0 }.goto 0 (.locked applied file rest)).rows :=
    hUnseen
  have hLook := hLock.tail (.look _ 0 applied file rest (Boots.goto_phase _ _ _))
  rw [if_neg hStill] at hLook
  have hRun := hLook.tail (.runSql _ 0 applied file rest (Boots.goto_phase _ _ _))
  rw [hTxn, if_neg Bool.false_ne_true] at hRun
  have hInsert := hRun.tail (.insertRow _ 0 applied file rest (Boots.goto_phase _ _ _))
  rw [hTxn, if_neg Bool.false_ne_true] at hInsert
  have hRelease := hInsert.tail (.release _ 0 applied file rest true (Boots.goto_phase _ _ _))
  rw [hTxn, Bool.not_false, Bool.and_true, if_pos rfl] at hRelease
  refine ⟨_, hRelease, ⟨Boots.unlock_lock (by rfl) _, ?_⟩, rfl⟩
  simp [Boots.goto, Boots.unlock, Boots.record, Boots.execute, h.instances]

theorem alone_seen {w : Boots} {applied : List Nat}
    (h : Alone w (.working applied (file :: rest))) (hPending : file.version ∉ applied)
    (hSeen : file.version ∈ versions w.rows) :
    ∃ w', Run (BootStep dir sql) w w' ∧ Alone w' (.working applied rest) ∧ w'.rows = w.rows := by
  have hLock : Run (BootStep dir sql) w _ := .single (.takeLock w 0 _ _ _ h.phase hPending h.lock)
  have hStill : file.version ∈ versions ({ w with lock := some 0 }.goto 0 (.locked applied file rest)).rows :=
    hSeen
  have hLook := hLock.tail (.look _ 0 applied file rest (Boots.goto_phase _ _ _))
  rw [if_pos hStill] at hLook
  have hRelease := hLook.tail (.release _ 0 applied file rest false (Boots.goto_phase _ _ _))
  rw [Bool.false_and, if_neg Bool.false_ne_true] at hRelease
  refine ⟨_, hRelease, ⟨Boots.unlock_lock (by rfl) _, ?_⟩, rfl⟩
  simp [Boots.goto, Boots.unlock, h.instances]

theorem alone_finish {w : Boots} {applied : List Nat} (h : Alone w (.working applied [])) :
    ∃ w', BootStep dir sql w w' ∧ AllEnded w' ∧ w'.rows = w.rows := by
  have hReturned := h.goto .returned
  refine ⟨_, .finish w 0 applied h.phase, ⟨fun n phase hPhase => ?_, 0, hReturned.phase⟩, rfl⟩
  rw [hReturned.instances] at hPhase
  rcases Table.put_eq_some.mp hPhase with ⟨-, rfl⟩ | ⟨-, hNone⟩
  · exact .inl rfl
  · cases hNone

end Alone

def oneFile : List String := ["001_initial.sql"]

theorem migrationFiles_oneFile : migrationFiles oneFile = [⟨1, "001_initial.sql"⟩] := by
  decide

def twinFiles : List String := ["001_users.sql", "001_roles.sql"]

theorem migrationFiles_twinFiles :
    migrationFiles twinFiles = [⟨1, "001_users.sql"⟩, ⟨1, "001_roles.sql"⟩] := by
  decide

theorem oneFile_run : ∃ w, Run (BootStep oneFile fun _ => "") .start w ∧ AllEnded w ∧
    w.rows = [⟨1, "001_initial.sql"⟩] := by
  have hScan : IsScan oneFile [⟨1, "001_initial.sql"⟩] := by
    rw [IsScan, migrationFiles_oneFile]
    exact ⟨List.Perm.refl _, List.pairwise_singleton _ _, by decide⟩
  have hTxn : noTransaction (fun _ => "") ⟨1, "001_initial.sql"⟩ = false := by decide
  obtain ⟨w₁, hFirst, hAlone₁, hNone⟩ := alone_scan hScan
  obtain ⟨w₂, hApply, hAlone₂, hOne⟩ := alone_apply hAlone₁ List.not_mem_nil
    (by rw [hNone]; exact List.not_mem_nil) hTxn
  obtain ⟨w₃, hFinish, hEnded, hRows⟩ := alone_finish hAlone₂
  refine ⟨w₃, (hFirst.trans hApply).tail hFinish, hEnded, ?_⟩
  rw [hRows, hOne, hNone]
  rfl

theorem migrations_once_oneFile : ∃ w, AllEnded w ∧ (OnceInOrder oneFile w ↔ DistinctVersions oneFile) := by
  obtain ⟨w, hRun, hEnded, -⟩ := oneFile_run
  exact ⟨w, hEnded, migrations_once_iff hRun hEnded⟩

/-- The second file of a version is taken for one that another instance applied. -/
theorem twin_never_runs : ∃ w, Run (BootStep twinFiles fun _ => "") .start w ∧ AllEnded w ∧
    w.executed = [⟨1, "001_users.sql"⟩] ∧ ¬OnceInOrder twinFiles w := by
  have hScan : IsScan twinFiles [⟨1, "001_users.sql"⟩, ⟨1, "001_roles.sql"⟩] := by
    rw [IsScan, migrationFiles_twinFiles]
    exact ⟨List.Perm.refl _, by decide, by decide⟩
  have hTxn : noTransaction (fun _ => "") ⟨1, "001_users.sql"⟩ = false := by decide
  obtain ⟨w₁, hFirst, hAlone₁, hNone⟩ := alone_scan hScan
  obtain ⟨w₂, hApply, hAlone₂, hOne⟩ := alone_apply hAlone₁ List.not_mem_nil
    (by rw [hNone]; exact List.not_mem_nil) hTxn
  have hSeen : (1 : Nat) ∈ versions w₂.rows := by
    rw [hOne, hNone]
    exact List.mem_singleton.mpr rfl
  obtain ⟨w₃, hPass, hAlone₃, hSame⟩ := alone_seen hAlone₂ List.not_mem_nil hSeen
  obtain ⟨w₄, hFinish, hEnded, hRows⟩ := alone_finish hAlone₃
  have hRun : Run (BootStep twinFiles fun _ => "") .start w₄ :=
    ((hFirst.trans hApply).trans hPass).tail hFinish
  have hOk : BootsOk twinFiles (fun _ => "") w₄ := hRun.invariant BootsOk.step bootsOk_start
  have hAll : w₄.rows = [⟨1, "001_users.sql"⟩] := by
    rw [hRows, hSame, hOne, hNone]
    rfl
  refine ⟨w₄, hRun, hEnded, (hOk.ended hEnded).1.trans hAll, fun hOnce => ?_⟩
  have hMissing := hOnce.recorded ⟨1, "001_roles.sql"⟩ (by rw [migrationFiles_twinFiles]; decide)
  rw [hAll] at hMissing
  exact absurd hMissing (by decide)

end CyberAccountant.Database
