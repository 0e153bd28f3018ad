import CyberAccountant.Library.RowLocks
import CyberAccountant.Payroll.PostingRuns

/-! Calls of `calculate_run` and `approve`, any number of them at once.  A call reads what it needs and
then runs one transaction, statement by statement; what a transaction has written is not seen before it
commits, and the rows that it has written are locked until then. -/

namespace CyberAccountant.Payroll

open CyberAccountant.Library CyberAccountant.Ledger

/-- What payroll reads of a row of `employees`. -/
structure Employee where
  id : Uuid
  orgId : Uuid
  salaryTiyn : Int
  hiredOn : Date
  dismissedOn : Option Date
  active : Bool
  ipnDeductionClaimed : Bool
  opvrExempt : Bool
  deriving DecidableEq

/-- The condition of `list_employed_during`. -/
def Employee.employedDuring (e : Employee) (org : Uuid) (periodStart periodEnd : Date) : Bool :=
  decide (e.orgId = org) && decide (e.hiredOn ≤ periodEnd) &&
    match e.dismissedOn with
    | some day => decide (periodStart ≤ day)
    | none => e.active

def listEmployedDuring (employees : List Employee) (org : Uuid) (periodStart periodEnd : Date) :
    List Employee :=
  employees.filter (·.employedDuring org periodStart periodEnd)

/-- `first_day_of_month`; `none` where the text is no date of the calendar. -/
def firstDayOfMonth (year month : Nat) : Option Date :=
  if h : IsCalendarDay year month 1 then some ⟨year, month, 1, h⟩ else none

/-- `rates_snapshot_json`. -/
structure RatesSnapshot where
  effectiveDate : Date
  rates : Rates
  deriving DecidableEq

/-- A row of `payroll_runs`. -/
structure RunRow extends PayrollRun where
  ratesSnapshot : RatesSnapshot
  calculatedAt : Timestamp
  deriving DecidableEq

/-- A row of `payslips`. -/
structure PayslipRow where
  id : Uuid
  orgId : Uuid
  runId : Uuid
  employeeId : Uuid
  amounts : Payslip
  deriving DecidableEq

/-- What one execution of `calculate_run` has read: the rates in force and the roster of the period. -/
structure Calculation where
  orgId : Uuid
  periodYear : Nat
  periodMonth : Nat
  effectiveDate : Date
  rates : Rates
  roster : List Employee
  deriving DecidableEq

namespace Calculation

def snapshot (c : Calculation) : RatesSnapshot := ⟨c.effectiveDate, c.rates⟩

/-- The salary of an employee is one that `calculate` takes; otherwise `GrossSalaryOutOfRange`. -/
def Screened (c : Calculation) : Prop :=
  ∀ e ∈ c.roster, ¬(e.salaryTiyn < 0 ∨ maxGrossTiyn < e.salaryTiyn)

/-- The run is that of the period. -/
def IsFor (c : Calculation) (row : RunRow) : Prop :=
  row.orgId = c.orgId ∧ row.periodYear = c.periodYear ∧ row.periodMonth = c.periodMonth

/-- The amounts of the payslip of an employee. -/
def payslip (c : Calculation) (e : Employee) : Except String Payslip :=
  (calculate ⟨e.salaryTiyn, e.ipnDeductionClaimed, e.opvrExempt⟩ c.rates).map
    (Payslip.ofResult e.salaryTiyn)

/-- The row is the payslip that the execution makes for the employee in the run. -/
def Makes (c : Calculation) (run : Uuid) (p : PayslipRow) (e : Employee) : Prop :=
  p.orgId = c.orgId ∧ p.runId = run ∧ p.employeeId = e.id ∧ c.payslip e = .ok p.amounts

end Calculation

/-- The transaction of `calculate_run` after its write to the header: the payslips that it has deleted
and those that it has inserted. -/
structure Writing where
  calculation : Calculation
  run : Uuid
  isNew : Bool
  deleted : List PayslipRow
  inserted : List PayslipRow

/-- How far a call has come. -/
inductive RunCall where
  | rated (org : Uuid) (year month : Nat) (rates : Rates)
  | rostered (c : Calculation)
  | looked (c : Calculation) (existing : Option Uuid)
  | updated (c : Calculation) (run : Uuid)
  | writing (x : Writing)
  | approvable (org run : Uuid)
  | approving (org run : Uuid)

/-- What the transactions lock: rows of `payroll_runs`, and values of its unique key. -/
inductive RunKey where
  | run (id : Uuid)
  | period (org : Uuid) (year month : Nat)

/-- The locks of a call's transaction. -/
inductive RunCall.Locks : RunCall → RunKey → LockMode → Prop where
  | updated (c : Calculation) (run : Uuid) : Locks (.updated c run) (.run run) .noKeyUpdate
  | writing (x : Writing) (hOld : x.isNew = false) : Locks (.writing x) (.run x.run) .noKeyUpdate
  | inserted (x : Writing) (hNew : x.isNew = true) : Locks (.writing x) (.run x.run) .update
  | period (x : Writing) (hNew : x.isNew = true) :
      Locks (.writing x) (.period x.calculation.orgId x.calculation.periodYear x.calculation.periodMonth) .update
  | approving (org run : Uuid) : Locks (.approving org run) (.run run) .noKeyUpdate

/-- The tables, the calls under way, and the executions of `calculate_run` that have committed, each with
its run, which no table holds. -/
structure ApprovalWorld where
  runs : Table Uuid RunRow
  payslips : List PayslipRow
  employees : List Employee
  calls : Table Nat RunCall
  executions : List (Uuid × Calculation)

namespace ApprovalWorld

def payslipsOf (w : ApprovalWorld) (run : Uuid) : List PayslipRow := w.payslips.filter (·.runId = run)

/-- The call `n` is as far as `call` says. -/
def setCall (w : ApprovalWorld) (n : Nat) (call : RunCall) : ApprovalWorld :=
  { w with calls := w.calls.put n call }

def endCall (w : ApprovalWorld) (n : Nat) : ApprovalWorld := { w with calls := w.calls.drop n }

/-- The row after the transaction's write to the header. -/
def header (w : ApprovalWorld) (x : Writing) (now : Timestamp) : RunRow :=
  match w.runs x.run with
  | some row => { row with ratesSnapshot := x.calculation.snapshot, calculatedAt := now }
  | none => ⟨⟨x.calculation.orgId, x.calculation.periodYear, x.calculation.periodMonth, .draft, none, none⟩, x.calculation.snapshot, now⟩

/-- What the commit of `calculate_run` makes of the tables. -/
def commit (w : ApprovalWorld) (n : Nat) (x : Writing) (now : Timestamp) : ApprovalWorld :=
  { w.endCall n with
    runs := w.runs.put x.run (w.header x now)
    payslips := w.payslips.filter (· ∉ x.deleted) ++ x.inserted
    executions := (x.run, x.calculation) :: w.executions }

end ApprovalWorld

/-- One step of the system. -/
inductive ApprovalStep : ApprovalWorld → ApprovalWorld → Prop where
  | readRates (w : ApprovalWorld) (n : Nat) (org : Uuid) (year month : Nat) (rates : Rates)
      (hIdle : w.calls n = none) : ApprovalStep w (w.setCall n (.rated org year month rates))
  | readRoster (w : ApprovalWorld) (n : Nat) (org : Uuid) (year month : Nat) (rates : Rates)
      (periodStart effectiveDate : Date) (c : Calculation)
      (hCall : w.calls n = some (.rated org year month rates))
      (hStart : firstDayOfMonth year month = some periodStart)
      (hEnd : lastDayOfMonth year month = some effectiveDate)
      (hRead : c = ⟨org, year, month, effectiveDate, rates,
        listEmployedDuring w.employees org periodStart effectiveDate⟩)
      (hScreened : c.Screened) : ApprovalStep w (w.setCall n (.rostered c))
  | findExisting (w : ApprovalWorld) (n : Nat) (c : Calculation) (run : Uuid) (row : RunRow)
      (hCall : w.calls n = some (.rostered c)) (hRow : w.runs run = some row) (hPeriod : c.IsFor row)
      (hDraft : row.status ≠ .approved) : ApprovalStep w (w.setCall n (.looked c (some run)))
  | findNone (w : ApprovalWorld) (n : Nat) (c : Calculation) (hCall : w.calls n = some (.rostered c))
      (hNone : ∀ run row, w.runs run = some row → ¬ c.IsFor row) :
      ApprovalStep w (w.setCall n (.looked c none))
  | updateHeader (w : ApprovalWorld) (n : Nat) (c : Calculation) (run : Uuid) (row : RunRow)
      (hCall : w.calls n = some (.looked c (some run)))
      (hLock : Granted RunCall.Locks w.calls n (.run run) .noKeyUpdate) (hRow : w.runs run = some row)
      (hOrg : row.orgId = c.orgId) (hDraft : row.status = .draft) :
      ApprovalStep w (w.setCall n (.updated c run))
  | deletePayslips (w : ApprovalWorld) (n : Nat) (c : Calculation) (run : Uuid)
      (hCall : w.calls n = some (.updated c run)) :
      ApprovalStep w (w.setCall n (.writing
        ⟨c, run, false, w.payslips.filter fun p => p.runId = run ∧ p.orgId = c.orgId, []⟩))
  | insertHeader (w : ApprovalWorld) (n : Nat) (c : Calculation) (run : Uuid)
      (hCall : w.calls n = some (.looked c none)) (hNew : w.runs run = none)
      (hLock : Granted RunCall.Locks w.calls n (.run run) .update)
      (hPeriod : Granted RunCall.Locks w.calls n (.period c.orgId c.periodYear c.periodMonth) .update)
      (hUnique : ∀ id row, w.runs id = some row → ¬ c.IsFor row) :
      ApprovalStep w (w.setCall n (.writing ⟨c, run, true, [], []⟩))
  | insertPayslip (w : ApprovalWorld) (n : Nat) (x : Writing) (p : PayslipRow) (e : Employee)
      (hCall : w.calls n = some (.writing x)) (hNext : x.calculation.roster[x.inserted.length]? = some e)
      (hMakes : x.calculation.Makes x.run p e) (hChecks : p.amounts.Checks)
      (hUnique : e.id ∉ x.inserted.map PayslipRow.employeeId) :
      ApprovalStep w (w.setCall n (.writing { x with inserted := x.inserted ++ [p] }))
  | commit (w : ApprovalWorld) (n : Nat) (x : Writing) (now : Timestamp)
      (hCall : w.calls n = some (.writing x)) (hAll : x.inserted.length = x.calculation.roster.length) :
      ApprovalStep w (w.commit n x now)
  | readRun (w : ApprovalWorld) (n : Nat) (org run : Uuid) (row : RunRow) (hIdle : w.calls n = none)
      (hRow : w.runs run = some row) (hOrg : row.orgId = org) (hDraft : row.status = .draft) :
      ApprovalStep w (w.setCall n (.approvable org run))
  | updateStatus (w : ApprovalWorld) (n : Nat) (org run : Uuid) (row : RunRow)
      (hCall : w.calls n = some (.approvable org run))
      (hLock : Granted RunCall.Locks w.calls n (.run run) .noKeyUpdate) (hRow : w.runs run = some row)
      (hOrg : row.orgId = org) (hDraft : row.status = .draft) :
      ApprovalStep w (w.setCall n (.approving org run))
  | commitApproval (w : ApprovalWorld) (n : Nat) (org run : Uuid) (row : RunRow)
      (hCall : w.calls n = some (.approving org run)) (hRow : w.runs run = some row) :
      ApprovalStep w
        { w.endCall n with runs := w.runs.put run { row with status := .approved } }
  /-- The transaction of `calculate_run` fails and is tried again. -/
  | retryUpdate (w : ApprovalWorld) (n : Nat) (c : Calculation) (run : Uuid)
      (hCall : w.calls n = some (.updated c run)) : ApprovalStep w (w.setCall n (.looked c (some run)))
  | retryWriting (w : ApprovalWorld) (n : Nat) (x : Writing) (hCall : w.calls n = some (.writing x)) :
      ApprovalStep w (w.setCall n (.looked x.calculation (if x.isNew then none else some x.run)))
  | retryApproval (w : ApprovalWorld) (n : Nat) (org run : Uuid)
      (hCall : w.calls n = some (.approving org run)) :
      ApprovalStep w (w.setCall n (.approvable org run))
  /-- A call ends with an error or in a crash. -/
  | abandon (w : ApprovalWorld) (n : Nat) : ApprovalStep w (w.endCall n)
  /-- The last transaction of `post_to_journal`. -/
  | post (w : ApprovalWorld) (n : Nat) (run entry : Uuid) (row : RunRow) (now : Timestamp)
      (hIdle : w.calls n = none) (hLock : Granted RunCall.Locks w.calls n (.run run) .noKeyUpdate)
      (hRow : w.runs run = some row) (hFree : row.journalEntryId = none) :
      ApprovalStep w
        { w with runs := w.runs.put run { row with journalEntryId := some entry, postedAt := some now } }
  /-- Employees are hired, dismissed and edited. -/
  | staff (w : ApprovalWorld) (employees : List Employee) : ApprovalStep w { w with employees }

/-- No run has been calculated. -/
structure Uncalculated (w : ApprovalWorld) : Prop where
  runs : w.runs = Table.empty
  payslips : w.payslips = []
  calls : w.calls = Table.empty

/-- The run and its payslips are what the execution has made, and nothing else. -/
structure OutputOf (run : Uuid) (row : RunRow) (payslips : List PayslipRow) (c : Calculation) : Prop where
  snapshot : row.ratesSnapshot = c.snapshot
  made : List.Forall₂ (c.Makes run) payslips c.roster
  distinct : (payslips.map PayslipRow.employeeId).Nodup

/-! ### What a transaction has locked stays as it is -/

theorem RunCall.Locks.mode {call : RunCall} {run : Uuid} {m : LockMode} (h : call.Locks (.run run) m) :
    m = .noKeyUpdate ∨ m = .update := by
  cases h with
  | updated | writing | approving => exact .inl rfl
  | inserted => exact .inr rfl

/-- Two transactions that have locked the same run conflict. -/
theorem RunCall.Locks.exclusive {call call' : RunCall} {run : Uuid} {m m' : LockMode}
    (h : call.Locks (.run run) m) (h' : call'.Locks (.run run) m') : m.conflicts m' = true := by
  rcases h.mode with rfl | rfl <;> rcases h'.mode with rfl | rfl <;> rfl

theorem RunCall.Locks.of_writing (x : Writing) : ∃ m, (RunCall.writing x).Locks (.run x.run) m := by
  cases hNew : x.isNew with
  | true => exact ⟨_, .inserted x hNew⟩
  | false => exact ⟨_, .writing x hNew⟩

/-- Where a transaction may lock a run for an update, no other has locked it. -/
theorem RunCall.unlocked_of_granted {calls : Table Nat RunCall} {n : Nat} {run : Uuid}
    (h : Granted RunCall.Locks calls n (.run run) .noKeyUpdate) {n' : Nat} {call : RunCall} {m : LockMode}
    (hCall : calls n' = some call) (hNe : n' ≠ n) : ¬ call.Locks (.run run) m := by
  intro hLock
  have hFree := h n' call m hCall hNe hLock
  rcases hLock.mode with rfl | rfl <;> cases hFree

/-- The run is there, of the organisation, and not approved. -/
def ApprovalWorld.IsDraft (w : ApprovalWorld) (org run : Uuid) : Prop :=
  ∃ row, w.runs run = some row ∧ row.orgId = org ∧ row.status = .draft

/-- What holds of a transaction of `calculate_run` after its write to the header. -/
structure WritingOk (w : ApprovalWorld) (x : Writing) : Prop where
  old : x.isNew = false → w.IsDraft x.calculation.orgId x.run
  new : x.isNew = true → w.runs x.run = none
  cleared : ∀ p ∈ w.payslips, p.runId = x.run → p ∈ x.deleted
  deletes : ∀ p ∈ x.deleted, p.runId = x.run
  inserts : ∀ p ∈ x.inserted, p.runId = x.run ∧ p.orgId = x.calculation.orgId
  made : List.Forall₂ (x.calculation.Makes x.run) x.inserted
    (x.calculation.roster.take x.inserted.length)
  distinct : (x.inserted.map PayslipRow.employeeId).Nodup

def RunCall.Ok (w : ApprovalWorld) : RunCall → Prop
  | .updated c run => w.IsDraft c.orgId run
  | .writing x => WritingOk w x
  | .approving org run => w.IsDraft org run
  | _ => True

/-- A call that has locked no run that changes is as it was. -/
theorem RunCall.Ok.frame {w w' : ApprovalWorld} {call : RunCall} (h : call.Ok w)
    (hSame : ∀ run m, call.Locks (.run run) m → w'.runs run = w.runs run ∧
      ∀ p ∈ w'.payslips, p.runId = run → p ∈ w.payslips) : call.Ok w' := by
  have hDraft : ∀ org run m, call.Locks (.run run) m → w.IsDraft org run → w'.IsDraft org run := by
    rintro org run m hLock ⟨row, hRow, hRest⟩
    exact ⟨row, (hSame run m hLock).1.trans hRow, hRest⟩
  cases call with
  | rated | rostered | looked | approvable => trivial
  | updated c run => exact hDraft c.orgId run _ (.updated c run) h
  | approving org run => exact hDraft org run _ (.approving org run) h
  | writing x =>
    obtain ⟨m, hLock⟩ := RunCall.Locks.of_writing x
    obtain ⟨hRow, hPayslips⟩ := hSame x.run m hLock
    exact {
      old := fun hOld => hDraft _ _ m hLock (h.old hOld)
      new := fun hNew => hRow.trans (h.new hNew)
      cleared := fun p hp hRun => h.cleared p (hPayslips p hp hRun) hRun
      deletes := h.deletes
      inserts := h.inserts
      made := h.made
      distinct := h.distinct }

/-! ### Every run -/

/-- The locks exclude each other, the transactions are as far as they should be, and each run holds what
one execution has made. -/
structure ApprovalOk (w : ApprovalWorld) : Prop where
  locks : LocksOk RunCall.Locks w.calls
  calls : ∀ n call, w.calls n = some call → call.Ok w
  payslips : ∀ p ∈ w.payslips, ∃ row, w.runs p.runId = some row ∧ row.orgId = p.orgId
  output : ∀ run row, w.runs run = some row → ∃ c, (run, c) ∈ w.executions ∧
    OutputOf run row (w.payslipsOf run) c

/-- Approved runs stay as they are. -/
def ApprovalKeeps (w w' : ApprovalWorld) : Prop :=
  ∀ run row, w.runs run = some row → row.status = .approved → ∃ row', w'.runs run = some row' ∧
    row'.status = .approved ∧ row'.ratesSnapshot = row.ratesSnapshot ∧ w'.payslipsOf run = w.payslipsOf run

namespace ApprovalOk

variable {w : ApprovalWorld} {n : Nat}

/-- A call goes on without writing to a table. -/
theorem setCall (hOk : ApprovalOk w) {call : RunCall} (hCall : call.Ok w)
    (hLocks : ∀ key m, call.Locks key m →
      (∃ before, w.calls n = some before ∧ before.Locks key m) ∨ Granted RunCall.Locks w.calls n key m) :
    ApprovalOk (w.setCall n call) where
  locks := hOk.locks.put hLocks
  calls n' call' h := by
    refine RunCall.Ok.frame (w := w) ?_ fun _ _ _ => ⟨rfl, fun _ hp _ => hp⟩
    rcases Table.put_eq_some.mp h with ⟨-, rfl⟩ | ⟨-, h⟩
    · exact hCall
    · exact hOk.calls n' call' h
  payslips := hOk.payslips
  output := hOk.output

/-- A call goes on with the locks that it had. -/
theorem goOn (hOk : ApprovalOk w) {before call : RunCall} (hBefore : w.calls n = some before)
    (hCall : call.Ok w) (hLocks : ∀ key m, call.Locks key m → before.Locks key m) :
    ApprovalOk (w.setCall n call) :=
  hOk.setCall hCall fun key m hLock => .inl ⟨before, hBefore, hLocks key m hLock⟩

theorem endCall (hOk : ApprovalOk w) : ApprovalOk (w.endCall n) where
  locks := hOk.locks.drop
  calls n' call h :=
    (hOk.calls n' call (Table.drop_eq_some.mp h).2).frame fun _ _ _ => ⟨rfl, fun _ hp _ => hp⟩
  payslips := hOk.payslips
  output := hOk.output

/-- No other call has locked what a call has locked. -/
theorem unlocked (hOk : ApprovalOk w) {call call' : RunCall} {run : Uuid} {m m' : LockMode} {n' : Nat}
    (hCall : w.calls n = some call) (hLock : call.Locks (.run run) m) (hCall' : w.calls n' = some call')
    (hNe : n' ≠ n) : ¬ call'.Locks (.run run) m' := by
  intro hLock'
  have hNone := hOk.locks n call n' call' (.run run) m m' hCall hCall' hNe.symm hLock hLock'
  rw [hLock.exclusive hLock'] at hNone
  cases hNone

end ApprovalOk

/-! ### The steps that write -/

section commit

variable {w : ApprovalWorld} {n : Nat} {x : Writing} {now : Timestamp}

/-- What the transaction has deleted is all that the run had. -/
theorem WritingOk.payslipsOf_commit (h : WritingOk w x) :
    (w.commit n x now).payslipsOf x.run = x.inserted := by
  have hMine : x.inserted.filter (·.runId = x.run) = x.inserted :=
    List.filter_eq_self.mpr fun p hp => decide_eq_true (h.inserts p hp).1
  have hGone : (w.payslips.filter (· ∉ x.deleted)).filter (·.runId = x.run) = [] := by
    refine List.filter_eq_nil_iff.mpr fun p hp hRun => ?_
    obtain ⟨hThere, hKept⟩ := List.mem_filter.mp hp
    exact of_decide_eq_true hKept (h.cleared p hThere (of_decide_eq_true hRun))
  show ((w.payslips.filter (· ∉ x.deleted)) ++ x.inserted).filter (·.runId = x.run) = x.inserted
  rw [List.filter_append, hGone, hMine, List.nil_append]

theorem WritingOk.payslipsOf_commit_ne (h : WritingOk w x) {run : Uuid} (hNe : run ≠ x.run) :
    (w.commit n x now).payslipsOf run = w.payslipsOf run := by
  have hOther : x.inserted.filter (·.runId = run) = [] := List.filter_eq_nil_iff.mpr fun p hp hRun =>
    hNe ((of_decide_eq_true hRun).symm.trans (h.inserts p hp).1)
  have hKept : (w.payslips.filter (· ∉ x.deleted)).filter (·.runId = run) =
      w.payslips.filter (·.runId = run) := by
    rw [List.filter_filter]
    refine List.filter_congr fun p _ => ?_
    by_cases hRun : p.runId = run
    · have hStays : p ∉ x.deleted := fun hp => hNe (hRun.symm.trans (h.deletes p hp))
      simp [hRun, hStays]
    · simp [hRun]
  show ((w.payslips.filter (· ∉ x.deleted)) ++ x.inserted).filter (·.runId = run) = _
  rw [List.filter_append, hKept, hOther, List.append_nil]
  rfl

theorem ApprovalWorld.header_snapshot : (w.header x now).ratesSnapshot = x.calculation.snapshot := by
  unfold ApprovalWorld.header
  split <;> rfl

theorem WritingOk.header_orgId (h : WritingOk w x) :
    (w.header x now).orgId = x.calculation.orgId := by
  unfold ApprovalWorld.header
  cases hNew : x.isNew with
  | true => rw [h.new hNew]
  | false =>
    obtain ⟨row, hRow, hOrg, -⟩ := h.old hNew
    rw [hRow]
    exact hOrg

/-- A transaction of `calculate_run` ends. -/
theorem ApprovalOk.commit (hOk : ApprovalOk w) (hCall : w.calls n = some (.writing x))
    (hAll : x.inserted.length = x.calculation.roster.length) : ApprovalOk (w.commit n x now) := by
  have hWriting : WritingOk w x := hOk.calls n _ hCall
  obtain ⟨m, hLock⟩ : ∃ m, (RunCall.writing x).Locks (.run x.run) m := RunCall.Locks.of_writing x
  refine ⟨hOk.locks.drop, fun n' call' h => ?_, fun p hp => ?_, fun run row hRow => ?_⟩
  · obtain ⟨hNe, h⟩ := Table.drop_eq_some.mp h
    refine (hOk.calls n' call' h).frame fun run m' hLock' => ?_
    have hRun : run ≠ x.run := by
      rintro rfl
      exact hOk.unlocked hCall hLock h hNe hLock'
    refine ⟨Table.put_ne hRun, fun p hp hHis => ?_⟩
    rcases List.mem_append.mp hp with hp | hp
    · exact (List.mem_filter.mp hp).1
    · exact absurd (hHis.symm.trans (hWriting.inserts p hp).1) hRun
  · rcases List.mem_append.mp hp with hp | hp
    · obtain ⟨hThere, hKept⟩ := List.mem_filter.mp hp
      have hRun : p.runId ≠ x.run := fun hEq =>
        of_decide_eq_true hKept (hWriting.cleared p hThere hEq)
      obtain ⟨row, hRow, hOrg⟩ := hOk.payslips p hThere
      exact ⟨row, (Table.put_ne hRun).trans hRow, hOrg⟩
    · obtain ⟨hRun, hOrg⟩ := hWriting.inserts p hp
      refine ⟨w.header x now, ?_, hWriting.header_orgId.trans hOrg.symm⟩
      rw [hRun]
      exact Table.put_same _ _ _
  · rcases Table.put_eq_some.mp hRow with ⟨rfl, rfl⟩ | ⟨hNe, hRow⟩
    · refine ⟨x.calculation, List.mem_cons_self, ?_⟩
      have hMade := hWriting.made
      rw [hAll, List.take_length] at hMade
      rw [hWriting.payslipsOf_commit]
      exact ⟨ApprovalWorld.header_snapshot, hMade, hWriting.distinct⟩
    · obtain ⟨c, hLogged, hOutput⟩ := hOk.output run row hRow
      refine ⟨c, List.mem_cons_of_mem _ hLogged, ?_⟩
      rw [hWriting.payslipsOf_commit_ne hNe]
      exact hOutput

theorem WritingOk.keeps (h : WritingOk w x) : ApprovalKeeps w (w.commit n x now) := by
  intro run row hRow hApproved
  have hNe : run ≠ x.run := by
    rintro rfl
    cases hNew : x.isNew with
    | true =>
      rw [h.new hNew] at hRow
      cases hRow
    | false =>
      obtain ⟨row', hRow', -, hDraft⟩ := h.old hNew
      rw [hRow] at hRow'
      cases hRow'
      rw [hApproved] at hDraft
      cases hDraft
  exact ⟨row, (Table.put_ne hNe).trans hRow, hApproved, rfl, h.payslipsOf_commit_ne hNe⟩

end commit

/-- A row of a run is written whose snapshot stays, while no other call has locked the run. -/
theorem ApprovalOk.putRun {w w' : ApprovalWorld} (hOk : ApprovalOk w) {run : Uuid} {row row' : RunRow}
    (hRow : w.runs run = some row) (hRuns : w'.runs = w.runs.put run row')
    (hPayslips : w'.payslips = w.payslips) (hLog : w'.executions = w.executions)
    (hOrg : row'.orgId = row.orgId) (hSnapshot : row'.ratesSnapshot = row.ratesSnapshot)
    (hLocks : LocksOk RunCall.Locks w'.calls) (hCalls : ∀ n call, w'.calls n = some call →
      w.calls n = some call ∧ ∀ m, ¬ call.Locks (.run run) m) : ApprovalOk w' := by
  refine ⟨hLocks, fun n call h => ?_, fun p hp => ?_, fun run' row'' hRow' => ?_⟩
  · obtain ⟨hThere, hFree⟩ := hCalls n call h
    refine (hOk.calls n call hThere).frame fun run' m hLock => ⟨?_, fun p hp _ => ?_⟩
    · have hNe : run' ≠ run := by
        rintro rfl
        exact hFree m hLock
      rw [hRuns, Table.put_ne hNe]
    · rwa [hPayslips] at hp
  · rw [hPayslips] at hp
    obtain ⟨found, hFound, hFoundOrg⟩ := hOk.payslips p hp
    rw [hRuns]
    by_cases hMine : p.runId = run
    · rw [hMine, hRow] at hFound
      cases hFound
      exact ⟨row', by rw [hMine, Table.put_same], hOrg.trans hFoundOrg⟩
    · exact ⟨found, (Table.put_ne hMine).trans hFound, hFoundOrg⟩
  · have hSame : w'.payslipsOf run' = w.payslipsOf run' := by
      unfold ApprovalWorld.payslipsOf
      rw [hPayslips]
    rw [hRuns] at hRow'
    rw [hLog, hSame]
    rcases Table.put_eq_some.mp hRow' with ⟨rfl, rfl⟩ | ⟨-, hRow'⟩
    · obtain ⟨c, hLogged, hOutput⟩ := hOk.output run' row hRow
      exact ⟨c, hLogged, hSnapshot.trans hOutput.snapshot, hOutput.made, hOutput.distinct⟩
    · exact hOk.output run' row'' hRow'

/-- Approved runs stay where a row is written that keeps its snapshot and is approved if it was. -/
theorem ApprovalKeeps.putRun {w w' : ApprovalWorld} {run : Uuid} {row row' : RunRow}
    (hRow : w.runs run = some row) (hRuns : w'.runs = w.runs.put run row')
    (hPayslips : w'.payslips = w.payslips) (hSnapshot : row'.ratesSnapshot = row.ratesSnapshot)
    (hStatus : row.status = .approved → row'.status = .approved) : ApprovalKeeps w w' := by
  intro run' found hFound hApproved
  have hSame : w'.payslipsOf run' = w.payslipsOf run' := by
    unfold ApprovalWorld.payslipsOf
    rw [hPayslips]
  rw [hRuns, hSame]
  by_cases hMine : run' = run
  · rw [hMine, hRow] at hFound
    cases hFound
    exact ⟨row', by rw [hMine, Table.put_same], hStatus hApproved, hSnapshot, rfl⟩
  · exact ⟨found, (Table.put_ne hMine).trans hFound, hApproved, rfl, rfl⟩

theorem ApprovalKeeps.of_tables {w w' : ApprovalWorld} (hRuns : w'.runs = w.runs)
    (hPayslips : w'.payslips = w.payslips) : ApprovalKeeps w w' := by
  intro run row hRow hApproved
  refine ⟨row, by rw [hRuns, hRow], hApproved, rfl, ?_⟩
  unfold ApprovalWorld.payslipsOf
  rw [hPayslips]

theorem ApprovalKeeps.trans {a b c : ApprovalWorld} (hAB : ApprovalKeeps a b) (hBC : ApprovalKeeps b c) :
    ApprovalKeeps a c := by
  intro run row hRow hApproved
  obtain ⟨row', hRow', hApproved', hSnapshot, hPayslips⟩ := hAB run row hRow hApproved
  obtain ⟨row'', hRow'', hApproved'', hSnapshot', hPayslips'⟩ := hBC run row' hRow' hApproved'
  exact ⟨row'', hRow'', hApproved'', hSnapshot'.trans hSnapshot, hPayslips'.trans hPayslips⟩

/-- One more payslip. -/
theorem WritingOk.insert {w : ApprovalWorld} {x : Writing} {p : PayslipRow} {e : Employee}
    (h : WritingOk w x) (hNext : x.calculation.roster[x.inserted.length]? = some e)
    (hMakes : x.calculation.Makes x.run p e) (hUnique : e.id ∉ x.inserted.map PayslipRow.employeeId) :
    WritingOk w { x with inserted := x.inserted ++ [p] } where
  old := h.old
  new := h.new
  cleared := h.cleared
  deletes := h.deletes
  inserts q hq := by
    rcases List.mem_append.mp hq with hq | hq
    · exact h.inserts q hq
    · rw [List.mem_singleton.mp hq]
      exact ⟨hMakes.2.1, hMakes.1⟩
  made := by
    show List.Forall₂ _ (x.inserted ++ [p]) (x.calculation.roster.take (x.inserted ++ [p]).length)
    rw [List.length_append, List.length_singleton, List.take_add_one, hNext]
    exact List.rel_append h.made (.cons hMakes .nil)
  distinct := by
    rw [List.map_append, List.map_singleton, hMakes.2.2.1]
    exact List.nodup_append.mpr ⟨h.distinct, List.nodup_singleton _, fun a ha b hb => by
      rw [List.mem_singleton.mp hb]
      exact fun hEq => hUnique (hEq ▸ ha)⟩

theorem WritingOk.emptied {w : ApprovalWorld} {c : Calculation} {run : Uuid} (hOk : ApprovalOk w)
    (hDraft : w.IsDraft c.orgId run) :
    WritingOk w ⟨c, run, false, w.payslips.filter fun p => p.runId = run ∧ p.orgId = c.orgId, []⟩ where
  old _ := hDraft
  new hNew := by cases hNew
  cleared p hp hRun := by
    -- A payslip has its run's organisation, so the statement's condition on it leaves none out.
    obtain ⟨row, hRow, hOrg, -⟩ := hDraft
    obtain ⟨found, hFound, hFoundOrg⟩ := hOk.payslips p hp
    rw [show p.runId = run from hRun, hRow] at hFound
    cases hFound
    exact List.mem_filter.mpr ⟨hp, decide_eq_true ⟨hRun, hFoundOrg.symm.trans hOrg⟩⟩
  deletes p hp := (of_decide_eq_true (List.mem_filter.mp hp).2).1
  inserts p hp := by cases hp
  made := .nil
  distinct := List.nodup_nil

theorem WritingOk.opened {w : ApprovalWorld} {c : Calculation} {run : Uuid} (hOk : ApprovalOk w)
    (hNew : w.runs run = none) : WritingOk w ⟨c, run, true, [], []⟩ where
  old hOld := by cases hOld
  new _ := hNew
  cleared p hp hRun := by
    obtain ⟨found, hFound, -⟩ := hOk.payslips p hp
    rw [show p.runId = run from hRun, hNew] at hFound
    cases hFound
  deletes p hp := by cases hp
  inserts p hp := by cases hp
  made := .nil
  distinct := List.nodup_nil

/-- One step keeps the invariant, and approved runs as they are. -/
theorem ApprovalOk.step {w w' : ApprovalWorld} (hOk : ApprovalOk w) (hStep : ApprovalStep w w') :
    ApprovalOk w' ∧ ApprovalKeeps w w' := by
  have hNoLocks : ∀ {n : Nat} {call : RunCall}, (∀ key m, ¬ call.Locks key m) → call.Ok w →
      ApprovalOk (w.setCall n call) ∧ ApprovalKeeps w (w.setCall n call) := fun hNone hCall =>
    ⟨hOk.setCall hCall fun key m hLock => absurd hLock (hNone key m), .of_tables rfl rfl⟩
  cases hStep with
  | readRates | readRoster | findExisting | findNone | readRun | retryUpdate | retryWriting
  | retryApproval =>
    exact hNoLocks (fun key m hLock => by cases hLock) trivial
  | updateHeader n c run row hCall hLock hRow hOrg hDraft =>
    refine ⟨hOk.setCall ⟨row, hRow, hOrg, hDraft⟩ fun key m hNow => .inr ?_, .of_tables rfl rfl⟩
    cases hNow
    exact hLock
  | deletePayslips n c run hCall =>
    have hDraft : w.IsDraft c.orgId run := hOk.calls n _ hCall
    refine ⟨hOk.goOn hCall (.emptied hOk hDraft) fun key m hNow => ?_, .of_tables rfl rfl⟩
    cases hNow with
    | writing => exact .updated c run
    | inserted _ hNew => cases hNew
    | period _ hNew => cases hNew
  | insertHeader n c run hCall hNew hLock hPeriod hUnique =>
    refine ⟨hOk.setCall (WritingOk.opened hOk hNew) fun key m hNow => .inr ?_, .of_tables rfl rfl⟩
    cases hNow with
    | writing _ hOld => cases hOld
    | inserted => exact hLock
    | period => exact hPeriod
  | insertPayslip n x p e hCall hNext hMakes hChecks hUnique =>
    have hWriting : WritingOk w x := hOk.calls n _ hCall
    refine ⟨hOk.goOn hCall (hWriting.insert hNext hMakes hUnique) fun key m hNow => ?_,
      .of_tables rfl rfl⟩
    cases hNow with
    | writing _ hOld => exact .writing x hOld
    | inserted _ hNew => exact .inserted x hNew
    | period _ hNew => exact .period x hNew
  | commit n x now hCall hAll =>
    have hWriting : WritingOk w x := hOk.calls n _ hCall
    exact ⟨hOk.commit hCall hAll, hWriting.keeps⟩
  | updateStatus n org run row hCall hLock hRow hOrg hDraft =>
    refine ⟨hOk.setCall ⟨row, hRow, hOrg, hDraft⟩ fun key m hNow => .inr ?_, .of_tables rfl rfl⟩
    cases hNow
    exact hLock
  | commitApproval n org run row hCall hRow =>
    refine ⟨hOk.putRun hRow rfl rfl rfl rfl rfl hOk.locks.drop fun n' call h => ?_,
      .putRun hRow rfl rfl rfl fun _ => rfl⟩
    obtain ⟨hNe, hThere⟩ := Table.drop_eq_some.mp h
    exact ⟨hThere, fun m => hOk.unlocked hCall (.approving org run) hThere hNe⟩
  | abandon n => exact ⟨hOk.endCall, .of_tables rfl rfl⟩
  | post n run entry row now hIdle hLock hRow hFree =>
    refine ⟨hOk.putRun hRow rfl rfl rfl rfl rfl hOk.locks fun n' call h => ⟨h, fun m => ?_⟩,
      .putRun hRow rfl rfl rfl id⟩
    refine RunCall.unlocked_of_granted hLock h ?_
    rintro rfl
    rw [hIdle] at h
    cases h
  | staff employees =>
    exact ⟨⟨hOk.locks, fun n call h => (hOk.calls n call h).frame fun _ _ _ => ⟨rfl, fun _ hp _ => hp⟩,
      hOk.payslips, hOk.output⟩, .of_tables rfl rfl⟩

theorem ApprovalOk.of_uncalculated {w : ApprovalWorld} (h : Uncalculated w) : ApprovalOk w where
  locks := by
    rw [h.calls]
    exact .empty
  calls n call hCall := by
    rw [h.calls] at hCall
    cases hCall
  payslips p hp := by
    rw [h.payslips] at hp
    cases hp
  output run row hRow := by
    rw [h.runs] at hRow
    cases hRow

/-- Once a run is approved, its payslips and its snapshot of the rates are what one execution of
`calculate_run` has made, one payslip for each employee whom that execution read and each calculated by
the rates of the snapshot, and stay so. -/
theorem approved_frozen {w₀ w : ApprovalWorld} (hEmpty : Uncalculated w₀)
    (hRun : Run ApprovalStep w₀ w) {run : Uuid} {row : RunRow} (hRow : w.runs run = some row)
    (hApproved : row.status = .approved) :
    (∃ c, (run, c) ∈ w.executions ∧ OutputOf run row (w.payslipsOf run) c) ∧
      ∀ w', Run ApprovalStep w w' → ∃ row', w'.runs run = some row' ∧ row'.status = .approved ∧
        row'.ratesSnapshot = row.ratesSnapshot ∧ w'.payslipsOf run = w.payslipsOf run := by
  have hOk : ApprovalOk w :=
    hRun.invariant (fun _ _ hBefore hStep => (hBefore.step hStep).1) (.of_uncalculated hEmpty)
  refine ⟨hOk.output run row hRow, fun w' hLater => ?_⟩
  have hKeeps : ApprovalKeeps w w' := Run.relates (fun _ => .of_tables rfl rfl)
    (fun _ _ _ hAB hBC => hAB.trans hBC) (fun _ _ hBefore hStep => (hBefore.step hStep).1)
    (fun _ _ hBefore hStep => (hBefore.step hStep).2) hLater hOk
  exact hKeeps run row hRow hApproved

/-- One employee of organisation 7, and no run as yet. -/
def staffed : ApprovalWorld where
  runs := Table.empty
  payslips := []
  employees := [⟨1, 7, 10000000, ⟨2025, 3, 1, by decide⟩, none, true, true, false⟩]
  calls := Table.empty
  executions := []

/-- The payroll of January 2026, at an income tax of 10 percent. -/
def januaryPayroll : Calculation where
  orgId := 7
  periodYear := 2026
  periodMonth := 1
  effectiveDate := januaryRequest.entryDate
  rates := ⟨1000, 0, 0, 0, 0, 0, 0, 0, 0, 0, 0, 0, 0, 0, 0, false⟩
  roster := staffed.employees

def januaryPayslip : PayslipRow := ⟨5, 7, 3, 1, ⟨10000000, 0, 0, 1000000, 9000000, 0, 0, 0, 0⟩⟩

/-- January is calculated and approved. -/
theorem approved_frozen_january : ∃ w row, Run ApprovalStep staffed w ∧ w.runs 3 = some row ∧
    (∃ c, (3, c) ∈ w.executions ∧ OutputOf 3 row (w.payslipsOf 3) c) ∧
      ∀ w', Run ApprovalStep w w' → ∃ row', w'.runs 3 = some row' ∧ row'.status = .approved ∧
        row'.ratesSnapshot = row.ratesSnapshot ∧ w'.payslipsOf 3 = w.payslipsOf 3 := by
  have hAlone : ∀ (calls : Table Nat RunCall) key m, (∀ n, n ≠ 0 → calls n = none) →
      Granted RunCall.Locks calls 0 key m := fun _ _ _ h => .of_alone h
  have hRates : Run ApprovalStep staffed _ :=
    .single (.readRates staffed 0 7 2026 1 januaryPayroll.rates rfl)
  have hRoster := hRates.tail (.readRoster _ 0 7 2026 1 januaryPayroll.rates ⟨2026, 1, 1, by decide⟩
    ⟨2026, 1, 31, by decide⟩ januaryPayroll rfl rfl rfl (by decide) (by unfold Calculation.Screened; decide))
  have hFound := hRoster.tail (.findNone _ 0 januaryPayroll rfl fun run row h => by cases h)
  have hHeader := hFound.tail (.insertHeader _ 0 januaryPayroll 3 rfl rfl
    (hAlone _ _ _ fun n hn => by simp [ApprovalWorld.setCall, Table.put_apply, hn, staffed])
    (hAlone _ _ _ fun n hn => by simp [ApprovalWorld.setCall, Table.put_apply, hn, staffed])
    fun run row h => by cases h)
  have hPayslip := hHeader.tail (.insertPayslip _ 0 _ januaryPayslip
    ⟨1, 7, 10000000, ⟨2025, 3, 1, by decide⟩, none, true, true, false⟩ rfl rfl ⟨rfl, rfl, rfl, by rfl⟩
    (by constructor <;> decide) (by simp))
  have hCommitted := hPayslip.tail (.commit _ 0 _ 100 rfl rfl)
  have hRead := hCommitted.tail (.readRun _ 0 7 3 _ rfl rfl rfl rfl)
  have hStatus := hRead.tail (.updateStatus _ 0 7 3 _ rfl
    (hAlone _ _ _ fun n hn => by
      simp [ApprovalWorld.setCall, ApprovalWorld.commit, ApprovalWorld.endCall, Table.put_apply,
        hn, staffed]) rfl rfl rfl)
  have hApproved := hStatus.tail (.commitApproval _ 0 7 3 _ rfl rfl)
  exact ⟨_, _, hApproved, rfl, approved_frozen ⟨rfl, rfl, rfl⟩ hApproved rfl rfl⟩

end CyberAccountant.Payroll
