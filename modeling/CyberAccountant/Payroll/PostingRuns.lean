import CyberAccountant.Library.Transition
import CyberAccountant.Payroll.Posting

/-! Calls of `post_to_journal`, any number of them at once.  A call reads the run and its payslips,
drafts an entry, posts it and then claims the run for it, each in a transaction of its own, and it may
fail between any two of them. -/

namespace CyberAccountant.Payroll

open CyberAccountant.Library CyberAccountant.Ledger

inductive RunStatus where
  | draft
  | approved
  deriving DecidableEq

def RunStatus.text : RunStatus → String
  | .draft => "draft"
  | .approved => "approved"

/-- What `post_to_journal` reads and writes of a row of `payroll_runs`. -/
structure PayrollRun where
  orgId : Uuid
  periodYear : Nat
  periodMonth : Nat
  status : RunStatus
  journalEntryId : Option Uuid
  postedAt : Option Timestamp
  deriving DecidableEq

inductive PostError where
  | notFound (resource : String)
  | invalidRunState (message : String)
  | noPayslips
  | badAmount (message : String)
  | ledger (cause : JournalError)
  deriving DecidableEq

/-- `PayrollRepository::find_in_org`. -/
def findRun (runs : Table Uuid PayrollRun) (id org : Uuid) : Option PayrollRun :=
  (runs id).filter (·.orgId = org)

/-- The check of the run that `post_to_journal` makes first. -/
def checkRun (runs : Table Uuid PayrollRun) (org id : Uuid) : Except PostError PayrollRun := do
  let run ← orFail (.notFound "payroll_run") (findRun runs id org)
  ensure (run.status = .approved) (.invalidRunState
    ("cannot post a payroll run in status '" ++ run.status.text ++ "' — approve it first"))
  ensure (run.journalEntryId = none) (.invalidRunState "already_posted")
  pure run

/-- `last_day_of_month`; `none` where the text is no date of the calendar. -/
def lastDayOfMonth (year month : Nat) : Option Date :=
  if h : IsCalendarDay year month (daysInMonth year month) then
    some ⟨year, month, daysInMonth year month, h⟩
  else none

/-- The arguments that `post_to_journal` gives to `create_draft`. -/
def postingRequest (org user : Uuid) (run : PayrollRun) (payslips : List Payslip) :
    Except PostError DraftRequest := do
  ensure (payslips ≠ []) .noPayslips
  let lines ← (postingLines payslips).mapError .badAmount
  let entryDate ← orFail (.ledger (.database .invalidText)) (lastDayOfMonth run.periodYear run.periodMonth)
  pure {
    orgId := org
    userId := user
    entryDate
    description := "Начисление заработной платы за " ++ toString run.periodMonth ++ "." ++
      toString run.periodYear
    lines }

/-- The last transaction of `post_to_journal`: `UPDATE payroll_runs SET journal_entry_id = entry,
posted_at = now() WHERE id AND org_id AND journal_entry_id IS NULL`; `none` where no row satisfies the
condition. -/
def claim (now : Timestamp) (db : Db) (runs : Table Uuid PayrollRun) (org id entry : Uuid) :
    Except DbError (Option (Table Uuid PayrollRun)) :=
  match findRun runs id org with
  | none => .ok none
  | some run =>
    if run.journalEntryId = none then do
      ensure (db.entries entry).isSome .foreignKeyViolation
      pure (some (runs.put id { run with journalEntryId := some entry, postedAt := some now }))
    else .ok none

/-- How far a call has come. -/
inductive Phase where
  | checked (run : PayrollRun)
  | requested (req : DraftRequest)
  | draftChecked (req : DraftRequest)
  | drafted (entry : Uuid)
  | postChecked (entry : Uuid)
  | posted (entry : Uuid)

/-- A call of `post_to_journal` that is under way. -/
structure PostCall where
  orgId : Uuid
  runId : Uuid
  userId : Uuid
  phase : Phase

def PostCall.at (call : PostCall) (phase : Phase) : PostCall := { call with phase }

/-- The tables, the calls under way, and for each entry that a call has made the run it was made
for, which no table holds. -/
structure World where
  runs : Table Uuid PayrollRun
  payslips : Uuid → List Payslip
  db : Db
  calls : Table Nat PostCall
  madeFor : Table Uuid Uuid

namespace World

/-- The call `c` is as far as `call` says. -/
def setCall (w : World) (c : Nat) (call : PostCall) : World :=
  { w with calls := w.calls.put c call }

def setDb (w : World) (db : Db) : World := { w with db }

def endCall (w : World) (c : Nat) : World := { w with calls := w.calls.drop c }

/-- `journal_entry_id` of a run. -/
def recorded (w : World) (run : Uuid) : Option Uuid := (w.runs run).bind PayrollRun.journalEntryId

/-- The entry was made for the run and is posted. -/
def PostedFor (w : World) (run entry : Uuid) : Prop :=
  w.madeFor entry = some run ∧ ∃ r, w.db.entries entry = some r ∧ r.status = .posted

end World

/-- One step of the system, in which a call may begin on a run where `MayBegin` says so. -/
inductive PostingStep (num : NumericText) (MayBegin : World → Uuid → Prop) : World → World → Prop where
  | begin (w : World) (c : Nat) (org run user : Uuid) (row : PayrollRun) (hFree : w.calls c = none)
      (hMay : MayBegin w run) (hCheck : checkRun w.runs org run = .ok row) :
      PostingStep num MayBegin w (w.setCall c ⟨org, run, user, .checked row⟩)
  | readPayslips (w : World) (c : Nat) (call : PostCall) (row : PayrollRun) (req : DraftRequest)
      (hCall : w.calls c = some call) (hPhase : call.phase = .checked row)
      (hRequest : postingRequest call.orgId call.userId row (w.payslips call.runId) = .ok req) :
      PostingStep num MayBegin w (w.setCall c (call.at (.requested req)))
  | checkDraft (w : World) (c : Nat) (call : PostCall) (req : DraftRequest)
      (hCall : w.calls c = some call) (hPhase : call.phase = .requested req)
      (hChecks : Ledger.checkDraft w.db req = .ok ()) :
      PostingStep num MayBegin w (w.setCall c (call.at (.draftChecked req)))
  | writeDraft (w : World) (c : Nat) (call : PostCall) (req : DraftRequest) (now : Timestamp)
      (id : Uuid) (lineIds : Nat → Uuid) (db : Db) (hCall : w.calls c = some call)
      (hPhase : call.phase = .draftChecked req) (hWrite : createDraft num now w.db req id lineIds = .ok db) :
      PostingStep num MayBegin w
        { (w.setDb db).setCall c (call.at (.drafted id)) with madeFor := w.madeFor.put id call.runId }
  | readPost (w : World) (c : Nat) (call : PostCall) (entry : Uuid) (row : EntryRow)
      (hCall : w.calls c = some call) (hPhase : call.phase = .drafted entry)
      (hFind : findInOrg w.db entry call.orgId = some row) (hDraft : row.status = .draft) :
      PostingStep num MayBegin w (w.setCall c (call.at (.postChecked entry)))
  /-- `post` returns nothing where it finds no entry, which `post_to_journal` does not look at. -/
  | missPost (w : World) (c : Nat) (call : PostCall) (entry : Uuid) (hCall : w.calls c = some call)
      (hPhase : call.phase = .drafted entry) (hFind : findInOrg w.db entry call.orgId = none) :
      PostingStep num MayBegin w (w.setCall c (call.at (.posted entry)))
  | writePost (w : World) (c : Nat) (call : PostCall) (entry : Uuid) (now : Timestamp) (db : Db)
      (hCall : w.calls c = some call) (hPhase : call.phase = .postChecked entry)
      (hWrite : post now w.db call.orgId entry = .ok (some db)) :
      PostingStep num MayBegin w ((w.setDb db).setCall c (call.at (.posted entry)))
  | claim (w : World) (c : Nat) (call : PostCall) (entry : Uuid) (now : Timestamp)
      (runs : Table Uuid PayrollRun) (hCall : w.calls c = some call)
      (hPhase : call.phase = .posted entry)
      (hClaim : Payroll.claim now w.db w.runs call.orgId call.runId entry = .ok (some runs)) :
      PostingStep num MayBegin w { w.endCall c with runs }
  /-- A call ends with an error, with a transaction that matched no row, or in a crash. -/
  | abandon (w : World) (c : Nat) : PostingStep num MayBegin w (w.endCall c)
  /-- Whatever else is done changes neither what runs record nor the life of an entry made for a run. -/
  | others (w : World) (runs : Table Uuid PayrollRun) (payslips : Uuid → List Payslip) (db : Db)
      (hRuns : ∀ run, World.recorded { w with runs } run = w.recorded run)
      (hEntries : ∀ entry run r, w.madeFor entry = some run → w.db.entries entry = some r →
        ∃ r', db.entries entry = some r' ∧ r'.id = r.id ∧ r'.orgId = r.orgId ∧ r'.status = r.status) :
      PostingStep num MayBegin w { w with runs, payslips, db }

/-- No call is under way and none has been: no run is posted. -/
structure Unposted (w : World) : Prop where
  calls : w.calls = Table.empty
  madeFor : w.madeFor = Table.empty
  recorded : ∀ run, w.recorded run = none

/-- A call may begin at any time. -/
def Anytime (_ : World) (_ : Uuid) : Prop := True

/-- No other call on the run is under way, and no call on it has failed between posting its entry
and claiming the run for it. -/
def Alone (w : World) (run : Uuid) : Prop :=
  (∀ c call, w.calls c = some call → call.runId ≠ run) ∧
    ∀ entry, w.PostedFor run entry → w.recorded run = some entry

/-! ### What the parts do -/

theorem checkRun_ok {runs : Table Uuid PayrollRun} {org id : Uuid} {run : PayrollRun}
    (h : checkRun runs org id = .ok run) : runs id = some run ∧ run.journalEntryId = none := by
  simp only [checkRun, bind_eq_ok, orFail_eq_ok, ensure_eq_ok, pure_eq_ok] at h
  obtain ⟨row, hFind, _, -, _, hNone, rfl⟩ := h
  exact ⟨(Option.filter_eq_some_iff.mp hFind).1, hNone⟩

theorem postingRequest_orgId {org user : Uuid} {run : PayrollRun} {payslips : List Payslip}
    {req : DraftRequest} (h : postingRequest org user run payslips = .ok req) : req.orgId = org := by
  simp only [postingRequest, bind_eq_ok, ensure_eq_ok, pure_eq_ok] at h
  obtain ⟨_, -, lines, -, date, -, rfl⟩ := h
  rfl

theorem claim_ok {now : Timestamp} {db : Db} {runs runs' : Table Uuid PayrollRun} {org id entry : Uuid}
    (h : claim now db runs org id entry = .ok (some runs')) :
    ∃ run, runs id = some run ∧ run.journalEntryId = none ∧
      runs' = runs.put id { run with journalEntryId := some entry, postedAt := some now } := by
  unfold claim at h
  cases hFind : findRun runs id org with
  | none =>
    rw [hFind] at h
    cases h
  | some run =>
    rw [hFind] at h
    dsimp only at h
    by_cases hNone : run.journalEntryId = none
    · rw [if_pos hNone] at h
      simp only [bind_eq_ok, ensure_eq_ok, pure_eq_ok, Option.some.injEq] at h
      obtain ⟨_, -, rfl⟩ := h
      exact ⟨run, (Option.filter_eq_some_iff.mp hFind).1, hNone, rfl⟩
    · rw [if_neg hNone] at h
      cases h

namespace World

variable {w : World} {c c' : Nat} {call call' : PostCall}

theorem setCall_eq_some : (w.setCall c call).calls c' = some call' ↔
    c' = c ∧ call = call' ∨ c' ≠ c ∧ w.calls c' = some call' := Table.put_eq_some

theorem endCall_eq_some : (w.endCall c).calls c' = some call' ↔
    c' ≠ c ∧ w.calls c' = some call' := Table.drop_eq_some

/-- The claim records the entry with the run, and changes nothing that other runs record. -/
theorem recorded_claim {run run' entry entry' : Uuid} {row : PayrollRun} {now : Timestamp} :
    recorded { w with
      runs := w.runs.put run { row with journalEntryId := some entry, postedAt := some now } } run' =
        some entry' ↔ run' = run ∧ entry = entry' ∨ run' ≠ run ∧ w.recorded run' = some entry' := by
  unfold recorded
  by_cases h : run' = run
  · simp [h]
  · simp [h, Table.put_ne h]

end World

/-! ### Every run -/

/-- What a call knows of the entry it has made. -/
def CallOk (w : World) (call : PostCall) : Prop :=
  match call.phase with
  | .checked _ => True
  | .requested req | .draftChecked req => req.orgId = call.orgId
  | .drafted entry | .postChecked entry => w.madeFor entry = some call.runId ∧
    ∃ r, w.db.entries entry = some r ∧ r.orgId = call.orgId
  | .posted entry => w.PostedFor call.runId entry

/-- Entries made for a run stand under their ids, and what a run records is posted. -/
structure PostingOk (w : World) : Prop where
  made : ∀ entry run, w.madeFor entry = some run → ∃ r, w.db.entries entry = some r ∧ r.id = entry
  recorded : ∀ run entry, w.recorded run = some entry → w.PostedFor run entry
  calls : ∀ c call, w.calls c = some call → CallOk w call

/-- An entry made for a run stays, a posted one stays posted, and what a run records stays recorded. -/
structure PostingKeeps (w w' : World) : Prop where
  made : ∀ entry run, w.madeFor entry = some run → w'.madeFor entry = some run
  entry : ∀ entry run r, w.madeFor entry = some run → w.db.entries entry = some r →
    ∃ r', w'.db.entries entry = some r' ∧ r'.id = r.id ∧ r'.orgId = r.orgId ∧
      (r.status = .posted → r'.status = .posted)
  recorded : ∀ run entry, w.recorded run = some entry → w'.recorded run = some entry

namespace PostingKeeps

variable {w w' : World}

/-- Steps of a call that write to no table keep what there is. -/
theorem of_calls (hMade : w'.madeFor = w.madeFor) (hDb : w'.db = w.db) (hRuns : w'.runs = w.runs) :
    PostingKeeps w w' where
  made entry run h := by rw [hMade]; exact h
  entry entry run r _ hRow := ⟨r, by rw [hDb]; exact hRow, rfl, rfl, fun h => h⟩
  recorded run entry h := by rw [World.recorded, hRuns]; exact h

theorem refl (w : World) : PostingKeeps w w := of_calls rfl rfl rfl

theorem trans {a b c : World} (hAB : PostingKeeps a b) (hBC : PostingKeeps b c) : PostingKeeps a c where
  made entry run h := hBC.made entry run (hAB.made entry run h)
  entry entry run r hMade hRow := by
    obtain ⟨r', hRow', hId, hOrg, hPosted⟩ := hAB.entry entry run r hMade hRow
    obtain ⟨r'', hRow'', hId', hOrg', hPosted'⟩ :=
      hBC.entry entry run r' (hAB.made entry run hMade) hRow'
    exact ⟨r'', hRow'', hId'.trans hId, hOrg'.trans hOrg, fun h => hPosted' (hPosted h)⟩
  recorded run entry h := hBC.recorded run entry (hAB.recorded run entry h)

theorem postedFor (h : PostingKeeps w w') {run entry : Uuid} (hPosted : w.PostedFor run entry) :
    w'.PostedFor run entry := by
  obtain ⟨hMade, r, hRow, hStatus⟩ := hPosted
  obtain ⟨r', hRow', -, -, hStays⟩ := h.entry entry run r hMade hRow
  exact ⟨h.made entry run hMade, r', hRow', hStays hStatus⟩

theorem callOk (h : PostingKeeps w w') {call : PostCall} (hCall : CallOk w call) : CallOk w' call := by
  have hMine : ∀ entry, (w.madeFor entry = some call.runId ∧
        ∃ r, w.db.entries entry = some r ∧ r.orgId = call.orgId) →
      w'.madeFor entry = some call.runId ∧
        ∃ r, w'.db.entries entry = some r ∧ r.orgId = call.orgId := by
    rintro entry ⟨hMade, r, hRow, hOrg⟩
    obtain ⟨r', hRow', -, hOrg', -⟩ := h.entry entry _ r hMade hRow
    exact ⟨h.made entry _ hMade, r', hRow', hOrg'.trans hOrg⟩
  unfold CallOk at hCall ⊢
  cases hPhase : call.phase with
  | checked row => trivial
  | requested req | draftChecked req => rwa [hPhase] at hCall
  | drafted entry | postChecked entry =>
    rw [hPhase] at hCall
    exact hMine entry hCall
  | posted entry =>
    rw [hPhase] at hCall
    exact h.postedFor hCall

end PostingKeeps

/-- The parts that a step leaves alone are in order after it; the rest is to be shown. -/
theorem PostingOk.after {w w' : World} (hOk : PostingOk w) (hKeeps : PostingKeeps w w')
    (hMade : ∀ entry run, w'.madeFor entry = some run → w.madeFor entry = some run ∨
      ∃ r, w'.db.entries entry = some r ∧ r.id = entry)
    (hRecorded : ∀ run entry, w'.recorded run = some entry → w.recorded run = some entry ∨
      w'.PostedFor run entry)
    (hCalls : ∀ c call, w'.calls c = some call → w.calls c = some call ∨ CallOk w' call) :
    PostingOk w' where
  made entry run h := by
    rcases hMade entry run h with hBefore | hNow
    · obtain ⟨r, hRow, hId⟩ := hOk.made entry run hBefore
      obtain ⟨r', hRow', hId', -⟩ := hKeeps.entry entry run r hBefore hRow
      exact ⟨r', hRow', hId'.trans hId⟩
    · exact hNow
  recorded run entry h := by
    rcases hRecorded run entry h with hBefore | hNow
    · exact hKeeps.postedFor (hOk.recorded run entry hBefore)
    · exact hNow
  calls c call h := by
    rcases hCalls c call h with hBefore | hNow
    · exact hKeeps.callOk (hOk.calls c call hBefore)
    · exact hNow

section step

variable {num : NumericText} {MayBegin : World → Uuid → Prop} {w w' : World} {c : Nat} {call : PostCall}
  (hOk : PostingOk w)
include hOk

/-- A call goes on without having written anything. -/
theorem PostingOk.setCall (hCall : CallOk w call) :
    PostingOk (w.setCall c call) ∧ PostingKeeps w (w.setCall c call) := by
  have hKeeps : PostingKeeps w (w.setCall c call) := .of_calls rfl rfl rfl
  refine ⟨hOk.after hKeeps (fun _ _ h => .inl h) (fun _ _ h => .inl h) fun c' call' h => ?_, hKeeps⟩
  rcases World.setCall_eq_some.mp h with ⟨-, rfl⟩ | ⟨-, h⟩
  · exact .inr hCall
  · exact .inl h

/-- An entry that a call has drafted is one made for its run. -/
theorem PostingOk.writeDraft {req : DraftRequest} {now : Timestamp} {id : Uuid} {lineIds : Nat → Uuid}
    {db : Db} (hOrg : req.orgId = call.orgId) (hWrite : createDraft num now w.db req id lineIds = .ok db) :
    PostingOk { (w.setDb db).setCall c (call.at (.drafted id)) with
        madeFor := w.madeFor.put id call.runId } ∧
      PostingKeeps w { (w.setDb db).setCall c (call.at (.drafted id)) with
        madeFor := w.madeFor.put id call.runId } := by
  obtain ⟨rows, -, hNew, -, rfl, -⟩ := createDraft_ok hWrite
  have hFresh : ∀ entry run, w.madeFor entry = some run → entry ≠ id := by
    rintro entry run hMade rfl
    obtain ⟨r, hRow, -⟩ := hOk.made entry run hMade
    rw [hNew] at hRow
    cases hRow
  have hKeeps : PostingKeeps w { (w.setDb (w.db.addEntry (draftHeader now id req) rows)).setCall c
      (call.at (.drafted id)) with madeFor := w.madeFor.put id call.runId } :=
    ⟨fun entry run h => Table.put_eq_some.mpr (.inr ⟨hFresh entry run h, h⟩),
      fun entry run r hMade hRow => ⟨r, Table.put_eq_some.mpr (.inr ⟨hFresh entry run hMade, hRow⟩),
        rfl, rfl, fun h => h⟩, fun _ _ h => h⟩
  have hDrafted : (w.db.addEntry (draftHeader now id req) rows).entries id =
      some (draftHeader now id req) := Table.put_same _ _ _
  refine ⟨hOk.after hKeeps (fun entry run h => ?_) (fun _ _ h => .inl h) fun c' call' h => ?_, hKeeps⟩
  · rcases Table.put_eq_some.mp h with ⟨rfl, -⟩ | ⟨-, h⟩
    · exact .inr ⟨_, hDrafted, rfl⟩
    · exact .inl h
  · rcases Table.put_eq_some.mp h with ⟨-, rfl⟩ | ⟨-, h⟩
    · exact .inr ⟨Table.put_same _ _ _, _, hDrafted, hOrg⟩
    · exact .inl h

/-- The transaction of `post` makes the entry of a call a posted one. -/
theorem PostingOk.writePost {entry : Uuid} {now : Timestamp} {db : Db}
    (hMade : w.madeFor entry = some call.runId) (hWrite : post now w.db call.orgId entry = .ok (some db)) :
    PostingOk ((w.setDb db).setCall c (call.at (.posted entry))) ∧
      PostingKeeps w ((w.setDb db).setCall c (call.at (.posted entry))) := by
  obtain ⟨row, hRow, -, -, -, -, rfl⟩ := post_ok hWrite
  have hKey : row.id = entry := by
    obtain ⟨r, hFound, hId⟩ := hOk.made entry _ hMade
    rw [hRow] at hFound
    cases hFound
    exact hId
  have hKeeps : PostingKeeps w ((w.setDb (w.db.withEntry (row.moved now .posted))).setCall c
      (call.at (.posted entry))) := by
    refine ⟨fun _ _ h => h, fun entry' run r _ hFound => ?_, fun _ _ h => h⟩
    by_cases hCase : entry' = entry
    · rw [hCase, hRow] at hFound
      cases hFound
      exact ⟨_, (moved_lookup hKey).mpr (.inl ⟨hCase, rfl⟩), rfl, rfl, fun _ => rfl⟩
    · exact ⟨r, (moved_lookup hKey).mpr (.inr ⟨hCase, hFound⟩), rfl, rfl, fun h => h⟩
  refine ⟨hOk.after hKeeps (fun _ _ h => .inl h) (fun _ _ h => .inl h) fun c' call' h => ?_, hKeeps⟩
  rcases World.setCall_eq_some.mp h with ⟨-, rfl⟩ | ⟨-, h⟩
  · exact .inr ⟨hMade, _, (moved_lookup hKey).mpr (.inl ⟨rfl, rfl⟩), rfl⟩
  · exact .inl h

/-- The first claim of a run records an entry that was made for it. -/
theorem PostingOk.claim {entry : Uuid} {now : Timestamp} {runs : Table Uuid PayrollRun}
    (hMine : w.PostedFor call.runId entry)
    (hClaim : Payroll.claim now w.db w.runs call.orgId call.runId entry = .ok (some runs)) :
    PostingOk { w.endCall c with runs } ∧ PostingKeeps w { w.endCall c with runs } := by
  obtain ⟨run, hRun, hNone, rfl⟩ := claim_ok hClaim
  have hUnrecorded : w.recorded call.runId = none := by simp [World.recorded, hRun, hNone]
  have hKeeps : PostingKeeps w { w.endCall c with
      runs := w.runs.put call.runId { run with journalEntryId := some entry, postedAt := some now } } := by
    refine ⟨fun _ _ h => h, fun _ _ r _ hRow => ⟨r, hRow, rfl, rfl, fun h => h⟩, fun run' entry' h => ?_⟩
    refine World.recorded_claim.mpr (.inr ⟨?_, h⟩)
    rintro rfl
    rw [hUnrecorded] at h
    cases h
  refine ⟨hOk.after hKeeps (fun _ _ h => .inl h) (fun run' entry' h => ?_) fun c' call' h => ?_, hKeeps⟩
  · rcases World.recorded_claim.mp h with ⟨rfl, rfl⟩ | ⟨-, h⟩
    · exact .inr hMine
    · exact .inl h
  · exact .inl (World.endCall_eq_some.mp h).2

/-- Every step keeps the invariant and what there was. -/
theorem PostingOk.step (h : PostingStep num MayBegin w w') : PostingOk w' ∧ PostingKeeps w w' := by
  cases h with
  | begin c org run user row hFree hMay hCheck =>
    have hNow : CallOk w ⟨org, run, user, .checked row⟩ := trivial
    exact hOk.setCall hNow
  | readPayslips c call row req hCall hPhase hRequest =>
    have hNow : CallOk w (call.at (.requested req)) := postingRequest_orgId hRequest
    exact hOk.setCall hNow
  | checkDraft c call req hCall hPhase hChecks =>
    have hMine := hOk.calls c call hCall
    rw [CallOk, hPhase] at hMine
    have hNow : CallOk w (call.at (.draftChecked req)) := hMine
    exact hOk.setCall hNow
  | writeDraft c call req now id lineIds db hCall hPhase hWrite =>
    have hMine := hOk.calls c call hCall
    rw [CallOk, hPhase] at hMine
    exact hOk.writeDraft hMine hWrite
  | readPost c call entry row hCall hPhase hFind hDraft =>
    have hMine := hOk.calls c call hCall
    rw [CallOk, hPhase] at hMine
    have hNow : CallOk w (call.at (.postChecked entry)) := hMine
    exact hOk.setCall hNow
  | missPost c call entry hCall hPhase hFind =>
    -- The draft is there, so `post` does find it.
    have hMine := hOk.calls c call hCall
    rw [CallOk, hPhase] at hMine
    obtain ⟨-, r, hRow, hOrg⟩ := hMine
    simp [findInOrg, hRow, hOrg] at hFind
  | writePost c call entry now db hCall hPhase hWrite =>
    have hMine := hOk.calls c call hCall
    rw [CallOk, hPhase] at hMine
    exact hOk.writePost hMine.1 hWrite
  | claim c call entry now runs hCall hPhase hClaim =>
    have hMine := hOk.calls c call hCall
    rw [CallOk, hPhase] at hMine
    exact hOk.claim hMine hClaim
  | abandon c =>
    have hKeeps : PostingKeeps w (w.endCall c) := .of_calls rfl rfl rfl
    exact ⟨hOk.after hKeeps (fun _ _ h => .inl h) (fun _ _ h => .inl h)
      fun c' call' h => .inl (World.endCall_eq_some.mp h).2, hKeeps⟩
  | others runs payslips db hRuns hEntries =>
    have hKeeps : PostingKeeps w { w with runs, payslips, db } := by
      refine ⟨fun _ _ h => h, fun entry run r hMade hRow => ?_, fun run entry h => ?_⟩
      · obtain ⟨r', hRow', hId, hOrg, hStatus⟩ := hEntries entry run r hMade hRow
        exact ⟨r', hRow', hId, hOrg, fun h => hStatus.trans h⟩
      · exact (hRuns run).trans h
    exact ⟨hOk.after hKeeps (fun _ _ h => .inl h) (fun run _ h => .inl ((hRuns run).symm.trans h))
      fun _ _ h => .inl h, hKeeps⟩

end step

/-! ### Runs in which calls are alone -/

/-- Calls on one run do not overlap, and before a call has posted its entry the run has no posted
one. -/
structure AloneOk (w : World) : Prop where
  one : ∀ c c' call call', w.calls c = some call → w.calls c' = some call' →
    call.runId = call'.runId → c = c'
  unrecorded : ∀ c call, w.calls c = some call → w.recorded call.runId = none
  before : ∀ c call, w.calls c = some call → (∀ entry, call.phase ≠ .posted entry) →
    ∀ entry, ¬ w.PostedFor call.runId entry
  unique : ∀ run entry entry', w.PostedFor run entry → w.PostedFor run entry' → entry = entry'

section alone

variable {num : NumericText} {w w' : World} {c : Nat} {call : PostCall} (hAlone : AloneOk w)
include hAlone

/-- A step after which no more calls are under way and no more entries posted. -/
theorem AloneOk.after (hCalls : ∀ c call', w'.calls c = some call' → ∃ call, w.calls c = some call ∧
      call'.runId = call.runId ∧ ∀ entry, call.phase = .posted entry → call'.phase = .posted entry)
    (hRecorded : ∀ c call, w'.calls c = some call → w'.recorded call.runId = w.recorded call.runId)
    (hPosted : ∀ run entry, w'.PostedFor run entry → w.PostedFor run entry) : AloneOk w' where
  one c c' call call' h h' hRun := by
    obtain ⟨old, hOld, hSame, -⟩ := hCalls c call h
    obtain ⟨old', hOld', hSame', -⟩ := hCalls c' call' h'
    exact hAlone.one c c' old old' hOld hOld' (by rw [← hSame, ← hSame', hRun])
  unrecorded c call h := by
    obtain ⟨old, hOld, hSame, -⟩ := hCalls c call h
    rw [hRecorded c call h, hSame]
    exact hAlone.unrecorded c old hOld
  before c call h hPhase entry hNow := by
    obtain ⟨old, hOld, hSame, hStays⟩ := hCalls c call h
    refine hAlone.before c old hOld (fun e hE => hPhase e (hStays e hE)) entry ?_
    rw [← hSame]
    exact hPosted _ entry hNow
  unique run entry entry' h h' := hAlone.unique run entry entry' (hPosted _ _ h) (hPosted _ _ h')

/-- A call that has not posted its entry goes on. -/
theorem AloneOk.moves {phase : Phase} (hCall : w.calls c = some call)
    (hPhase : ∀ entry, call.phase ≠ .posted entry) (hCalls : w'.calls = w.calls.put c (call.at phase))
    (hRuns : w'.runs = w.runs)
    (hPosted : ∀ run entry, w'.PostedFor run entry → w.PostedFor run entry) : AloneOk w' := by
  refine hAlone.after (fun c' call' h => ?_) (fun _ _ _ => by rw [World.recorded, hRuns]; rfl) hPosted
  rw [hCalls] at h
  rcases Table.put_eq_some.mp h with ⟨rfl, rfl⟩ | ⟨-, h⟩
  · exact ⟨call, hCall, rfl, fun entry hE => absurd hE (hPhase entry)⟩
  · exact ⟨call', h, rfl, fun _ hE => hE⟩

theorem AloneOk.begin {org run user : Uuid} {row : PayrollRun} (hMay : Alone w run)
    (hCheck : checkRun w.runs org run = .ok row) :
    AloneOk (w.setCall c ⟨org, run, user, .checked row⟩) := by
  obtain ⟨hOthers, hClaimed⟩ := hMay
  obtain ⟨hRun, hNone⟩ := checkRun_ok hCheck
  have hUnrecorded : w.recorded run = none := by simp [World.recorded, hRun, hNone]
  refine ⟨fun c₁ c₂ call₁ call₂ h₁ h₂ hSame => ?_, fun c' call' h => ?_, fun c' call' h hPhase entry hPosted => ?_,
    hAlone.unique⟩
  · rcases World.setCall_eq_some.mp h₁ with ⟨rfl, rfl⟩ | ⟨-, hOld₁⟩ <;>
      rcases World.setCall_eq_some.mp h₂ with ⟨rfl, rfl⟩ | ⟨-, hOld₂⟩
    · rfl
    · exact absurd hSame.symm (hOthers _ _ hOld₂)
    · exact absurd hSame (hOthers _ _ hOld₁)
    · exact hAlone.one _ _ _ _ hOld₁ hOld₂ hSame
  · rcases World.setCall_eq_some.mp h with ⟨-, rfl⟩ | ⟨-, h⟩
    · exact hUnrecorded
    · exact hAlone.unrecorded c' call' h
  · rcases World.setCall_eq_some.mp h with ⟨-, rfl⟩ | ⟨-, h⟩
    · have hRecorded := hClaimed entry hPosted
      rw [hUnrecorded] at hRecorded
      cases hRecorded
    · exact hAlone.before c' call' h hPhase entry hPosted

theorem AloneOk.writePost {entry : Uuid} {now : Timestamp} {db : Db} (hCall : w.calls c = some call)
    (hPhase : call.phase = .postChecked entry) (hKeyed : ∀ r, w.db.entries entry = some r → r.id = entry)
    (hMade : w.madeFor entry = some call.runId)
    (hWrite : post now w.db call.orgId entry = .ok (some db)) :
    AloneOk ((w.setDb db).setCall c (call.at (.posted entry))) := by
  obtain ⟨row, hRow, -, -, -, -, rfl⟩ := post_ok hWrite
  -- The only entry that is posted now and was not before is the one of the call.
  have hPosted : ∀ run entry', ((w.setDb (w.db.withEntry (row.moved now .posted))).setCall c
      (call.at (.posted entry))).PostedFor run entry' →
      w.PostedFor run entry' ∨ run = call.runId ∧ entry' = entry := by
    rintro run entry' ⟨hFor, r, hFound, hStatus⟩
    rcases (moved_lookup (hKeyed row hRow)).mp hFound with ⟨rfl, rfl⟩ | ⟨-, hFound⟩
    · have hSame := hMade.symm.trans hFor
      rw [Option.some.injEq] at hSame
      exact .inr ⟨hSame.symm, rfl⟩
    · exact .inl ⟨hFor, r, hFound, hStatus⟩
  have hNone := hAlone.before c call hCall (fun e hE => by rw [hPhase] at hE; cases hE)
  have hBefore : ∀ c' call', ((w.setDb (w.db.withEntry (row.moved now .posted))).setCall c
      (call.at (.posted entry))).calls c' = some call' → c' = c ∧ call' = call.at (.posted entry) ∨
        call'.runId ≠ call.runId ∧ w.calls c' = some call' := by
    intro c' call' h
    rcases Table.put_eq_some.mp h with ⟨rfl, rfl⟩ | ⟨hNe, h⟩
    · exact .inl ⟨rfl, rfl⟩
    · exact .inr ⟨fun hSame => hNe (hAlone.one c' c call' call h hCall hSame), h⟩
  refine ⟨fun c₁ c₂ call₁ call₂ h₁ h₂ hSame => ?_, fun c' call' h => ?_, fun c' call' h hE entry' hNow => ?_,
    fun run e e' h h' => ?_⟩
  · rcases hBefore c₁ call₁ h₁ with ⟨rfl, rfl⟩ | ⟨hNe₁, h₁⟩ <;>
      rcases hBefore c₂ call₂ h₂ with ⟨rfl, rfl⟩ | ⟨hNe₂, h₂⟩
    · rfl
    · exact absurd hSame.symm hNe₂
    · exact absurd hSame hNe₁
    · exact hAlone.one _ _ _ _ h₁ h₂ hSame
  · rcases hBefore c' call' h with ⟨-, rfl⟩ | ⟨-, h⟩
    · exact hAlone.unrecorded c call hCall
    · exact hAlone.unrecorded c' call' h
  · rcases hBefore c' call' h with ⟨-, rfl⟩ | ⟨hNe, h⟩
    · exact hE entry rfl
    · rcases hPosted _ _ hNow with hOld | ⟨hSame, -⟩
      · exact hAlone.before c' call' h hE entry' hOld
      · exact hNe hSame
  · rcases hPosted run e h with hOld | ⟨rfl, rfl⟩ <;> rcases hPosted _ e' h' with hOld' | ⟨hRun, rfl⟩
    · exact hAlone.unique run e e' hOld hOld'
    · rw [hRun] at hOld
      exact absurd hOld (hNone e)
    · exact absurd hOld' (hNone e')
    · rfl

/-- Every step keeps calls alone. -/
theorem AloneOk.step (hOk : PostingOk w) (h : PostingStep num Alone w w') : AloneOk w' := by
  cases h with
  | begin c org run user row hFree hMay hCheck => exact hAlone.begin hMay hCheck
  | readPayslips c call row req hCall hPhase hRequest =>
    exact hAlone.moves hCall (by simp [hPhase]) rfl rfl fun _ _ h => h
  | checkDraft c call req hCall hPhase hChecks =>
    exact hAlone.moves hCall (by simp [hPhase]) rfl rfl fun _ _ h => h
  | writeDraft c call req now id lineIds db hCall hPhase hWrite =>
    refine hAlone.moves hCall (by simp [hPhase]) rfl rfl fun run entry h => ?_
    obtain ⟨rows, -, hNew, -, rfl, -⟩ := createDraft_ok hWrite
    obtain ⟨hFor, r, hRow, hStatus⟩ := h
    rcases Table.put_eq_some.mp hRow with ⟨rfl, rfl⟩ | ⟨hNe, hRow⟩
    · cases hStatus
    · exact ⟨(Table.put_ne hNe).symm.trans hFor, r, hRow, hStatus⟩
  | readPost c call entry row hCall hPhase hFind hDraft =>
    exact hAlone.moves hCall (by simp [hPhase]) rfl rfl fun _ _ h => h
  | missPost c call entry hCall hPhase hFind =>
    exact hAlone.moves hCall (by simp [hPhase]) rfl rfl fun _ _ h => h
  | writePost c call entry now db hCall hPhase hWrite =>
    have hMine := hOk.calls c call hCall
    rw [CallOk, hPhase] at hMine
    refine hAlone.writePost hCall hPhase (fun r hRow => ?_) hMine.1 hWrite
    obtain ⟨r', hRow', hId⟩ := hOk.made entry _ hMine.1
    rw [hRow] at hRow'
    cases hRow'
    exact hId
  | claim c call entry now runs hCall hPhase hClaim =>
    obtain ⟨run, -, -, rfl⟩ := claim_ok hClaim
    refine hAlone.after (fun c' call' h => ?_) (fun c' call' h => ?_) fun _ _ h => h
    · exact ⟨call', (World.endCall_eq_some.mp h).2, rfl, fun _ hE => hE⟩
    · obtain ⟨hNe, h⟩ := World.endCall_eq_some.mp h
      have hOther : call'.runId ≠ call.runId := fun hSame => hNe (hAlone.one _ _ _ _ h hCall hSame)
      exact congrArg (Option.bind · PayrollRun.journalEntryId) (Table.put_ne hOther)
  | abandon c =>
    refine hAlone.after (fun c' call' h => ?_) (fun _ _ _ => rfl) fun _ _ h => h
    exact ⟨call', (World.endCall_eq_some.mp h).2, rfl, fun _ hE => hE⟩
  | others runs payslips db hRuns hEntries =>
    refine hAlone.after (fun c call h => ⟨call, h, rfl, fun _ hE => hE⟩) (fun _ call _ => hRuns call.runId)
      fun run entry h => ?_
    obtain ⟨hFor, r, hRow, hStatus⟩ := h
    obtain ⟨old, hOld, -⟩ := hOk.made entry run hFor
    obtain ⟨r', hRow', -, -, hSame⟩ := hEntries entry run old hFor hOld
    rw [hRow] at hRow'
    cases hRow'
    exact ⟨hFor, old, hOld, hSame.symm.trans hStatus⟩

end alone

/-! ### Any state that calls reach -/

theorem PostingOk.initial {w : World} (h : Unposted w) : PostingOk w where
  made entry run hMade := by
    rw [h.madeFor] at hMade
    cases hMade
  recorded run entry hRecorded := by
    rw [h.recorded] at hRecorded
    cases hRecorded
  calls c call hCall := by
    rw [h.calls] at hCall
    cases hCall

theorem AloneOk.initial {w : World} (h : Unposted w) : AloneOk w := by
  have hNone : ∀ run entry, ¬ w.PostedFor run entry := by
    rintro run entry ⟨hMade, -⟩
    rw [h.madeFor] at hMade
    cases hMade
  have hCalls : ∀ c call, w.calls c ≠ some call := by
    intro c call hCall
    rw [h.calls] at hCall
    cases hCall
  exact ⟨fun c _ call _ hCall => absurd hCall (hCalls c call),
    fun c call hCall => absurd hCall (hCalls c call), fun c call hCall => absurd hCall (hCalls c call),
    fun run entry _ hPosted => absurd hPosted (hNone run entry)⟩

theorem alone_anytime {num : NumericText} {w w' : World} (h : Run (PostingStep num Alone) w w') :
    Run (PostingStep num Anytime) w w' := by
  refine h.mono fun a b hStep => ?_
  cases hStep with
  | begin c org run user row hFree _ hCheck => exact .begin _ c org run user row hFree trivial hCheck
  | readPayslips c call row req hCall hPhase hRequest =>
    exact .readPayslips _ c call row req hCall hPhase hRequest
  | checkDraft c call req hCall hPhase hChecks => exact .checkDraft _ c call req hCall hPhase hChecks
  | writeDraft c call req now id lineIds db hCall hPhase hWrite =>
    exact .writeDraft _ c call req now id lineIds db hCall hPhase hWrite
  | readPost c call entry row hCall hPhase hFind hDraft =>
    exact .readPost _ c call entry row hCall hPhase hFind hDraft
  | missPost c call entry hCall hPhase hFind => exact .missPost _ c call entry hCall hPhase hFind
  | writePost c call entry now db hCall hPhase hWrite =>
    exact .writePost _ c call entry now db hCall hPhase hWrite
  | claim c call entry now runs hCall hPhase hClaim =>
    exact .claim _ c call entry now runs hCall hPhase hClaim
  | abandon c => exact .abandon _ c
  | others runs payslips db hRuns hEntries => exact .others _ runs payslips db hRuns hEntries

theorem PostingOk.reached {num : NumericText} {w₀ w : World} (hStart : Unposted w₀)
    (hRun : Run (PostingStep num Anytime) w₀ w) : PostingOk w :=
  hRun.invariant (fun _ _ hOk hStep => (hOk.step hStep).1) (PostingOk.initial hStart)

/-- What one state has, every later state keeps. -/
theorem PostingOk.keeps {num : NumericText} {w w' : World} (hOk : PostingOk w)
    (hRun : Run (PostingStep num Anytime) w w') : PostingKeeps w w' := by
  have hStep : ∀ a b, PostingOk a → PostingStep num Anytime a b → PostingOk b ∧ PostingKeeps a b :=
    fun a b hA h => hA.step h
  exact hRun.relates PostingKeeps.refl (fun _ _ _ => PostingKeeps.trans)
    (fun a b hA h => (hStep a b hA h).1) (fun a b hA h => (hStep a b hA h).2) hOk

/-- The approved payroll of January 2026, of one payslip. -/
def january : World where
  runs := Table.empty.put 5 ⟨1, 2026, 1, .approved, none, none⟩
  payslips _ := [payslip2026]
  db := ⟨[1], [7], systemChart, [], Table.empty, []⟩
  calls := Table.empty
  madeFor := Table.empty

def januaryRequest : DraftRequest where
  orgId := 1
  userId := 7
  entryDate := ⟨2026, 1, 31, by decide⟩
  description := "Начисление заработной платы за 1.2026"
  lines := [⟨"7210", "debit", "348840.00", none, none⟩, ⟨"3350", "credit", "250575.00", none, none⟩,
    ⟨"3120", "credit", "13425.00", none, none⟩, ⟨"3220", "credit", "40500.00", none, none⟩,
    ⟨"3210", "credit", "13500.00", none, none⟩, ⟨"3230", "credit", "15000.00", none, none⟩,
    ⟨"3150", "credit", "15840.00", none, none⟩]

/-- The checks of `create_draft` read the chart and the counterparties. -/
theorem checkDraft_congr {db db' : Db} (hAccounts : db'.accounts = db.accounts)
    (hParties : db'.counterparties = db.counterparties) (req : DraftRequest) :
    checkDraft db' req = checkDraft db req := by
  have hLine : checkLine db' = checkLine db := by
    funext org totals line
    simp only [checkLine, hAccounts, hParties]
  simp only [checkDraft, hLine]

theorem januaryRequest_ok : postingRequest 1 7 ⟨1, 2026, 1, .approved, none, none⟩ [payslip2026] =
    .ok januaryRequest := by
  have hLines : postingLines [payslip2026] = .ok januaryRequest.lines := by decide +kernel
  simp only [postingRequest, bind_eq_ok, ensure_eq_ok, mapError_eq_ok, orFail_eq_ok, pure_eq_ok]
  exact ⟨(), List.cons_ne_nil _ _, _, hLines, _, rfl, rfl⟩

theorem januaryRequest_checked : checkDraft january.db januaryRequest = .ok () := by decide +kernel

/-- The state in which a call on the run of January has come as far as `phase`. -/
def World.during (w : World) (c : Nat) (db : Db) (madeFor : Table Uuid Uuid) (phase : Phase) : World where
  runs := w.runs
  payslips := w.payslips
  db := db
  calls := w.calls.put c ⟨1, 5, 7, phase⟩
  madeFor := madeFor

section posting

variable {MayBegin : World → Uuid → Prop} {w : World} {c : Nat}

theorem World.during_next {db db' : Db} {madeFor madeFor' : Table Uuid Uuid} {phase phase' : Phase} :
    { ((w.during c db madeFor phase).setDb db').setCall c ⟨1, 5, 7, phase'⟩ with madeFor := madeFor' } =
      w.during c db' madeFor' phase' := by
  simp only [World.during, World.setDb, World.setCall, Table.put_put_same]

theorem World.during_call (w : World) (c : Nat) (db : Db) (madeFor : Table Uuid Uuid) (phase : Phase) :
    (w.during c db madeFor phase).calls c = some ⟨1, 5, 7, phase⟩ := Table.put_same _ _ _

/-- The call goes on with a step that ends in another phase of it. -/
theorem PostingStep.next {db db' : Db} {madeFor madeFor' : Table Uuid Uuid} {phase phase' : Phase}
    (h : PostingStep .plain MayBegin (w.during c db madeFor phase)
      { ((w.during c db madeFor phase).setDb db').setCall c ⟨1, 5, 7, phase'⟩ with madeFor := madeFor' }) :
    PostingStep .plain MayBegin (w.during c db madeFor phase) (w.during c db' madeFor' phase') := by
  rwa [World.during_next] at h

/-- A call on the run of January as far as its claim. -/
theorem posting_run {now now' : Timestamp} {id : Uuid} {lineIds : Nat → Uuid} {drafted db : Db}
    (hFree : w.calls c = none) (hMay : MayBegin w 5) (hRuns : w.runs = january.runs)
    (hPayslips : w.payslips = january.payslips) (hAccounts : w.db.accounts = january.db.accounts)
    (hParties : w.db.counterparties = january.db.counterparties)
    (hDraft : createDraft .plain now w.db januaryRequest id lineIds = .ok drafted)
    (hPost : post now' drafted 1 id = .ok (some db)) :
    Run (PostingStep .plain MayBegin) w (w.during c db (w.madeFor.put id 5) (.posted id)) := by
  have hCall := w.during_call c
  have hCheck : checkRun w.runs 1 5 = .ok ⟨1, 2026, 1, .approved, none, none⟩ := by
    rw [hRuns]
    rfl
  have hRequest : postingRequest 1 7 ⟨1, 2026, 1, .approved, none, none⟩ (w.payslips 5) =
      .ok januaryRequest := by
    rw [hPayslips]
    exact januaryRequest_ok
  have hChecks : checkDraft w.db januaryRequest = .ok () :=
    (checkDraft_congr hAccounts hParties januaryRequest).trans januaryRequest_checked
  obtain ⟨row, hRow, hOrg, hIsDraft, -⟩ := post_ok hPost
  have hFind : findInOrg drafted id 1 = some row := by simp [findInOrg, hRow, hOrg]
  have hBegun : Run (PostingStep .plain MayBegin) w
      (w.during c w.db w.madeFor (.checked ⟨1, 2026, 1, .approved, none, none⟩)) :=
    .single (.begin w c 1 5 7 _ hFree hMay hCheck)
  have hRequested := hBegun.tail
    (.next (.readPayslips _ c _ _ januaryRequest (hCall _ _ _) rfl hRequest))
  have hChecked := hRequested.tail (.next (.checkDraft _ c _ _ (hCall _ _ _) rfl hChecks))
  have hDrafted := hChecked.tail
    (.next (.writeDraft _ c _ _ now id lineIds drafted (hCall _ _ _) rfl hDraft))
  have hRead := hDrafted.tail (.next (.readPost _ c _ id row (hCall _ _ _) rfl hFind hIsDraft))
  exact hRead.tail (.next (.writePost _ c _ id now' db (hCall _ _ _) rfl hPost))

end posting

/-- The two transactions that draft and post the entry of January. -/
def draftAndPost (db : Db) (now : Timestamp) (id : Uuid) (lineIds : Nat → Uuid) : Except DbError Db := do
  let drafted ← createDraft .plain now db januaryRequest id lineIds
  orFail .checkViolation (← post now drafted 1 id)

theorem draftAndPost_ok {db db' : Db} {now : Timestamp} {id : Uuid} {lineIds : Nat → Uuid}
    (h : draftAndPost db now id lineIds = .ok db') : db'.accounts = db.accounts ∧
      db'.counterparties = db.counterparties ∧ (db'.entries id).map EntryRow.status = some .posted ∧
      ∃ drafted, createDraft .plain now db januaryRequest id lineIds = .ok drafted ∧
        post now drafted 1 id = .ok (some db') := by
  simp only [draftAndPost, bind_eq_ok, orFail_eq_ok] at h
  obtain ⟨drafted, hDraft, _, hPost, rfl⟩ := h
  obtain ⟨rows, -, -, -, rfl, -⟩ := createDraft_ok hDraft
  obtain ⟨row, hRow, -, -, -, -, rfl⟩ := post_ok hPost
  have hKey : row = draftHeader now id januaryRequest := by
    exact Option.some.inj (hRow.symm.trans (Table.put_same db.entries _ _))
  refine ⟨rfl, rfl, ?_, _, hDraft, hPost⟩
  rw [hKey]
  exact congrArg (Option.map EntryRow.status) (Table.put_same _ _ _)

/-- Nothing in the journal keeps the entry of January from being drafted and posted twice. -/
theorem posted_and_again : ∃ first second, draftAndPost january.db 100 10 (· + 20) = .ok first ∧
    draftAndPost first 200 11 (· + 40) = .ok second := by
  have hBoth : (draftAndPost january.db 100 10 (· + 20) >>= fun db =>
      draftAndPost db 200 11 (· + 40)).isOk := by decide +kernel
  cases hRun : (draftAndPost january.db 100 10 (· + 20) >>= fun db =>
      draftAndPost db 200 11 (· + 40)) with
  | error e =>
    rw [hRun] at hBoth
    cases hBoth
  | ok second =>
    obtain ⟨first, hFirst, hSecond⟩ := bind_eq_ok.mp hRun
    exact ⟨first, second, hFirst, hSecond⟩

theorem january_unposted : Unposted january := by
  refine ⟨rfl, rfl, fun run => ?_⟩
  by_cases h : run = 5
  · rw [h]
    rfl
  · simp [World.recorded, january, Table.put_ne h]

end CyberAccountant.Payroll
