import CyberAccountant.Hr.Answers
import CyberAccountant.Payroll.Approval

/-! The roster of a pay period: who was employed on one of its days.  It does not depend on when it is asked
for, as long as the hires and dismissals since then are about later days. -/

namespace CyberAccountant.Hr

open CyberAccountant.Library CyberAccountant.Ledger CyberAccountant.Api CyberAccountant.Api.Validation
  CyberAccountant.Tenancy HrTables

/-- What payroll reads of the row. -/
def Employee.forPayroll (e : Employee) : Payroll.Employee :=
  ⟨e.id, e.orgId, e.salaryTiyn, e.hiredOn, e.dismissedOn, e.status = .active, e.ipnDeductionClaimed, e.opvrExempt⟩

/-- The employee is on the staff on that day. -/
def Employee.OnStaff (e : Employee) (day : Date) : Prop := e.hiredOn ≤ day ∧ ∀ last ∈ e.dismissedOn, day ≤ last

section

variable {newId : Uuid → Nat → Uuid} {s : HrTables} {e : Employee} {org : Uuid} {p q : Date}

/-- The roster that payroll reads is the roster of these rows. -/
theorem listEmployedDuring_forPayroll :
    Payroll.listEmployedDuring (s.employees.rows.map Employee.forPayroll) org p q =
      ((rowsOf (·.orgId) s.employees.rows org).filter (Employees.employedDuring · p q)).map Employee.forPayroll := by
  rw [Payroll.listEmployedDuring, List.filter_map, rowsOf, List.filter_filter]
  congr 1
  apply List.filter_congr
  intro e _
  show (decide (e.orgId = org) && decide (e.hiredOn ≤ q) && _) = (_ && decide (e.orgId = org))
  rw [Bool.and_assoc, Bool.and_comm]
  rfl

theorem date_le_total (d e : Date) : d ≤ e ∨ e ≤ d := by
  show (_ ∨ _) ∨ _ ∨ _
  omega

/-- On the roster of a period are those who were on the staff on one of its days, and those whose dismissal is of a
day of the period before the first day of their employment. -/
theorem employedDuring_iff (hs : Ok newId s) (he : e ∈ s.employees.rows) (hPeriod : p ≤ q) :
    Employees.employedDuring e p q = true ↔
      (∃ day, p ≤ day ∧ day ≤ q ∧ e.OnStaff day) ∨ ∃ last ∈ e.dismissedOn, p ≤ last ∧ ¬e.hiredOn ≤ last ∧ e.hiredOn ≤ q := by
  unfold Employees.employedDuring Employee.OnStaff
  cases hLast : e.dismissedOn with
  | none =>
    have hActive : e.status = .active := by
      cases hStatus : e.status with
      | active => rfl
      | dismissed =>
        have hDay := (hs.dismissed e he).mp hStatus
        rw [hLast] at hDay
        cases hDay
    simp only [hActive, decide_true, Bool.and_true, decide_eq_true_eq, Option.mem_def, reduceCtorEq, false_and,
      exists_false, or_false, false_implies, implies_true, and_true]
    constructor
    · exact fun hHired => ⟨q, hPeriod, Date.le_refl q, hHired⟩
    · rintro ⟨day, -, hDay, hHired⟩
      exact Date.le_trans hHired hDay
  | some last =>
    simp only [Bool.and_eq_true, decide_eq_true_eq, Option.mem_def, Option.some.injEq, forall_eq', exists_eq_left']
    constructor
    · rintro ⟨hHired, hLater⟩
      by_cases hOrder : e.hiredOn ≤ last
      · rcases date_le_total p e.hiredOn with hFirst | hFirst
        · exact .inl ⟨e.hiredOn, hFirst, hHired, Date.le_refl _, hOrder⟩
        · exact .inl ⟨p, Date.le_refl p, hPeriod, hFirst, hLater⟩
      · exact .inr ⟨hLater, hOrder, hHired⟩
    · rintro (⟨day, hFrom, hTo, hHired, hBefore⟩ | ⟨hLater, -, hHired⟩)
      · exact ⟨Date.le_trans hHired hTo, Date.le_trans hFrom hBefore⟩
      · exact ⟨hHired, hLater⟩

/-! ### Later days -/

/-- The ids on the roster of a period, with the times of the rows, in the order of the roster. -/
def rosterIds (s : HrTables) (org : Uuid) (p q : Date) : List (Uuid × Timestamp) :=
  (s.employees.listEmployedDuring org p q).map fun e => (e.id, e.createdAt)

theorem rosterIds_eq : rosterIds s org p q =
    (((rowsOf (·.orgId) s.employees.rows org).filter (Employees.employedDuring · p q)).map
      fun e => (e.id, e.createdAt)).mergeSort fun a b => b.2 ≤ a.2 := by
  rw [rosterIds, Employees.listEmployedDuring, Employees.newestFirst, List.map_mergeSort]
  exact fun _ _ _ _ => rfl

/-- A hire or a dismissal that is of no day of the period or before it. -/
def LateFor (p q : Date) : HrCommand → Prop
  | .createEmployee _ _ hiredOn => ∀ day, castDate hiredOn = some day → ¬day ≤ q
  | .dismissEmployee _ _ date => ∀ day, castDate date = some day → p ≤ day
  | _ => True

variable {t t' : Employees} {now : Timestamp} {id : Uuid} {fields : EmployeeFields} {date : String}
  {result : Option Employee}

/-- What the roster says of the rows. -/
def rosterRows (t : Employees) (org : Uuid) (p q : Date) : List (Uuid × Timestamp) :=
  ((rowsOf (·.orgId) t.rows org).filter (Employees.employedDuring · p q)).map fun e => (e.id, e.createdAt)

theorem rosterRows_create {org' : Uuid} (hLate : ∀ day, castDate date = some day → ¬day ≤ q)
    (h : t.create now id org' fields date = .ok (t', e)) : rosterRows t' org p q = rosterRows t org p q := by
  obtain ⟨hInsert, -, day, hDay, rfl⟩ := Employees.create_ok h
  rw [rosterRows, rosterRows, (UniqueTable.insert?_eq_some hInsert).2, rowsOf, List.filter_append, List.filter_append]
  have hNone : (List.filter (fun e : Employee => decide (e.orgId = org))
      [⟨fields, id, org', day, none, .active, now, now⟩]).filter (Employees.employedDuring · p q) = [] := by
    rw [List.filter_filter, List.filter_eq_nil_iff]
    intro e he
    rw [List.mem_singleton.mp he]
    simp [Employees.employedDuring, hLate day hDay]
  rw [hNone, List.append_nil]
  rfl

/-- A change of rows that the roster does not see. -/
theorem rosterRows_change {k : Uuid × Uuid} {f : Employee → Employee} (hKeeps : Employees.KeepsIds f)
    (hCreated : ∀ e, (f e).createdAt = e.createdAt) (h : t.change? k f = some t')
    (hSame : ∀ e ∈ t.rows, employeeKeys.key e = k → Employees.employedDuring (f e) p q = Employees.employedDuring e p q) :
    rosterRows t' org p q = rosterRows t org p q := by
  have hOrg : ∀ e, (f e).orgId = e.orgId := fun e => (hKeeps e).2
  rw [rosterRows, rosterRows, UniqueTable.change?_eq_some h, rowsOf_changeRow hOrg, changeRow, List.filter_map,
    List.map_map]
  have hFilter : (rowsOf (·.orgId) t.rows org).filter
      ((Employees.employedDuring · p q) ∘ fun e => if employeeKeys.key e = k then f e else e) =
      (rowsOf (·.orgId) t.rows org).filter (Employees.employedDuring · p q) := by
    apply List.filter_congr
    intro e he
    show Employees.employedDuring (if employeeKeys.key e = k then f e else e) p q = _
    split
    · rename_i hHere
      exact hSame e (mem_rowsOf.mp he).1 hHere
    · rfl
  rw [hFilter]
  apply List.map_congr_left
  intro e _
  show ((if employeeKeys.key e = k then f e else e).id, (if employeeKeys.key e = k then f e else e).createdAt) = _
  split
  · rw [(hKeeps e).1, hCreated e]
  · rfl

theorem rosterRows_update {org' : Uuid} (h : t.update now org' id fields = .ok (t', result)) :
    rosterRows t' org p q = rosterRows t org p q := by
  rcases Employees.update_ok h with ⟨rfl, -, -⟩ | ⟨-, -, hChange, -⟩
  · rfl
  · exact rosterRows_change Employees.keepsIds_edit (fun _ => rfl) hChange fun _ _ _ => rfl

theorem rosterRows_dismiss {org' : Uuid} (hLate : ∀ day, castDate date = some day → p ≤ day)
    (hDismissed : ∀ e ∈ t.rows, e.status = .dismissed ↔ e.dismissedOn.isSome)
    (h : t.dismiss now org' id date = .ok (t', result)) : rosterRows t' org p q = rosterRows t org p q := by
  rcases Employees.dismiss_ok h with ⟨rfl, -, -⟩ | ⟨day, e, hDay, hRow, hActive, hChange, -⟩
  · rfl
  · refine rosterRows_change Employees.keepsIds_dismissal (fun _ => rfl) hChange fun e' he' hHere => ?_
    -- The row was active, without a last day; the one it gets is not before the period.
    have hSame : t.row? (id, org') = some e' := UniqueTable.row?_eq_some.mpr ⟨he', hHere⟩
    obtain rfl : e = e' := Option.some.inj (hRow.symm.trans hSame)
    have hNone : e.dismissedOn = none := by
      cases hLast : e.dismissedOn with
      | none => rfl
      | some last =>
        have hStatus := (hDismissed e he').mpr (by rw [hLast]; rfl)
        rw [hActive] at hStatus
        cases hStatus
    have hAfter : Employees.employedDuring (Employees.dismissal now day e) p q = decide (e.hiredOn ≤ q) := by
      show (decide (e.hiredOn ≤ q) && decide (p ≤ day)) = _
      rw [decide_eq_true (hLate day hDay), Bool.and_true]
    rw [hAfter, Employees.employedDuring, hNone, hActive]
    simp

/-- A statement about later days leaves the roster of the period. -/
theorem rosterIds_exec {c : HrCommand} (hLate : LateFor p q c) (hs : Ok newId s) :
    rosterIds (exec newId now c s).2 org p q = rosterIds s org p q := by
  have hRows : ∀ s' : HrTables, rosterRows s'.employees org p q = rosterRows s.employees org p q →
      rosterIds s' org p q = rosterIds s org p q := fun s' hSame => by
    rw [rosterIds_eq, rosterIds_eq]
    exact congrArg (List.mergeSort · _) hSame
  apply hRows
  cases c with
  | findMembership | findEmployee | listEmployees | countEmployees | listEmployedDuring | listOrders | countOrders
  | listContracts | listVacations | countVacations | createUser => rfl
  | createEmployee org' fields hiredOn =>
    simp only [exec]
    cases hMade : s.employees.create now (newId org' (s.drawn org')) org' fields hiredOn with
    | error fault => rfl
    | ok r => exact rosterRows_create hLate hMade
  | updateEmployee org' id patch =>
    simp only [exec]
    cases hMade : s.employees.update now org' id patch with
    | error fault => rfl
    | ok r => exact rosterRows_update hMade
  | dismissEmployee org' id date =>
    simp only [exec]
    cases hMade : s.employees.dismiss now org' id date with
    | error fault => rfl
    | ok r => exact rosterRows_dismiss hLate hs.dismissed hMade
  | createOrder org' draft =>
    simp only [exec]
    cases createOrder s.employees s.orders now (newId org' (s.drawn org')) org' draft <;> rfl
  | createContract org' draft =>
    simp only [exec]
    cases createContract s.employees s.contracts now (newId org' (s.drawn org')) org' draft <;> rfl
  | createVacation org' draft =>
    simp only [exec]
    cases createVacation s.employees s.vacations now (newId org' (s.drawn org')) org' draft <;> rfl
  | writeMember w =>
    obtain ⟨users, members, hWritten⟩ := writeMember_eq s w
    show rosterRows (s.writeMember w).employees org p q = _
    rw [hWritten]

end

/-- The hire or the dismissal that a request asks for is of no day of the period or before it. -/
def HrRequest.LateFor (p q : Date) (r : HrRequest) : Prop :=
  match r with
  | .createEmployee body => ∀ b day, body = some b → castDate (text b "hired_on") = some day → ¬day ≤ q
  | .dismissEmployee _ body => ∀ b day, body = some b → castDate (text b "dismissed_on") = some day → p ≤ day
  | _ => True

theorem lateFor_of_makes {p q : Date} {r : HrRequest} {c : HrCommand} (hLate : r.LateFor p q) (h : r.Makes c) :
    LateFor p q c := by
  cases c with
  | createEmployee org fields hiredOn =>
    cases r with
    | createEmployee body =>
      obtain ⟨b, hBody, hChecked⟩ := parseBody_bind h
      obtain ⟨-, hText, -⟩ := validateAndFillCreate_ok hChecked
      exact fun day hDay => hLate b day hBody (hText ▸ hDay)
    | _ => exact absurd h (by simp [HrRequest.Makes])
  | dismissEmployee org id date =>
    cases r with
    | dismissEmployee id' body =>
      obtain ⟨b, hBody, hChecked⟩ := parseBody_bind h
      obtain ⟨hText, -⟩ := validateDismiss_ok hChecked
      exact fun day hDay => hLate b day hBody (hText ▸ hDay)
    | _ => exact absurd h (by simp [HrRequest.Makes])
  | _ => trivial

theorem admitted_of_makes {r : HrRequest} {c : HrCommand} (h : r.Makes c) : c.Admitted := by
  cases c with
  | createEmployee org fields hiredOn =>
    cases r with
    | createEmployee body =>
      obtain ⟨b, -, hChecked⟩ := parseBody_bind h
      exact (validateAndFillCreate_ok hChecked).1
    | _ => exact absurd h (by simp [HrRequest.Makes])
  | updateEmployee org id patch =>
    cases r with
    | patchEmployee id' body =>
      obtain ⟨b, -, hChecked⟩ := parseBody_bind h
      exact validateAndFillUpdate_ok hChecked
    | _ => exact absurd h (by simp [HrRequest.Makes])
  | _ => trivial

/-- What a run that begins now makes of the roster. -/
abbrev SameRoster (org : Uuid) (p q : Date) (s s' : HrTables) : Prop := rosterIds s' org p q = rosterIds s org p q

/-- Whenever it is asked for, the roster of a period is the same, if those who are hired meanwhile are hired after the
period and those who are dismissed are dismissed on its first day or later. -/
theorem serve_roster {newId : Uuid → Nat → Uuid} {s : HrTables} (hs : Ok newId s) (org : Uuid) {p q : Date}
    {events : List HrEvent} (hLate : ∀ n principal r, .request n principal r ∈ events → r.LateFor p q) :
    rosterIds (serve newId s events).state org p q = rosterIds s org p q := by
  have hStep : ∀ now c s, c.Admitted ∧ LateFor p q c → Ok newId s →
      Ok newId (exec newId now c s).2 ∧ SameRoster org p q s (exec newId now c s).2 := fun now c s hc hs =>
    ⟨(exec_keeps hc.1 hs).1, rosterIds_exec hc.2 hs⟩
  have hWrite : ∀ w s, Ensures (exec newId) (Ok newId) (SameRoster org p q) (fun _ => True) (HrEvent.writeMember w) s :=
    fun w s => by
      have hCalls : (HrEvent.writeMember w).Calls fun c => c.Admitted ∧ LateFor p q c :=
        ⟨⟨trivial, trivial⟩, fun _ => trivial⟩
      exact Ensures.of_calls hCalls hStep s
  have hRefl : ∀ a, SameRoster org p q a a := fun _ => rfl
  have hTrans : ∀ a b c, SameRoster org p q a b → SameRoster org p q b c → SameRoster org p q a c :=
    fun _ _ _ h h' => Eq.trans h' h
  refine (AnswersOk.run (Q := fun _ => True) hRefl hTrans (AnswersOk.idle hs) (fun t n program hIn s _ => ?_)
    fun c now hIn s hOk => ?_).2
  · obtain ⟨e, he, hEvent⟩ := List.mem_map.mp hIn
    cases e with
    | request n' principal r =>
      cases hEvent
      have hCalls : (handle principal r).Calls fun c => c.Admitted ∧ LateFor p q c :=
        (handle_calls principal r).mono fun c hc =>
          ⟨admitted_of_makes hc.2, lateFor_of_makes (hLate _ principal r he) hc.2⟩
      exact Ensures.of_calls (hCalls.map _) hStep s
    | addMember | setRole | removeMember =>
      cases hEvent
      exact hWrite _ s
    | next | createUser | deleteUser => cases hEvent
  · obtain ⟨e, he, hEvent⟩ := List.mem_map.mp hIn
    cases e with
    | createUser | deleteUser =>
      cases hEvent
      exact hStep now _ s ⟨trivial, trivial⟩ hOk
    | request | addMember | setRole | removeMember | next => cases hEvent

/-- The tables after the hire. -/
def hired : HrTables :=
  (serve Nat.pair twoOwners [.request 0 (some ⟨1, some 7⟩) hireRequest, .next (some 7) 0 1, .next (some 7) 0 2]).state

theorem ok_hired : Ok Nat.pair hired :=
  (run_ok drawsApart_pair (Q := fun _ => True) (AnswersOk.idle ok_twoOwners) trivial fun _ _ _ _ _ _ => trivial).1.inv

/-- The dismissal at the end of March leaves the roster of March. -/
theorem serve_roster_march :
    rosterIds (serve Nat.pair hired [.request 0 (some ⟨1, some 7⟩)
        (dismissRequest "00000000-0000-0000-0000-000000000038"), .next (some 7) 0 3, .next (some 7) 0 4]).state 7
        .firstOfMarch .endOfMarch =
      rosterIds hired 7 .firstOfMarch .endOfMarch :=
  serve_roster ok_hired 7 fun n principal r hIn => by
    obtain ⟨rfl, rfl, rfl⟩ : n = 0 ∧ principal = some ⟨1, some 7⟩ ∧
        r = dismissRequest "00000000-0000-0000-0000-000000000038" := by
      simpa using hIn
    intro b day hBody hDay
    obtain rfl := Option.some.inj hBody
    have hText : castDate (text dismissBody "dismissed_on") = some .endOfMarch := by decide
    rw [hText] at hDay
    obtain rfl := Option.some.inj hDay
    decide

end CyberAccountant.Hr
