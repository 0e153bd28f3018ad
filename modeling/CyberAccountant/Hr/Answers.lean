import CyberAccountant.Api.Dates
import CyberAccountant.Hr.History
import CyberAccountant.Hr.Isolation

/-! What holds of the personnel tables in every run of the service, and that what the checks of a request let
pass the tables take: the service never fails on it, whatever other requests are under way. -/

namespace CyberAccountant.Hr

open CyberAccountant.Library CyberAccountant.Ledger CyberAccountant.Api CyberAccountant.Api.Validation
  CyberAccountant.Tenancy HrTables

/-! ### What the checks admit -/

/-- The body names no day of the year 0. -/
def SaneDates (body : Json) : Prop := ∀ field t, stringField body field = some t → ¬InYearZero t

section

variable {body : Json} {field t : String} {fields : EmployeeFields}

theorem isValidDate_empty : isValidDate "" = false := by decide

/-- A date that was checked is cast. -/
theorem castDate_text (hSane : SaneDates body) (hValid : isValidDate (text body field) = true) :
    ∃ d, castDate (text body field) = some d := by
  unfold text at hValid ⊢
  cases hField : stringField body field with
  | none => simp [hField, isValidDate_empty] at hValid
  | some t =>
    rw [hField] at hValid
    exact castDate_of_valid hValid (hSane field t hField)

theorem castDate_optional (hSane : SaneDates body) {x : Option String} (h : optionalDate body field = .ok x) :
    ∃ d, castDate? x = .ok d := by
  unfold optionalDate at h
  split at h
  · cases h
    exact ⟨none, rfl⟩
  · rename_i t hField
    simp only [checkDate, bind_eq_ok, ensure_eq_ok, exists_const, pure_eq_ok] at h
    obtain ⟨hValid, rfl⟩ := h
    obtain ⟨d, hd⟩ := castDate_of_valid hValid (hSane field t hField)
    exact ⟨some d, by simp [castDate?, hd, orFail, bind, Except.bind, pure, Except.pure]⟩

theorem checkCommonSemantics_ok (h : EmployeesController.checkCommonSemantics body = .ok fields) : fields.Admitted := by
  simp only [EmployeesController.checkCommonSemantics, bind_eq_ok, ensure_eq_ok, exists_const, mapError_eq_ok,
    pure_eq_ok] at h
  obtain ⟨hIin, tiyn, hSalary, rfl⟩ := h
  exact ⟨hIin, parseTiyn_bounds hSalary⟩

theorem validateAndFillCreate_ok {draft : EmployeeFields × String}
    (h : EmployeesController.validateAndFillCreate body = .ok draft) :
    draft.1.Admitted ∧ draft.2 = text body "hired_on" ∧ isValidDate draft.2 = true := by
  simp only [EmployeesController.validateAndFillCreate, checkDate, bind_eq_ok, ensure_eq_ok, exists_const,
    pure_eq_ok] at h
  obtain ⟨-, -, fields, hFields, hDate, rfl⟩ := h
  exact ⟨checkCommonSemantics_ok hFields, rfl, hDate⟩

theorem validateAndFillUpdate_ok (h : EmployeesController.validateAndFillUpdate body = .ok fields) :
    fields.Admitted := by
  simp only [EmployeesController.validateAndFillUpdate, bind_eq_ok, ensure_eq_ok, exists_const] at h
  obtain ⟨-, -, -, -, -, hFields⟩ := h
  exact checkCommonSemantics_ok hFields

theorem validateDismiss_ok (h : EmployeesController.validateDismiss body = .ok t) :
    t = text body "dismissed_on" ∧ isValidDate t = true := by
  simp only [EmployeesController.validateDismiss, checkDate, bind_eq_ok, ensure_eq_ok, exists_const, pure_eq_ok] at h
  obtain ⟨-, -, hDate, rfl⟩ := h
  exact ⟨rfl, hDate⟩

/-- A kind of the list is a kind of the column. -/
theorem orderKind_of_mem (h : t ∈ OrderKind.all.map OrderKind.text) : ∃ kind, OrderKind.ofText? t = some kind := by
  obtain ⟨kind, hKind, rfl⟩ := List.mem_map.mp h
  exact Option.isSome_iff_exists.mp (List.find?_isSome.mpr ⟨kind, hKind, decide_eq_true rfl⟩)

theorem vacationKind_of_mem (h : t ∈ VacationKind.all.map VacationKind.text) :
    ∃ kind, VacationKind.ofText? t = some kind := by
  obtain ⟨kind, hKind, rfl⟩ := List.mem_map.mp h
  exact Option.isSome_iff_exists.mp (List.find?_isSome.mpr ⟨kind, hKind, decide_eq_true rfl⟩)

variable {now : Timestamp} {id org : Uuid}

/-- What the checks let pass makes a row. -/
theorem orderRow_total (hSane : SaneDates body) {d : OrderDraft} (h : HrController.validateOrder body = .ok d) :
    ∃ r, orderRow now id org d = .ok r := by
  simp only [HrController.validateOrder, checkDate, bind_eq_ok, ensure_eq_ok, exists_const, pure_eq_ok] at h
  obtain ⟨-, -, hKind, hIssued, hFrom, effectiveTo, hTo, rfl⟩ := h
  obtain ⟨issuedOn, hIssued⟩ := castDate_text hSane hIssued
  obtain ⟨effectiveFrom, hFrom⟩ := castDate_text hSane hFrom
  obtain ⟨effectiveTo, hTo⟩ := castDate_optional hSane hTo
  obtain ⟨kind, hKind⟩ := orderKind_of_mem hKind
  simp only [orderRow, hIssued, hFrom, hTo, hKind]
  exact ⟨_, rfl⟩

theorem contractRow_total (hSane : SaneDates body) {d : ContractDraft} (h : HrController.validateContract body = .ok d) :
    ∃ r, contractRow now id org d = .ok r := by
  simp only [HrController.validateContract, checkDate, bind_eq_ok, ensure_eq_ok, exists_const, pure_eq_ok] at h
  obtain ⟨-, -, hSigned, hStarts, endsOn, hEnds, rfl⟩ := h
  obtain ⟨signedOn, hSigned⟩ := castDate_text hSane hSigned
  obtain ⟨startsOn, hStarts⟩ := castDate_text hSane hStarts
  obtain ⟨endsOn, hEnds⟩ := castDate_optional hSane hEnds
  simp only [contractRow, hSigned, hStarts, hEnds]
  exact ⟨_, rfl⟩

theorem vacationRow_total (hSane : SaneDates body) {d : VacationDraft} (h : HrController.validateVacation body = .ok d) :
    ∃ r, vacationRow now id org d = .ok r := by
  simp only [HrController.validateVacation, checkDate, bind_eq_ok, ensure_eq_ok, exists_const, pure_eq_ok] at h
  obtain ⟨-, -, hStarts, hEnds, hOrder, hDays, hKind, rfl⟩ := h
  obtain ⟨startsOn, hStarts⟩ := castDate_text hSane hStarts
  obtain ⟨endsOn, hEnds⟩ := castDate_text hSane hEnds
  obtain ⟨kind, hKind⟩ := vacationKind_of_mem hKind
  have hRow : 0 < HrController.intField body "days" ∧ startsOn ≤ endsOn := ⟨hDays, castDate_le hStarts hEnds hOrder⟩
  simp only [vacationRow, hStarts, hEnds, hKind, orFail, bind, Except.bind]
  exact ⟨_, dif_pos hRow⟩

end

/-! ### What is answered -/

/-- The service failed. -/
def Failed (reply : HrReply) : Prop := reply = .refused .internalError

theorem errs_check {errors : List FieldError} : Errs (¬Failed ·) (check errors) := errs_ensure fun h => by cases h

theorem errs_checkDate {field value : String} : Errs (¬Failed ·) (checkDate field value) :=
  errs_ensure fun h => by cases h

theorem errs_optionalDate {body : Json} {field : String} : Errs (¬Failed ·) (optionalDate body field) := by
  unfold optionalDate
  split
  · exact errs_ok
  · exact errs_checkDate.bind fun _ => errs_ok

theorem errs_parseBody {body : Option Json} : Errs (¬Failed ·) (parseBody body) := errs_orFail fun h => by cases h

theorem errs_readId {id message : String} : Errs (¬Failed ·) (readId id message) := errs_orFail fun h => by cases h

theorem errs_filterEmployeeId {param : String} : Errs (¬Failed ·) (HrController.filterEmployeeId param) := by
  unfold HrController.filterEmployeeId
  split
  · exact errs_ok
  · exact (errs_orFail fun h => by cases h).bind fun _ => errs_ok

theorem errs_checkCommonSemantics {body : Json} :
    Errs (¬Failed ·) (EmployeesController.checkCommonSemantics body) :=
  (errs_ensure fun h => by cases h).bind fun _ => (errs_mapError fun _ h => by cases h).bind fun _ => errs_ok

theorem errs_validateAndFillCreate {body : Json} :
    Errs (¬Failed ·) (EmployeesController.validateAndFillCreate body) :=
  errs_check.bind fun _ => errs_checkCommonSemantics.bind fun _ => errs_checkDate.bind fun _ => errs_ok

theorem errs_validateAndFillUpdate {body : Json} :
    Errs (¬Failed ·) (EmployeesController.validateAndFillUpdate body) :=
  (errs_ensure fun h => by cases h).bind fun _ => (errs_ensure fun h => by cases h).bind fun _ =>
    (errs_ensure fun h => by cases h).bind fun _ => errs_check.bind fun _ => errs_checkCommonSemantics

theorem errs_validateDismiss {body : Json} : Errs (¬Failed ·) (EmployeesController.validateDismiss body) :=
  errs_check.bind fun _ => errs_checkDate.bind fun _ => errs_ok

theorem errs_validateOrder {body : Json} : Errs (¬Failed ·) (HrController.validateOrder body) :=
  errs_check.bind fun _ => (errs_ensure fun h => by cases h).bind fun _ => errs_checkDate.bind fun _ =>
    errs_checkDate.bind fun _ => errs_optionalDate.bind fun _ => errs_ok

theorem errs_validateContract {body : Json} : Errs (¬Failed ·) (HrController.validateContract body) :=
  errs_check.bind fun _ => errs_checkDate.bind fun _ => errs_checkDate.bind fun _ =>
    errs_optionalDate.bind fun _ => errs_ok

theorem errs_validateVacation {body : Json} : Errs (¬Failed ·) (HrController.validateVacation body) :=
  errs_check.bind fun _ => errs_checkDate.bind fun _ => errs_checkDate.bind fun _ =>
    (errs_ensure fun h => by cases h).bind fun _ => (errs_ensure fun h => by cases h).bind fun _ =>
      (errs_ensure fun h => by cases h).bind fun _ => errs_ok

/-! ### What the tables take -/

section

variable {newId : Uuid → Nat → Uuid} {s : HrTables} {t : Employees} {now : Timestamp} {id org employee : Uuid}
  {fields : EmployeeFields} {date : String}

theorem commit_fst {τ ρ : Type} {store : τ → HrTables} {x : Except StatementFault (τ × ρ)} :
    (commit s store x).1 = Prod.snd <$> x := by
  cases x <;> rfl

theorem create_not_other (hFields : fields.Admitted) (hDate : ∃ d, castDate date = some d) :
    t.create now id org fields date ≠ .error .other := by
  obtain ⟨d, hDate⟩ := hDate
  have hSalary : 0 ≤ fields.salaryTiyn := Int.le_of_lt hFields.2.1
  intro h
  simp only [Employees.create, hDate, orFail, ensure, if_pos hSalary, bind, Except.bind] at h
  split at h
  · rename_i hInsert
    split at hInsert <;> cases hInsert
    cases h
  · cases h

theorem update_not_other (hFields : fields.Admitted) : t.update now org id fields ≠ .error .other := by
  have hSalary : 0 ≤ fields.salaryTiyn := Int.le_of_lt hFields.2.1
  intro h
  unfold Employees.update at h
  split at h
  · simp only [orFail, ensure, if_pos hSalary, bind, Except.bind] at h
    split at h
    · rename_i hChange
      split at hChange <;> cases hChange
      cases h
    · cases h
  · cases h

/-- A dismissal changes nothing that could clash. -/
theorem dismiss_total (hDate : ∃ d, castDate date = some d) : ∃ p, t.dismiss now org id date = .ok p := by
  obtain ⟨d, hDate⟩ := hDate
  obtain ⟨t', hChange⟩ : ∃ t', t.change? (id, org) (Employees.dismissal now d) = some t' :=
    UniqueTable.change?_isSome fun _ _ hClash => hClash
  simp only [Employees.dismiss, hDate, hChange, orFail, bind, Except.bind, pure, Except.pure]
  split
  · exact ⟨_, rfl⟩
  · exact ⟨_, rfl⟩

theorem refers_of_employs {r : HrRow} (h : s.Employs r) : s.employees.Refers r.orgId r.employeeId := by
  obtain ⟨e, he, hId, hOrg⟩ := h
  have hRow : s.employees.row? (r.employeeId, r.orgId) = some e :=
    UniqueTable.row?_eq_some.mpr ⟨he, by rw [← hId, ← hOrg]; rfl⟩
  rw [Employees.Refers, Employees.findInOrg, hRow]
  rfl

theorem insertRow_total {ρ : Type} {row : ρ → HrRow} {t : HrTable row} {made : Except StatementFault ρ} {r : ρ}
    (hMade : made = .ok r) (hEmploys : s.Employs (row r)) (hFresh : ∀ r' ∈ t.rows, (row r').id ≠ (row r).id) :
    ∃ p, insertRow row s.employees t made = .ok p := by
  have hRefers : s.employees.Refers (row r).orgId (row r).employeeId := refers_of_employs hEmploys
  obtain ⟨t', hInsert⟩ := Option.isSome_iff_exists.mp (UniqueTable.insert?_isSome (u := hrKeys row).mpr hFresh)
  refine ⟨(t', r), ?_⟩
  simp only [insertRow, hMade, ensure, if_pos hRefers, hInsert, orFail, bind, Except.bind, pure, Except.pure]

end

/-! ### What requests ensure -/

/-- A program of a request whose replies are of `Q`. -/
abbrev Sure (newId : Uuid → Nat → Uuid) {α : Type} (Q : α → Prop) (p : HrM α) (s : HrTables) : Prop :=
  Ensures (exec newId) (Ok newId) Grows Q p s

section

variable {newId : Uuid → Nat → Uuid} {s : HrTables} {α : Type} {Q : α → Prop} {P : Prop}

theorem sure_then {c : HrCommand} {rest : c.Reply → HrM α} (hAdmitted : c.Admitted)
    (hRest : ∀ now s', Grows s s' → Ok newId s' →
      Sure newId Q (rest (exec newId now c s').1) (exec newId now c s').2) :
    Sure newId Q ((Program.perform c : HrM c.Reply) >>= rest) s := by
  intro now s' hMore hOk
  obtain ⟨hOk', hGrows⟩ := exec_keeps hAdmitted hOk
  exact ⟨hOk', hGrows, hRest now s' hMore hOk⟩

/-- The reply where the condition `P` on the request rules a failure out. -/
abbrev Unfailing (P : Prop) (reply : HrReply) : Prop := P → ¬Failed reply

theorem sure_requireOrg {p : Option Principal} {resource action : String} {handler : OrgContext → HrM HrReply}
    (h : ∀ ctx s, Sure newId (Unfailing P) (handler ctx) s) :
    Sure newId (Unfailing P) (requireOrg p resource action handler) s := by
  match p with
  | none => exact fun _ hFailed => by cases hFailed
  | some ⟨user, none⟩ => exact fun _ hFailed => by cases hFailed
  | some ⟨user, some org⟩ =>
    refine sure_then (c := .findMembership org user) trivial fun now s' _ _ => ?_
    cases (exec newId now (.findMembership org user) s').1 with
    | none => exact fun _ hFailed => by cases hFailed
    | some m =>
      show Ensures _ _ _ _ (if allows (roleText m.role) resource action then _ else _) _
      split
      · exact h ⟨org, m.role, user⟩ _
      · exact fun _ hFailed => by cases hFailed

theorem sure_orReply {x : Except HrReply α} {handler : α → HrM HrReply} (hErrs : Errs (¬Failed ·) x)
    (h : ∀ a, x = .ok a → Sure newId (Unfailing P) (handler a) s) :
    Sure newId (Unfailing P) (orReply x handler) s := by
  cases x with
  | error reply => exact fun _ => hErrs reply rfl
  | ok a => exact h a rfl

theorem sure_requireEmployee {ctx : OrgContext} {employee : Uuid} {handler : HrM HrReply}
    (h : ∀ s, (∃ e ∈ s.employees.rows, e.id = employee ∧ e.orgId = ctx.orgId) →
      Sure newId (Unfailing P) handler s) :
    Sure newId (Unfailing P) (HrController.requireEmployee ctx employee handler) s := by
  refine sure_then (c := .findEmployee employee ctx.orgId) trivial fun now s' _ _ => ?_
  cases hFound : s'.employees.findInOrg employee ctx.orgId with
  | none =>
    simp only [exec, hFound]
    exact fun _ hFailed => by cases hFailed
  | some e =>
    simp only [exec, hFound]
    obtain ⟨he, hKey⟩ := UniqueTable.row?_eq_some.mp hFound
    exact h s' ⟨e, he, congrArg Prod.fst hKey, congrArg Prod.snd hKey⟩

/-- The reply to an insertion that succeeds. -/
theorem sure_inserted {ρ : Type} {reply : ρ → HrReply} (hReply : ∀ r, ¬Failed (reply r))
    {x : Except StatementFault ρ} (h : P → ∃ r, x = .ok r) :
    Sure newId (Unfailing P) (pure (HrController.inserted reply x) : HrM HrReply) s := by
  intro hP
  obtain ⟨r, rfl⟩ := h hP
  exact hReply r

end

/-- The body of a request. -/
def HrRequest.body? : HrRequest → Option Json
  | .createEmployee body | .patchEmployee _ body | .dismissEmployee _ body | .createOrder body | .createContract body
  | .createVacation body => body
  | .listEmployees _ _ | .getEmployee _ | .listOrders _ _ _ | .listContracts _ | .listVacations _ _ _ => none

/-- The request names no day of the year 0. -/
def HrRequest.Sane (r : HrRequest) : Prop := ∀ body, r.body? = some body → SaneDates body

/-- What was parsed and checked is what was checked. -/
theorem parseBody_bind {α : Type} {body : Option Json} {validate : Json → Except HrReply α} {a : α}
    (h : parseBody body >>= validate = .ok a) : ∃ b, body = some b ∧ validate b = .ok a := by
  simp only [parseBody, bind_eq_ok, orFail_eq_ok] at h
  exact h

section

variable {newId : Uuid → Nat → Uuid} {s : HrTables}

/-- A request keeps the tables in order, and is not answered with a failure unless it names a day of the year 0,
whatever other requests do between its statements. -/
theorem handle_sure (hApart : DrawsApart newId) (p : Option Principal) (r : HrRequest) :
    Sure newId (Unfailing r.Sane) (handle p r) s := by
  have hNot : ∀ {P : Prop} {reply : HrReply} {s : HrTables}, ¬Failed reply →
      Sure newId (Unfailing P) (pure reply : HrM HrReply) s := fun h _ => h
  cases r with
  | listEmployees limit offset =>
    simp only [handle, EmployeesController.list]
    exact sure_requireOrg fun ctx s => sure_then (c := .listEmployees ctx.orgId _) trivial fun _ _ _ _ =>
      sure_then (c := .countEmployees ctx.orgId) trivial fun _ _ _ _ => hNot fun h => by cases h
  | createEmployee body =>
    simp only [handle, EmployeesController.create]
    refine sure_requireOrg fun ctx s => sure_orReply (errs_parseBody.bind fun _ => errs_validateAndFillCreate)
      fun draft hDraft => ?_
    obtain ⟨b, hBody, hChecked⟩ := parseBody_bind hDraft
    obtain ⟨hFields, hText, hDate⟩ := validateAndFillCreate_ok hChecked
    refine sure_then (c := .createEmployee ctx.orgId draft.1 draft.2) hFields fun now s' _ _ => ?_
    simp only [exec, commit_fst]
    cases hMade : s'.employees.create now (newId ctx.orgId (s'.drawn ctx.orgId)) ctx.orgId draft.1 draft.2 with
    | ok p => exact hNot fun h => by cases h
    | error fault =>
      cases fault with
      | uniqueViolation => exact hNot fun h => by cases h
      | other =>
        intro hSane
        rw [hText] at hDate
        have hCast : ∃ d, castDate draft.2 = some d := hText ▸ castDate_text (hSane b hBody) hDate
        exact absurd hMade (create_not_other hFields hCast)
  | getEmployee id =>
    simp only [handle, EmployeesController.get]
    refine sure_requireOrg fun ctx s => sure_orReply errs_readId fun id _ =>
      sure_then (c := .findEmployee id ctx.orgId) trivial fun now s' _ _ => ?_
    cases (exec newId now (.findEmployee id ctx.orgId) s').1 <;> exact hNot fun h => by cases h
  | patchEmployee id body =>
    simp only [handle, EmployeesController.patch]
    refine sure_requireOrg fun ctx s => sure_orReply errs_readId fun id _ =>
      sure_orReply (errs_parseBody.bind fun _ => errs_validateAndFillUpdate) fun draft hDraft => ?_
    obtain ⟨b, hBody, hChecked⟩ := parseBody_bind hDraft
    have hFields := validateAndFillUpdate_ok hChecked
    refine sure_then (c := .updateEmployee ctx.orgId id draft) hFields fun now s' _ _ => ?_
    simp only [exec, commit_fst]
    cases hMade : s'.employees.update now ctx.orgId id draft with
    | ok p =>
      obtain ⟨t', found⟩ := p
      cases found <;> exact hNot fun h => by cases h
    | error fault =>
      cases fault with
      | uniqueViolation => exact hNot fun h => by cases h
      | other => exact absurd hMade (update_not_other hFields)
  | dismissEmployee id body =>
    simp only [handle, EmployeesController.dismiss]
    refine sure_requireOrg fun ctx s => sure_orReply errs_readId fun id _ =>
      sure_orReply (errs_parseBody.bind fun _ => errs_validateDismiss) fun date hDraft => ?_
    obtain ⟨b, hBody, hChecked⟩ := parseBody_bind hDraft
    obtain ⟨hText, hDate⟩ := validateDismiss_ok hChecked
    refine sure_then (c := .dismissEmployee ctx.orgId id date) trivial fun now s' _ _ => ?_
    simp only [exec, commit_fst]
    cases hMade : s'.employees.dismiss now ctx.orgId id date with
    | ok p =>
      obtain ⟨t', found⟩ := p
      cases found <;> exact hNot fun h => by cases h
    | error fault =>
      intro hSane
      rw [hText] at hDate
      have hCast : ∃ d, castDate date = some d := hText ▸ castDate_text (hSane b hBody) hDate
      obtain ⟨p, hTotal⟩ := dismiss_total hCast
      rw [hTotal] at hMade
      cases hMade
  | listOrders employee limit offset =>
    simp only [handle, HrController.listOrders]
    exact sure_requireOrg fun ctx s => sure_orReply errs_filterEmployeeId fun employee _ =>
      sure_then (c := .listOrders ctx.orgId _ _) trivial fun _ _ _ _ =>
        sure_then (c := .countOrders ctx.orgId _) trivial fun _ _ _ _ => hNot fun h => by cases h
  | createOrder body =>
    simp only [handle, HrController.createOrder]
    refine sure_requireOrg fun ctx s => sure_orReply (errs_parseBody.bind fun _ => errs_validateOrder)
      fun draft hDraft => sure_requireEmployee fun s hEmployee => ?_
    obtain ⟨b, hBody, hChecked⟩ := parseBody_bind hDraft
    refine sure_then (c := .createOrder ctx.orgId draft) trivial fun now s' hGrows hOk => ?_
    refine sure_inserted (fun _ h => by cases h) fun hSane => ?_
    obtain ⟨r, hRow⟩ : ∃ r, orderRow now (newId ctx.orgId (s'.drawn ctx.orgId)) ctx.orgId draft = .ok r :=
      orderRow_total (hSane b hBody) hChecked
    have hKeys := orderRow_keys hRow
    obtain ⟨p, hInsert⟩ := insertRow_total (s := s') (t := s'.orders) hRow (hKeys ▸ Employs.grows hEmployee hGrows)
      fun r' hr' => hKeys ▸ (hOk.ids.orders r' hr').ne_next hApart
    simp only [exec, commit_fst, createOrder, hInsert]
    exact ⟨_, rfl⟩
  | listContracts employee =>
    simp only [handle, HrController.listContracts]
    refine sure_requireOrg fun ctx s => sure_orReply errs_filterEmployeeId fun employee _ => ?_
    cases employee with
    | none => exact hNot fun h => by cases h
    | some employee =>
      exact sure_then (c := .listContracts ctx.orgId _) trivial fun _ _ _ _ => hNot fun h => by cases h
  | createContract body =>
    simp only [handle, HrController.createContract]
    refine sure_requireOrg fun ctx s => sure_orReply (errs_parseBody.bind fun _ => errs_validateContract)
      fun draft hDraft => sure_requireEmployee fun s hEmployee => ?_
    obtain ⟨b, hBody, hChecked⟩ := parseBody_bind hDraft
    refine sure_then (c := .createContract ctx.orgId draft) trivial fun now s' hGrows hOk => ?_
    refine sure_inserted (fun _ h => by cases h) fun hSane => ?_
    obtain ⟨r, hRow⟩ : ∃ r, contractRow now (newId ctx.orgId (s'.drawn ctx.orgId)) ctx.orgId draft = .ok r :=
      contractRow_total (hSane b hBody) hChecked
    have hKeys := contractRow_keys hRow
    obtain ⟨p, hInsert⟩ := insertRow_total (s := s') (t := s'.contracts) hRow (hKeys ▸ Employs.grows hEmployee hGrows)
      fun r' hr' => hKeys ▸ (hOk.ids.contracts r' hr').ne_next hApart
    simp only [exec, commit_fst, createContract, hInsert]
    exact ⟨_, rfl⟩
  | listVacations employee limit offset =>
    simp only [handle, HrController.listVacations]
    exact sure_requireOrg fun ctx s => sure_orReply errs_filterEmployeeId fun employee _ =>
      sure_then (c := .listVacations ctx.orgId _ _) trivial fun _ _ _ _ =>
        sure_then (c := .countVacations ctx.orgId _) trivial fun _ _ _ _ => hNot fun h => by cases h
  | createVacation body =>
    simp only [handle, HrController.createVacation]
    refine sure_requireOrg fun ctx s => sure_orReply (errs_parseBody.bind fun _ => errs_validateVacation)
      fun draft hDraft => sure_requireEmployee fun s hEmployee => ?_
    obtain ⟨b, hBody, hChecked⟩ := parseBody_bind hDraft
    refine sure_then (c := .createVacation ctx.orgId draft) trivial fun now s' hGrows hOk => ?_
    refine sure_inserted (fun _ h => by cases h) fun hSane => ?_
    obtain ⟨r, hRow⟩ : ∃ r, vacationRow now (newId ctx.orgId (s'.drawn ctx.orgId)) ctx.orgId draft = .ok r :=
      vacationRow_total (hSane b hBody) hChecked
    have hKeys := vacationRow_keys hRow
    obtain ⟨p, hInsert⟩ := insertRow_total (s := s') (t := s'.vacations) hRow (hKeys ▸ Employs.grows hEmployee hGrows)
      fun r' hr' => hKeys ▸ (hOk.ids.vacations r' hr').ne_next hApart
    simp only [exec, commit_fst, createVacation, hInsert]
    exact ⟨_, rfl⟩

end

/-! ### Runs -/

/-- A program for another type of replies. -/
theorem Sure.map {newId : Uuid → Nat → Uuid} {s : HrTables} {Q : HrReply → Prop} {Q' : ServiceReply → Prop}
    {p : HrM HrReply} (h : Sure newId Q p s) (hReply : ∀ reply, Q reply → Q' (.hr reply)) :
    Sure newId Q' (ServiceReply.hr <$> p) s :=
  Ensures.bind h fun reply _ hQ => hReply reply hQ

/-- The events of a run keep the tables in order; what they are answered is of `Q` if it is so for each of the
requests. -/
theorem run_ok {newId : Uuid → Nat → Uuid} (hApart : DrawsApart newId) {Q : ServiceReply → Prop}
    {w : Service (Option Uuid) HrCommand HrCommand.Reply HrTables ServiceReply}
    (hw : AnswersOk (exec newId) (Ok newId) Grows Q w) {events : List HrEvent} (hMember : Q .memberWritten)
    (hReplies : ∀ n p r, .request n p r ∈ events → ∀ reply, Unfailing r.Sane reply → Q (.hr reply)) :
    AnswersOk (exec newId) (Ok newId) Grows Q (w.run (exec newId) (events.map HrEvent.onTables)) ∧
      Grows w.state (w.run (exec newId) (events.map HrEvent.onTables)).state := by
  have hWrite : ∀ w s, Sure newId Q (HrEvent.writeMember w) s := fun w s now s' _ hOk => by
    obtain ⟨hOk', hGrows⟩ := exec_keeps (c := .writeMember w) trivial hOk
    exact ⟨hOk', hGrows, hMember⟩
  refine hw.run Grows.refl (fun _ _ _ => Grows.trans) (fun t n p hIn s _ => ?_) fun c now hIn s hOk => ?_
  · obtain ⟨e, he, hEvent⟩ := List.mem_map.mp hIn
    cases e with
    | request n' p' r =>
      cases hEvent
      exact (handle_sure hApart p' r).map (hReplies _ p' r he)
    | addMember | setRole | removeMember =>
      cases hEvent
      exact hWrite _ s
    | next | createUser | deleteUser => cases hEvent
  · obtain ⟨e, he, hEvent⟩ := List.mem_map.mp hIn
    cases e with
    | createUser | deleteUser =>
      cases hEvent
      exact exec_keeps trivial hOk
    | request | addMember | setRole | removeMember | next => cases hEvent

theorem ok_twoOwners : Ok Nat.pair twoOwners :=
  ⟨idsDrawn_twoOwners, fun _ h => (by cases h), fun _ h => (by cases h), fun _ h => (by cases h),
    fun _ h => (by cases h), fun _ h => (by cases h)⟩

def hireBody : Json :=
  .obj [("iin", .str "880715300019"), ("last_name", .str "А"), ("first_name", .str "Б"), ("position", .str "В"),
    ("salary", .str "300000.00"), ("hired_on", .str "2026-03-01")]

def hireRequest : HrRequest := .createEmployee (some hireBody)

def dismissBody : Json := .obj [("dismissed_on", .str "2026-03-31")]

def dismissRequest (id : String) : HrRequest := .dismissEmployee id (some dismissBody)

theorem sane_dismissBody : SaneDates dismissBody := by
  intro field t hField hZero
  have hText : t = "2026-03-31" := by
    by_cases hName : field = "dismissed_on"
    · subst hName
      exact (Option.some.inj hField).symm
    · have hNone : stringField dismissBody field = none := by
        simp [stringField, dismissBody, Json.members, Json.member, Ne.symm hName]
      rw [hNone] at hField
      cases hField
  rw [hText] at hZero
  obtain ⟨month, day, hGroups⟩ := hZero
  have hYear : dateGroups "2026-03-31" = some (2026, 3, 31) := by decide
  rw [hYear] at hGroups
  cases hGroups

end CyberAccountant.Hr
