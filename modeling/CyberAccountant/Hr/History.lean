import CyberAccountant.Hr.Parts
import CyberAccountant.Ledger.KzIdentifiers

/-! What holds of the personnel tables in every state, and how they may go on from there: nobody's first day
changes, a dismissal is final, and the orders, contracts and vacations that were recorded stay. -/

namespace CyberAccountant.Hr

open CyberAccountant.Library CyberAccountant.Ledger CyberAccountant.Tenancy

/-- What the API admits of an employee. -/
def EmployeeFields.Admitted (f : EmployeeFields) : Prop :=
  isValidBinIin f.iin = true ∧ 0 < f.salaryTiyn ∧ f.salaryTiyn ≤ 999999999999999999

namespace HrTables

/-- The employee of a row is one of its organisation. -/
def Employs (s : HrTables) (r : HrRow) : Prop := ∃ e ∈ s.employees.rows, e.id = r.employeeId ∧ e.orgId = r.orgId

/-- The invariant of the tables. -/
structure Ok (newId : Uuid → Nat → Uuid) (s : HrTables) : Prop where
  ids : IdsDrawn newId s
  admitted : ∀ e ∈ s.employees.rows, e.toEmployeeFields.Admitted
  dismissed : ∀ e ∈ s.employees.rows, e.status = .dismissed ↔ e.dismissedOn.isSome
  orders : ∀ r ∈ s.orders.rows, s.Employs r.toHrRow
  contracts : ∀ r ∈ s.contracts.rows, s.Employs r.toHrRow
  vacations : ∀ r ∈ s.vacations.rows, s.Employs r.toHrRow

/-- The employee of the earlier row is in the later one. -/
structure SameEmployee (e e' : Employee) : Prop where
  id : e'.id = e.id
  org : e'.orgId = e.orgId
  hired : e'.hiredOn = e.hiredOn
  created : e'.createdAt = e.createdAt
  dismissed : e.status = .dismissed → e'.status = .dismissed ∧ e'.dismissedOn = e.dismissedOn

/-- How the tables may go on. -/
structure Grows (s s' : HrTables) : Prop where
  employees : ∀ e ∈ s.employees.rows, ∃ e' ∈ s'.employees.rows, SameEmployee e e'
  orders : s.orders.rows <+: s'.orders.rows
  contracts : s.contracts.rows <+: s'.contracts.rows
  vacations : s.vacations.rows <+: s'.vacations.rows

section

variable {newId : Uuid → Nat → Uuid} {s s' s'' : HrTables} {e : Employee}

theorem SameEmployee.refl (e : Employee) : SameEmployee e e := ⟨rfl, rfl, rfl, rfl, fun h => ⟨h, rfl⟩⟩

theorem Grows.refl (s : HrTables) : Grows s s :=
  ⟨fun e he => ⟨e, he, .refl e⟩, List.prefix_rfl, List.prefix_rfl, List.prefix_rfl⟩

theorem Grows.trans (h : Grows s s') (h' : Grows s' s'') : Grows s s'' where
  employees e he := by
    obtain ⟨e', he', h1⟩ := h.employees e he
    obtain ⟨e'', he'', h2⟩ := h'.employees e' he'
    refine ⟨e'', he'', h2.id.trans h1.id, h2.org.trans h1.org, h2.hired.trans h1.hired, h2.created.trans h1.created, ?_⟩
    intro hDismissed
    obtain ⟨hStatus, hDay⟩ := h1.dismissed hDismissed
    obtain ⟨hStatus', hDay'⟩ := h2.dismissed hStatus
    exact ⟨hStatus', hDay'.trans hDay⟩
  orders := h.orders.trans h'.orders
  contracts := h.contracts.trans h'.contracts
  vacations := h.vacations.trans h'.vacations

theorem Employs.grows {r : HrRow} (h : s.Employs r) (hGrows : Grows s s') : s'.Employs r := by
  obtain ⟨e, he, hId, hOrg⟩ := h
  obtain ⟨e', he', hSame⟩ := hGrows.employees e he
  exact ⟨e', he', hSame.id.trans hId, hSame.org.trans hOrg⟩

end

end HrTables

/-! ### Changes of employees -/

namespace Employees

open HrTables

variable {t t' : Employees} {now : Timestamp} {id org : Uuid} {fields : EmployeeFields} {date : String} {e : Employee}
  {result : Option Employee}

/-- What a statement makes of the employees. -/
structure Changes (t t' : Employees) : Prop where
  kept : ∀ e ∈ t.rows, ∃ e' ∈ t'.rows, SameEmployee e e'
  admitted : (∀ e ∈ t.rows, e.toEmployeeFields.Admitted) → ∀ e ∈ t'.rows, e.toEmployeeFields.Admitted
  dismissed : (∀ e ∈ t.rows, e.status = .dismissed ↔ e.dismissedOn.isSome) →
    ∀ e ∈ t'.rows, e.status = .dismissed ↔ e.dismissedOn.isSome

theorem Changes.refl (t : Employees) : Changes t t := ⟨fun e he => ⟨e, he, .refl e⟩, fun h => h, fun h => h⟩

theorem create_changes (hFields : fields.Admitted) (h : t.create now id org fields date = .ok (t', e)) :
    Changes t t' := by
  obtain ⟨hInsert, -, day, -, rfl⟩ := create_ok h
  have hRows := (UniqueTable.insert?_eq_some hInsert).2
  refine ⟨fun e he => ⟨e, ?_, .refl e⟩, fun hOld e he => ?_, fun hOld e he => ?_⟩
  · rw [hRows]
    exact List.mem_append_left _ he
  · rw [hRows, List.mem_append, List.mem_singleton] at he
    rcases he with he | rfl
    · exact hOld e he
    · exact hFields
  · rw [hRows, List.mem_append, List.mem_singleton] at he
    rcases he with he | rfl
    · exact hOld e he
    · simp

/-- A change of the row of a key, by what it makes of that row. -/
theorem changes_of_change {k : Uuid × Uuid} {f : Employee → Employee} (h : t.change? k f = some t')
    (hSame : ∀ e ∈ t.rows, employeeKeys.key e = k → SameEmployee e (f e))
    (hAdmitted : ∀ e, e.toEmployeeFields.Admitted → (f e).toEmployeeFields.Admitted)
    (hDismissed : ∀ e, (e.status = .dismissed ↔ e.dismissedOn.isSome) →
      ((f e).status = .dismissed ↔ (f e).dismissedOn.isSome)) : Changes t t' := by
  have hRows := UniqueTable.change?_eq_some h
  refine ⟨fun e he => ⟨if employeeKeys.key e = k then f e else e, ?_, ?_⟩, fun hOld e he => ?_, fun hOld e he => ?_⟩
  · rw [hRows, mem_changeRow]
    exact ⟨e, he, rfl⟩
  · split
    · rename_i hHere
      exact hSame e he hHere
    · exact .refl e
  · rw [hRows, mem_changeRow] at he
    obtain ⟨e', he', rfl⟩ := he
    split
    · exact hAdmitted e' (hOld e' he')
    · exact hOld e' he'
  · rw [hRows, mem_changeRow] at he
    obtain ⟨e', he', rfl⟩ := he
    split
    · exact hDismissed e' (hOld e' he')
    · exact hOld e' he'

theorem update_changes (hFields : fields.Admitted) (h : t.update now org id fields = .ok (t', result)) :
    Changes t t' := by
  rcases update_ok h with ⟨rfl, -, -⟩ | ⟨-, -, hChange, -⟩
  · exact .refl t'
  · refine changes_of_change hChange (fun e _ _ => ?_) (fun _ _ => hFields) fun _ hSame => hSame
    exact ⟨rfl, rfl, rfl, rfl, fun hDismissed => ⟨hDismissed, rfl⟩⟩

theorem dismiss_changes (h : t.dismiss now org id date = .ok (t', result)) : Changes t t' := by
  rcases dismiss_ok h with ⟨rfl, -, -⟩ | ⟨day, e, -, hRow, hActive, hChange, -⟩
  · exact .refl t'
  · refine changes_of_change hChange (fun e' he' hHere => ⟨rfl, rfl, rfl, rfl, fun hDismissed => ?_⟩) (fun _ h => h)
      fun _ _ => by simp [dismissal]
    -- The row of the key is the one that was found active.
    have hSame : t.row? (id, org) = some e' := UniqueTable.row?_eq_some.mpr ⟨he', hHere⟩
    obtain rfl : e = e' := Option.some.inj (hRow.symm.trans hSame)
    rw [hActive] at hDismissed
    cases hDismissed

end Employees

/-! ### Statements -/

/-- The fields of a statement are such as the API admits. -/
def HrCommand.Admitted : HrCommand → Prop
  | .createEmployee _ fields _ | .updateEmployee _ _ fields => fields.Admitted
  | _ => True

namespace HrTables

variable {newId : Uuid → Nat → Uuid} {s : HrTables} {now : Timestamp} {c : HrCommand}

theorem employs_of_refers {r : HrRow} (h : s.employees.Refers r.orgId r.employeeId) : s.Employs r := by
  obtain ⟨e, hRow⟩ := Option.isSome_iff_exists.mp h
  obtain ⟨he, hKey⟩ := UniqueTable.row?_eq_some.mp hRow
  exact ⟨e, he, congrArg Prod.fst hKey, congrArg Prod.snd hKey⟩

/-- A row that is inserted is about an employee of its organisation. -/
theorem employs_insert {ρ : Type} {row : ρ → HrRow} {t t' : HrTable row} {made : Except StatementFault ρ} {r : ρ}
    (h : insertRow row s.employees t made = .ok (t', r)) (hOld : ∀ r ∈ t.rows, s.Employs (row r)) :
    t.rows <+: t'.rows ∧ ∀ r ∈ t'.rows, s.Employs (row r) := by
  obtain ⟨-, hRefers, hInsert⟩ := insertRow_ok h
  have hRows := (UniqueTable.insert?_eq_some hInsert).2
  rw [hRows]
  refine ⟨List.prefix_append _ _, fun r' hr' => ?_⟩
  rw [List.mem_append, List.mem_singleton] at hr'
  rcases hr' with hr' | rfl
  · exact hOld r' hr'
  · exact employs_of_refers hRefers

/-- A statement that changes the employees and no other rows. -/
theorem keeps_employees {t : Employees} (hs : Ok newId s) {users : List Uuid} {members : OrgMembers Uuid Uuid}
    {drawn : Uuid → Nat} (hChanges : Employees.Changes s.employees t)
    (hIds : IdsDrawn newId { s with users := users, members := members, employees := t, drawn := drawn }) :
    Ok newId { s with users := users, members := members, employees := t, drawn := drawn } ∧
      Grows s { s with users := users, members := members, employees := t, drawn := drawn } := by
  have hGrows : Grows s { s with users := users, members := members, employees := t, drawn := drawn } :=
    ⟨hChanges.kept, List.prefix_rfl, List.prefix_rfl, List.prefix_rfl⟩
  exact ⟨⟨hIds, hChanges.admitted hs.admitted, hChanges.dismissed hs.dismissed,
    fun r hr => (hs.orders r hr).grows hGrows, fun r hr => (hs.contracts r hr).grows hGrows,
    fun r hr => (hs.vacations r hr).grows hGrows⟩, hGrows⟩

/-- What a statement keeps, and how it changes the tables. -/
theorem exec_keeps (hAdmitted : c.Admitted) (hs : Ok newId s) :
    Ok newId (exec newId now c s).2 ∧ Grows s (exec newId now c s).2 := by
  have hIds : IdsDrawn newId (exec newId now c s).2 := idsDrawn_exec hs.ids
  have hSame : Ok newId s ∧ Grows s s := ⟨hs, .refl s⟩
  cases c with
  | findMembership | findEmployee | listEmployees | countEmployees | listEmployedDuring | listOrders | countOrders
  | listContracts | listVacations | countVacations => exact hSame
  | createEmployee org fields hiredOn =>
    simp only [exec] at hIds ⊢
    cases hMade : s.employees.create now (newId org (s.drawn org)) org fields hiredOn with
    | error fault => exact hSame
    | ok p =>
      rw [hMade] at hIds
      exact keeps_employees hs (Employees.create_changes hAdmitted hMade) hIds
  | updateEmployee org id patch =>
    simp only [exec] at hIds ⊢
    cases hMade : s.employees.update now org id patch with
    | error fault => exact hSame
    | ok p =>
      rw [hMade] at hIds
      exact keeps_employees hs (Employees.update_changes hAdmitted hMade) hIds
  | dismissEmployee org id date =>
    simp only [exec] at hIds ⊢
    cases hMade : s.employees.dismiss now org id date with
    | error fault => exact hSame
    | ok p =>
      rw [hMade] at hIds
      exact keeps_employees hs (Employees.dismiss_changes hMade) hIds
  | createOrder org draft =>
    simp only [exec] at hIds ⊢
    cases hMade : createOrder s.employees s.orders now (newId org (s.drawn org)) org draft with
    | error fault => exact hSame
    | ok p =>
      rw [hMade] at hIds
      obtain ⟨hPrefix, hEmploys⟩ := employs_insert hMade hs.orders
      exact ⟨⟨hIds, hs.admitted, hs.dismissed, hEmploys, hs.contracts, hs.vacations⟩,
        fun e he => ⟨e, he, .refl e⟩, hPrefix, List.prefix_rfl, List.prefix_rfl⟩
  | createContract org draft =>
    simp only [exec] at hIds ⊢
    cases hMade : createContract s.employees s.contracts now (newId org (s.drawn org)) org draft with
    | error fault => exact hSame
    | ok p =>
      rw [hMade] at hIds
      obtain ⟨hPrefix, hEmploys⟩ := employs_insert hMade hs.contracts
      exact ⟨⟨hIds, hs.admitted, hs.dismissed, hs.orders, hEmploys, hs.vacations⟩,
        fun e he => ⟨e, he, .refl e⟩, List.prefix_rfl, hPrefix, List.prefix_rfl⟩
  | createVacation org draft =>
    simp only [exec] at hIds ⊢
    cases hMade : createVacation s.employees s.vacations now (newId org (s.drawn org)) org draft with
    | error fault => exact hSame
    | ok p =>
      rw [hMade] at hIds
      obtain ⟨hPrefix, hEmploys⟩ := employs_insert hMade hs.vacations
      exact ⟨⟨hIds, hs.admitted, hs.dismissed, hs.orders, hs.contracts, hEmploys⟩,
        fun e he => ⟨e, he, .refl e⟩, List.prefix_rfl, List.prefix_rfl, hPrefix⟩
  | writeMember w =>
    obtain ⟨users, members, hWritten⟩ := writeMember_eq s w
    have hNew : (exec newId now (.writeMember w) s).2 = { s with users := users, members := members } := hWritten
    rw [hNew] at hIds ⊢
    exact keeps_employees hs (.refl s.employees) hIds
  | createUser user => exact keeps_employees hs (.refl s.employees) hIds

end HrTables

end CyberAccountant.Hr
