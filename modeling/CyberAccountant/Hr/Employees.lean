import CyberAccountant.Api.Fields
import CyberAccountant.Api.RequestUtils
import CyberAccountant.Library.UniqueTable

/-! The table `employees` and the statements that `EmployeeRepository` runs on it. -/

namespace CyberAccountant.Hr

open CyberAccountant.Library CyberAccountant.Ledger CyberAccountant.Api CyberAccountant.Api.Validation

inductive EmployeeStatus where
  | active
  | dismissed
  deriving DecidableEq

/-- What a hire says of the employee and an edit says again. -/
structure EmployeeFields where
  iin : String
  lastName : String
  firstName : String
  middleName : Option String
  position : String
  salaryTiyn : Int
  ipnDeductionClaimed : Bool
  opvrExempt : Bool
  payoutIik : String
  deriving DecidableEq

/-- A row of `employees`. -/
structure Employee extends EmployeeFields where
  id : Uuid
  orgId : Uuid
  hiredOn : Date
  dismissedOn : Option Date
  status : EmployeeStatus
  createdAt : Timestamp
  updatedAt : Timestamp
  deriving DecidableEq

/-- `PRIMARY KEY (id)`, `UNIQUE (id, org_id)` and `UNIQUE (org_id, iin)`. -/
def employeeKeys : Constraints Employee (Uuid × Uuid) where
  key e := (e.id, e.orgId)
  Clash a b := a.id = b.id ∨ a.orgId = b.orgId ∧ a.iin = b.iin
  decidable _ _ := inferInstanceAs (Decidable (_ ∨ _))
  symm h := h.imp Eq.symm fun h => ⟨h.1.symm, h.2.symm⟩
  key_clash h := .inl (congrArg Prod.fst h)

abbrev Employees := UniqueTable employeeKeys

/-- How a statement on the tables fails. -/
inductive StatementFault where
  /-- SQLSTATE 23505. -/
  | uniqueViolation
  /-- Any other one. -/
  | other
  deriving DecidableEq

namespace Employees

/-- The insertion of a hire.  The column defaults make the employee active and not dismissed. -/
def create (t : Employees) (now : Timestamp) (id org : Uuid) (fields : EmployeeFields) (hiredOn : String) :
    Except StatementFault (Employees × Employee) := do
  let day ← orFail .other (castDate hiredOn)
  ensure (0 ≤ fields.salaryTiyn) .other
  let e : Employee := ⟨fields, id, org, day, none, .active, now, now⟩
  let t' ← orFail .uniqueViolation (t.insert? e)
  return (t', e)

def findInOrg (t : Employees) (id org : Uuid) : Option Employee := t.row? (id, org)

/-- `ORDER BY created_at DESC`. -/
def newestFirst (rows : List Employee) : List Employee := rows.mergeSort fun a b => b.createdAt ≤ a.createdAt

def listInOrg (t : Employees) (org : Uuid) (page : PageParams) : List Employee :=
  page.cut (newestFirst (rowsOf (·.orgId) t.rows org))

def countInOrg (t : Employees) (org : Uuid) : Nat := (rowsOf (·.orgId) t.rows org).length

/-- An edit leaves the dates and the status; the trigger sets `updated_at`. -/
def edit (now : Timestamp) (patch : EmployeeFields) (e : Employee) : Employee :=
  { e with toEmployeeFields := patch, updatedAt := now }

def dismissal (now : Timestamp) (day : Date) (e : Employee) : Employee :=
  { e with dismissedOn := some day, status := .dismissed, updatedAt := now }

def update (t : Employees) (now : Timestamp) (org id : Uuid) (patch : EmployeeFields) :
    Except StatementFault (Employees × Option Employee) := do
  if (t.row? (id, org)).isSome then
    ensure (0 ≤ patch.salaryTiyn) .other
    let t' ← orFail .uniqueViolation (t.change? (id, org) (edit now patch))
    return (t', t'.row? (id, org))
  else return (t, none)

/-- The dismissal of an employee who is active. -/
def dismiss (t : Employees) (now : Timestamp) (org id : Uuid) (date : String) :
    Except StatementFault (Employees × Option Employee) := do
  let day ← orFail .other (castDate date)
  if (t.row? (id, org)).any (·.status = .active) then
    let t' ← orFail .uniqueViolation (t.change? (id, org) (dismissal now day))
    return (t', t'.row? (id, org))
  else return (t, none)

/-- The condition of `list_employed_during`. -/
def employedDuring (e : Employee) (periodStart periodEnd : Date) : Bool :=
  decide (e.hiredOn ≤ periodEnd) &&
    match e.dismissedOn with
    | some day => decide (periodStart ≤ day)
    | none => decide (e.status = .active)

def listEmployedDuring (t : Employees) (org : Uuid) (periodStart periodEnd : Date) : List Employee :=
  newestFirst ((rowsOf (·.orgId) t.rows org).filter (employedDuring · periodStart periodEnd))

/-! ### One organisation's employees -/

/-- The owner of a row, as a tenant. -/
def tenant (e : Employee) : Option Uuid := some e.orgId

section

variable {t t' : Employees} {now : Timestamp} {id org : Uuid} {fields : EmployeeFields} {date : String} {e : Employee}
  {result : Option Employee} {o : Option Uuid}

theorem create_ok (h : t.create now id org fields date = .ok (t', e)) :
    t.insert? e = some t' ∧ 0 ≤ fields.salaryTiyn ∧
      ∃ day, castDate date = some day ∧ e = ⟨fields, id, org, day, none, .active, now, now⟩ := by
  simp only [create, bind_eq_ok, orFail_eq_ok, ensure_eq_ok, exists_const, pure_eq_ok, Prod.mk.injEq] at h
  obtain ⟨day, hDay, hSalary, t'', hInsert, rfl, rfl⟩ := h
  exact ⟨hInsert, hSalary, day, hDay, rfl⟩

theorem update_ok (h : t.update now org id fields = .ok (t', result)) :
    t' = t ∧ result = none ∧ t.row? (id, org) = none ∨
      0 ≤ fields.salaryTiyn ∧ (t.row? (id, org)).isSome ∧ t.change? (id, org) (edit now fields) = some t' ∧
        result = t'.row? (id, org) := by
  unfold update at h
  split_ifs at h with hHere
  · simp only [bind_eq_ok, orFail_eq_ok, ensure_eq_ok, exists_const, pure_eq_ok, Prod.mk.injEq] at h
    obtain ⟨hSalary, t'', hChange, rfl, rfl⟩ := h
    exact .inr ⟨hSalary, hHere, hChange, rfl⟩
  · simp only [pure_eq_ok, Prod.mk.injEq] at h
    obtain ⟨rfl, rfl⟩ := h
    exact .inl ⟨rfl, rfl, by simpa using hHere⟩

theorem dismiss_ok (h : t.dismiss now org id date = .ok (t', result)) :
    t' = t ∧ result = none ∧ (∀ e, t.row? (id, org) = some e → e.status ≠ .active) ∨
      ∃ day e, castDate date = some day ∧ t.row? (id, org) = some e ∧ e.status = .active ∧
        t.change? (id, org) (dismissal now day) = some t' ∧ result = t'.row? (id, org) := by
  simp only [dismiss, bind_eq_ok, orFail_eq_ok] at h
  obtain ⟨day, hDay, h⟩ := h
  split_ifs at h with hActive
  · obtain ⟨e, hRow, hStatus⟩ := (Option.any_eq_true _ _).mp hActive
    simp only [bind_eq_ok, orFail_eq_ok, pure_eq_ok, Prod.mk.injEq] at h
    obtain ⟨t'', hChange, rfl, rfl⟩ := h
    exact .inr ⟨day, e, hDay, hRow, by simpa using hStatus, hChange, rfl⟩
  · simp only [pure_eq_ok, Prod.mk.injEq] at h
    obtain ⟨rfl, rfl⟩ := h
    refine .inl ⟨rfl, rfl, fun e hRow hStatus => hActive ?_⟩
    simp [hRow, hStatus]

theorem key_tenant {e : Employee} (h : employeeKeys.key e = (id, org)) : tenant e = some org :=
  congrArg some (congrArg Prod.snd h)

/-- The rows of a tenant. -/
abbrev part (o : Option Uuid) (t : Employees) : Employees := t.only tenant o

/-- A statement for the rows of one tenant alone. -/
abbrev partOf {α : Type} (o : Option Uuid) (p : Employees × α) : Employees × α := (part o p.1, p.2)

theorem create_part (hFresh : ∀ e ∈ t.rows, e.id ≠ id) :
    (part (some org) t).create now id org fields date = partOf (some org) <$> t.create now id org fields date := by
  unfold create
  simp only [map_bind, map_pure]
  refine bind_congr fun day => bind_congr fun _ => ?_
  let e : Employee := ⟨fields, id, org, day, none, .active, now, now⟩
  have hOthers : ∀ e' ∈ t.rows, tenant e' ≠ some org → ¬employeeKeys.Clash e' e := by
    intro e' he' hOther hClash
    rcases hClash with hId | ⟨hOrg, -⟩
    · exact hFresh e' he' hId
    · exact hOther (congrArg some hOrg)
  have hInsert : (part (some org) t).insert? e = (t.insert? e).map (part (some org)) :=
    UniqueTable.insert?_only rfl hOthers
  rw [hInsert, orFail_map, bind_map_left]

theorem create_frame (h : t.create now id org fields date = .ok (t', e)) (hOther : some org ≠ o) :
    part o t' = part o t := by
  obtain ⟨hInsert, -, day, -, rfl⟩ := create_ok h
  have hOwner : tenant ⟨fields, id, org, day, none, .active, now, now⟩ ≠ o := hOther
  exact UniqueTable.insert?_other hOwner hInsert

/-- The change leaves the id and the organisation of a row. -/
def KeepsIds (f : Employee → Employee) : Prop := ∀ e, (f e).id = e.id ∧ (f e).orgId = e.orgId

theorem keepsIds_edit : KeepsIds (edit now fields) := fun _ => ⟨rfl, rfl⟩

theorem keepsIds_dismissal {day : Date} : KeepsIds (dismissal now day) := fun _ => ⟨rfl, rfl⟩

theorem change_part {f : Employee → Employee} (hKeeps : KeepsIds f) :
    (part (some org) t).change? (id, org) f = (t.change? (id, org) f).map (part (some org)) := by
  have hOwner : ∀ e, tenant (f e) = tenant e := fun e => congrArg some (hKeeps e).2
  apply UniqueTable.change?_only hOwner fun e => key_tenant
  intro e he hHere e' he' hOther hClash
  rcases hClash with hSame | ⟨hSame, -⟩
  · have hEq : e' = e := UniqueTable.eq_of_clash he' he (.inl (hSame.trans (hKeeps e).1))
    exact hOther (hEq ▸ key_tenant hHere)
  · have hMine : tenant e = some org := key_tenant hHere
    exact hOther (congrArg some (hSame.trans (hKeeps e).2) |>.trans hMine)

theorem row_part : (part (some org) t).row? (id, org) = t.row? (id, org) :=
  UniqueTable.row?_only fun _ => key_tenant

theorem change_frame {f : Employee → Employee} (hKeeps : KeepsIds f) (h : t.change? (id, org) f = some t')
    (hOther : some org ≠ o) : part o t' = part o t := by
  refine UniqueTable.change?_other (fun e => congrArg some (hKeeps e).2) (fun e hHere hSame => ?_) h
  exact hOther ((key_tenant hHere).symm.trans hSame)

theorem update_part :
    (part (some org) t).update now org id fields = partOf (some org) <$> t.update now org id fields := by
  unfold update
  rw [row_part]
  split
  · simp only [map_bind, map_pure]
    refine bind_congr fun _ => ?_
    rw [change_part keepsIds_edit, orFail_map, bind_map_left]
    simp only [row_part]
  · rfl

theorem update_frame (h : t.update now org id fields = .ok (t', result)) (hOther : some org ≠ o) :
    part o t' = part o t := by
  rcases update_ok h with ⟨rfl, -, -⟩ | ⟨-, -, hChange, -⟩
  · rfl
  · exact change_frame keepsIds_edit hChange hOther

theorem dismiss_part :
    (part (some org) t).dismiss now org id date = partOf (some org) <$> t.dismiss now org id date := by
  unfold dismiss
  rw [row_part]
  simp only [map_bind]
  refine bind_congr fun day => ?_
  split
  · simp only [map_bind, map_pure]
    rw [change_part keepsIds_dismissal, orFail_map, bind_map_left]
    simp only [row_part]
  · rfl

theorem dismiss_frame (h : t.dismiss now org id date = .ok (t', result)) (hOther : some org ≠ o) :
    part o t' = part o t := by
  rcases dismiss_ok h with ⟨rfl, -, -⟩ | ⟨day, e, -, -, -, hChange, -⟩
  · rfl
  · exact change_frame keepsIds_dismissal hChange hOther

/-- The ids of the rows after a change are those from before. -/
theorem change_ids {f : Employee → Employee} {k : Uuid × Uuid} (hKeeps : KeepsIds f) (h : t.change? k f = some t')
    (he : e ∈ t'.rows) : ∃ e' ∈ t.rows, e.id = e'.id ∧ e.orgId = e'.orgId := by
  rw [UniqueTable.change?_eq_some h, mem_changeRow] at he
  obtain ⟨e', he', rfl⟩ := he
  refine ⟨e', he', ?_⟩
  split
  · exact hKeeps e'
  · exact ⟨rfl, rfl⟩

theorem update_ids (h : t.update now org id fields = .ok (t', result)) (he : e ∈ t'.rows) :
    ∃ e' ∈ t.rows, e.id = e'.id ∧ e.orgId = e'.orgId := by
  rcases update_ok h with ⟨rfl, -, -⟩ | ⟨-, -, hChange, -⟩
  · exact ⟨e, he, rfl, rfl⟩
  · exact change_ids keepsIds_edit hChange he

theorem dismiss_ids (h : t.dismiss now org id date = .ok (t', result)) (he : e ∈ t'.rows) :
    ∃ e' ∈ t.rows, e.id = e'.id ∧ e.orgId = e'.orgId := by
  rcases dismiss_ok h with ⟨rfl, -, -⟩ | ⟨day, _, -, -, -, hChange, -⟩
  · exact ⟨e, he, rfl, rfl⟩
  · exact change_ids keepsIds_dismissal hChange he

theorem rows_part : rowsOf (·.orgId) (part (some org) t).rows org = rowsOf (·.orgId) t.rows org := by
  have hTenant : rowsOf tenant t.rows (some org) = rowsOf (·.orgId) t.rows org :=
    List.filter_congr fun e _ => by simp [tenant]
  rw [UniqueTable.only_rows, hTenant, rowsOf_rowsOf]

end

end Employees

end CyberAccountant.Hr
