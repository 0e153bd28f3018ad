import CyberAccountant.Hr.Employees

/-! The tables `hr_orders`, `labor_contracts` and `vacations` and the statements that `HrRepository` runs on
them.  Each row is about an employee of its own organisation. -/

namespace CyberAccountant.Hr

open CyberAccountant.Library CyberAccountant.Ledger CyberAccountant.Api CyberAccountant.Api.Validation

inductive OrderKind where
  | hire
  | dismiss
  | vacation
  | businessTrip
  | salaryChange
  deriving DecidableEq

def OrderKind.text : OrderKind → String
  | .hire => "hire"
  | .dismiss => "dismiss"
  | .vacation => "vacation"
  | .businessTrip => "business_trip"
  | .salaryChange => "salary_change"

def OrderKind.all : List OrderKind := [.hire, .dismiss, .vacation, .businessTrip, .salaryChange]

def OrderKind.ofText? (s : String) : Option OrderKind := OrderKind.all.find? (·.text = s)

inductive VacationKind where
  | annual
  | unpaid
  | sick
  deriving DecidableEq

def VacationKind.text : VacationKind → String
  | .annual => "annual"
  | .unpaid => "unpaid"
  | .sick => "sick"

def VacationKind.all : List VacationKind := [.annual, .unpaid, .sick]

def VacationKind.ofText? (s : String) : Option VacationKind := VacationKind.all.find? (·.text = s)

/-- What the rows of the three tables have in common. -/
structure HrRow where
  id : Uuid
  orgId : Uuid
  employeeId : Uuid
  createdAt : Timestamp
  updatedAt : Timestamp
  deriving DecidableEq

/-- A row of `hr_orders`. -/
structure HrOrder extends HrRow where
  kind : OrderKind
  number : String
  issuedOn : Date
  effectiveFrom : Date
  effectiveTo : Option Date
  payload : Option Json

/-- A row of `labor_contracts`. -/
structure LaborContract extends HrRow where
  number : String
  signedOn : Date
  startsOn : Date
  endsOn : Option Date
  termsJson : Option Json

/-- A row of `vacations`, with the checks of the columns. -/
structure Vacation extends HrRow where
  startsOn : Date
  endsOn : Date
  days : Int
  kind : VacationKind
  daysPositive : 0 < days
  inOrder : startsOn ≤ endsOn

/-- `PRIMARY KEY (id)` and `UNIQUE (id, org_id)`. -/
def hrKeys {ρ : Type} (row : ρ → HrRow) : Constraints ρ (Uuid × Uuid) where
  key r := ((row r).id, (row r).orgId)
  Clash a b := (row a).id = (row b).id
  decidable _ _ := inferInstanceAs (Decidable (_ = _))
  symm h := Eq.symm h
  key_clash h := congrArg Prod.fst h

/-- One of the three tables. -/
abbrev HrTable {ρ : Type} (row : ρ → HrRow) := UniqueTable (hrKeys row)

abbrev HrOrders := HrTable HrOrder.toHrRow

abbrev LaborContracts := HrTable LaborContract.toHrRow

abbrev Vacations := HrTable Vacation.toHrRow

/-! ### What is inserted -/

structure OrderDraft where
  employeeId : Uuid
  kind : String
  number : String
  issuedOn : String
  effectiveFrom : String
  effectiveTo : Option String
  payload : Option Json

structure ContractDraft where
  employeeId : Uuid
  number : String
  signedOn : String
  startsOn : String
  endsOn : Option String
  termsJson : Option Json

structure VacationDraft where
  employeeId : Uuid
  startsOn : String
  endsOn : String
  days : Int
  kind : String

/-- The cast of a text that may be missing. -/
def castDate? : Option String → Except StatementFault (Option Date)
  | none => .ok none
  | some text => do return some (← orFail .other (castDate text))

/-- The composite foreign key. -/
def Employees.Refers (employees : Employees) (org employee : Uuid) : Prop := (employees.findInOrg employee org).isSome

instance (employees : Employees) (org employee : Uuid) : Decidable (employees.Refers org employee) :=
  inferInstanceAs (Decidable (_ = _))

/-- The insertion of a row whose values are of the types of their columns. -/
def insertRow {ρ : Type} (row : ρ → HrRow) (employees : Employees) (t : HrTable row) (made : Except StatementFault ρ) :
    Except StatementFault (HrTable row × ρ) := do
  let r ← made
  ensure (employees.Refers (row r).orgId (row r).employeeId) .other
  let t' ← orFail .uniqueViolation (t.insert? r)
  return (t', r)

def orderRow (now : Timestamp) (id org : Uuid) (d : OrderDraft) : Except StatementFault HrOrder := do
  let issuedOn ← orFail .other (castDate d.issuedOn)
  let effectiveFrom ← orFail .other (castDate d.effectiveFrom)
  let effectiveTo ← castDate? d.effectiveTo
  let kind ← orFail .other (OrderKind.ofText? d.kind)
  return ⟨⟨id, org, d.employeeId, now, now⟩, kind, d.number, issuedOn, effectiveFrom, effectiveTo, d.payload⟩

def createOrder (employees : Employees) (t : HrOrders) (now : Timestamp) (id org : Uuid) (d : OrderDraft) :
    Except StatementFault (HrOrders × HrOrder) :=
  insertRow HrOrder.toHrRow employees t (orderRow now id org d)

def contractRow (now : Timestamp) (id org : Uuid) (d : ContractDraft) : Except StatementFault LaborContract := do
  let signedOn ← orFail .other (castDate d.signedOn)
  let startsOn ← orFail .other (castDate d.startsOn)
  let endsOn ← castDate? d.endsOn
  return ⟨⟨id, org, d.employeeId, now, now⟩, d.number, signedOn, startsOn, endsOn, d.termsJson⟩

def createContract (employees : Employees) (t : LaborContracts) (now : Timestamp) (id org : Uuid) (d : ContractDraft) :
    Except StatementFault (LaborContracts × LaborContract) :=
  insertRow LaborContract.toHrRow employees t (contractRow now id org d)

def vacationRow (now : Timestamp) (id org : Uuid) (d : VacationDraft) : Except StatementFault Vacation := do
  let startsOn ← orFail .other (castDate d.startsOn)
  let endsOn ← orFail .other (castDate d.endsOn)
  let kind ← orFail .other (VacationKind.ofText? d.kind)
  if h : 0 < d.days ∧ startsOn ≤ endsOn then
    return ⟨⟨id, org, d.employeeId, now, now⟩, startsOn, endsOn, d.days, kind, h.1, h.2⟩
  else .error .other

def createVacation (employees : Employees) (t : Vacations) (now : Timestamp) (id org : Uuid) (d : VacationDraft) :
    Except StatementFault (Vacations × Vacation) :=
  insertRow Vacation.toHrRow employees t (vacationRow now id org d)

/-! ### What is read -/

section

variable {ρ : Type} (row : ρ → HrRow)

/-- The rows of an organisation, of one employee or of all. -/
def ofEmployee (rows : List ρ) (org : Uuid) (employee : Option Uuid) : List ρ :=
  (rowsOf (fun r => (row r).orgId) rows org).filter fun r => employee.all (· = (row r).employeeId)

/-- `ORDER BY day DESC, created_at DESC`. -/
def latestFirst (day : ρ → Date) (rows : List ρ) : List ρ :=
  rows.mergeSort fun a b =>
    decide (day b ≤ day a) && (!decide (day a ≤ day b) || decide ((row b).createdAt ≤ (row a).createdAt))

end

def listOrders (t : HrOrders) (org : Uuid) (employee : Option Uuid) (page : PageParams) : List HrOrder :=
  page.cut (latestFirst HrOrder.toHrRow HrOrder.issuedOn (ofEmployee HrOrder.toHrRow t.rows org employee))

def countOrders (t : HrOrders) (org : Uuid) (employee : Option Uuid) : Nat :=
  (ofEmployee HrOrder.toHrRow t.rows org employee).length

def listContracts (t : LaborContracts) (org employee : Uuid) : List LaborContract :=
  latestFirst LaborContract.toHrRow LaborContract.signedOn (ofEmployee LaborContract.toHrRow t.rows org (some employee))

def listVacations (t : Vacations) (org : Uuid) (employee : Option Uuid) (page : PageParams) : List Vacation :=
  page.cut (latestFirst Vacation.toHrRow Vacation.startsOn (ofEmployee Vacation.toHrRow t.rows org employee))

def countVacations (t : Vacations) (org : Uuid) (employee : Option Uuid) : Nat :=
  (ofEmployee Vacation.toHrRow t.rows org employee).length

/-! ### One organisation's rows -/

section

variable {ρ : Type} {row : ρ → HrRow} {employees : Employees} {t t' : HrTable row} {now : Timestamp} {id org : Uuid}
  {made : Except StatementFault ρ} {r : ρ} {o : Option Uuid}

def hrTenant (row : ρ → HrRow) (r : ρ) : Option Uuid := some (row r).orgId

/-- The rows of a tenant. -/
abbrev hrPart (o : Option Uuid) (t : HrTable row) : HrTable row := t.only (hrTenant row) o

theorem refers_part : (employees.part (some org)).Refers org = employees.Refers org := by
  funext employee
  rw [Employees.Refers, Employees.findInOrg, Employees.row_part]
  rfl

theorem insertRow_ok (h : insertRow row employees t made = .ok (t', r)) :
    made = .ok r ∧ employees.Refers (row r).orgId (row r).employeeId ∧ t.insert? r = some t' := by
  simp only [insertRow, bind_eq_ok, orFail_eq_ok, ensure_eq_ok, exists_const, pure_eq_ok, Prod.mk.injEq] at h
  obtain ⟨r', hMade, hRefers, t'', hInsert, rfl, rfl⟩ := h
  exact ⟨hMade, hRefers, hInsert⟩

theorem insertRow_part (hOrg : ∀ r, made = .ok r → (row r).orgId = org)
    (hFresh : ∀ r, made = .ok r → ∀ r' ∈ t.rows, (row r').id ≠ (row r).id) :
    insertRow row (employees.part (some org)) (hrPart (some org) t) made =
      (fun p => (hrPart (some org) p.1, p.2)) <$> insertRow row employees t made := by
  cases made with
  | error e => rfl
  | ok r =>
    have hOwner : (row r).orgId = org := hOrg r rfl
    have hInsert : (hrPart (some org) t).insert? r = (t.insert? r).map (hrPart (some org)) :=
      UniqueTable.insert?_only (congrArg some hOwner) fun r' hr' _ => hFresh r rfl r' hr'
    show (do ensure _ _; let t' ← orFail _ ((hrPart (some org) t).insert? r); pure (t', r)) =
      _ <$> (do ensure _ _; let t' ← orFail _ (t.insert? r); pure (t', r))
    simp only [map_bind, map_pure, hOwner, refers_part]
    refine bind_congr fun _ => ?_
    rw [hInsert, orFail_map, bind_map_left]

theorem insertRow_frame (hOrg : ∀ r, made = .ok r → (row r).orgId = org)
    (h : insertRow row employees t made = .ok (t', r)) (hOther : some org ≠ o) : hrPart o t' = hrPart o t := by
  obtain ⟨hMade, -, hInsert⟩ := insertRow_ok h
  refine UniqueTable.insert?_other (fun hOwner => hOther ?_) hInsert
  exact (congrArg some (hOrg r hMade)).symm.trans hOwner

theorem ofEmployee_part {employee : Option Uuid} :
    ofEmployee row (hrPart (some org) t).rows org employee = ofEmployee row t.rows org employee := by
  have hTenant : rowsOf (hrTenant row) t.rows (some org) = rowsOf (fun r => (row r).orgId) t.rows org :=
    List.filter_congr fun r _ => by simp [hrTenant]
  rw [ofEmployee, ofEmployee, UniqueTable.only_rows, hTenant, rowsOf_rowsOf]

end

/-- What the rows that are made say of their keys. -/
theorem orderRow_keys {now : Timestamp} {id org : Uuid} {d : OrderDraft} {r : HrOrder}
    (h : orderRow now id org d = .ok r) : r.toHrRow = ⟨id, org, d.employeeId, now, now⟩ := by
  simp only [orderRow, bind_eq_ok, pure_eq_ok] at h
  obtain ⟨_, -, _, -, _, -, _, -, rfl⟩ := h
  rfl

theorem contractRow_keys {now : Timestamp} {id org : Uuid} {d : ContractDraft} {r : LaborContract}
    (h : contractRow now id org d = .ok r) : r.toHrRow = ⟨id, org, d.employeeId, now, now⟩ := by
  simp only [contractRow, bind_eq_ok, pure_eq_ok] at h
  obtain ⟨_, -, _, -, _, -, rfl⟩ := h
  rfl

theorem vacationRow_keys {now : Timestamp} {id org : Uuid} {d : VacationDraft} {r : Vacation}
    (h : vacationRow now id org d = .ok r) : r.toHrRow = ⟨id, org, d.employeeId, now, now⟩ := by
  simp only [vacationRow, bind_eq_ok] at h
  obtain ⟨_, -, _, -, _, -, h⟩ := h
  split_ifs at h
  cases h
  rfl

end CyberAccountant.Hr
