import CyberAccountant.Hr.HrDocuments
import CyberAccountant.Library.Isolation
import CyberAccountant.Tenancy.LastOwner

/-! The statements of the personnel records on the tables of all organisations together, and the part of these
tables that is one organisation's. -/

namespace CyberAccountant.Hr

open CyberAccountant.Library CyberAccountant.Ledger CyberAccountant.Api CyberAccountant.Tenancy

structure HrTables where
  users : List Uuid
  members : OrgMembers Uuid Uuid
  employees : Employees
  orders : HrOrders
  contracts : LaborContracts
  vacations : Vacations
  /-- How many ids were drawn for the rows of an organisation. -/
  drawn : Uuid → Nat

/-- A statement, in a transaction of its own. -/
inductive HrCommand where
  | findMembership (org user : Uuid)
  | createEmployee (org : Uuid) (fields : EmployeeFields) (hiredOn : String)
  | findEmployee (id org : Uuid)
  | listEmployees (org : Uuid) (page : PageParams)
  | countEmployees (org : Uuid)
  | updateEmployee (org id : Uuid) (patch : EmployeeFields)
  | dismissEmployee (org id : Uuid) (date : String)
  | listEmployedDuring (org : Uuid) (periodStart periodEnd : Date)
  | createOrder (org : Uuid) (draft : OrderDraft)
  | listOrders (org : Uuid) (employee : Option Uuid) (page : PageParams)
  | countOrders (org : Uuid) (employee : Option Uuid)
  | createContract (org : Uuid) (draft : ContractDraft)
  | listContracts (org employee : Uuid)
  | createVacation (org : Uuid) (draft : VacationDraft)
  | listVacations (org : Uuid) (employee : Option Uuid) (page : PageParams)
  | countVacations (org : Uuid) (employee : Option Uuid)
  | writeMember (w : MemberWrite Uuid Uuid)
  | createUser (user : Uuid)

namespace HrCommand

def Reply : HrCommand → Type
  | findMembership _ _ => Option (OrgMember Uuid Uuid)
  | createEmployee _ _ _ => Except StatementFault Employee
  | findEmployee _ _ => Option Employee
  | listEmployees _ _ | listEmployedDuring _ _ _ => List Employee
  | countEmployees _ | countOrders _ _ | countVacations _ _ => Nat
  | updateEmployee _ _ _ | dismissEmployee _ _ _ => Except StatementFault (Option Employee)
  | createOrder _ _ => Except StatementFault HrOrder
  | listOrders _ _ _ => List HrOrder
  | createContract _ _ => Except StatementFault LaborContract
  | listContracts _ _ => List LaborContract
  | createVacation _ _ => Except StatementFault Vacation
  | listVacations _ _ _ => List Vacation
  | writeMember _ | createUser _ => Unit

/-- The organisation that a statement is about; that a user comes or goes is about none in particular. -/
def org : HrCommand → Option Uuid
  | findMembership org _ | createEmployee org _ _ | findEmployee _ org | listEmployees org _ | countEmployees org
  | updateEmployee org _ _ | dismissEmployee org _ _ | listEmployedDuring org _ _ | createOrder org _
  | listOrders org _ _ | countOrders org _ | createContract org _ | listContracts org _ | createVacation org _
  | listVacations org _ _ | countVacations org _ => some org
  | writeMember (.add org _ _) | writeMember (.setRole org _ _) | writeMember (.remove org _) => some org
  | writeMember (.deleteUser _) | createUser _ => none

end HrCommand

/-- The tables after a statement: as they were if it failed. -/
def commit {τ ρ : Type} (s : HrTables) (store : τ → HrTables) :
    Except StatementFault (τ × ρ) → Except StatementFault ρ × HrTables
  | .ok (t, row) => (.ok row, store t)
  | .error e => (.error e, s)

namespace HrTables

/-- The tables with one more id drawn for an organisation. -/
def draw (s : HrTables) (org : Uuid) : HrTables :=
  { s with drawn := fun o => if o = org then s.drawn o + 1 else s.drawn o }

/-- The write of a membership.  A membership is a user's. -/
def writeMember (s : HrTables) : MemberWrite Uuid Uuid → HrTables
  | .add org user role => if user ∈ s.users then { s with members := s.members.add org user role } else s
  | .setRole org user role => { s with members := s.members.setRole org user role }
  | .remove org user => { s with members := s.members.remove org user }
  | .deleteUser user => { s with users := s.users.filter (· ≠ user), members := s.members.cascade user }

/-- What a statement replies and leaves.  `newId` is the id that the database draws for a row of an
organisation. -/
def exec (newId : Uuid → Nat → Uuid) (now : Timestamp) : (c : HrCommand) → HrTables → c.Reply × HrTables
  | .findMembership org user, s => (s.members.findMembership org user, s)
  | .createEmployee org fields hiredOn, s =>
    commit s (fun t => { s.draw org with employees := t })
      (s.employees.create now (newId org (s.drawn org)) org fields hiredOn)
  | .findEmployee id org, s => (s.employees.findInOrg id org, s)
  | .listEmployees org page, s => (s.employees.listInOrg org page, s)
  | .countEmployees org, s => (s.employees.countInOrg org, s)
  | .updateEmployee org id patch, s =>
    commit s (fun t => { s with employees := t }) (s.employees.update now org id patch)
  | .dismissEmployee org id date, s =>
    commit s (fun t => { s with employees := t }) (s.employees.dismiss now org id date)
  | .listEmployedDuring org periodStart periodEnd, s =>
    (s.employees.listEmployedDuring org periodStart periodEnd, s)
  | .createOrder org draft, s =>
    commit s (fun t => { s.draw org with orders := t })
      (createOrder s.employees s.orders now (newId org (s.drawn org)) org draft)
  | .listOrders org employee page, s => (listOrders s.orders org employee page, s)
  | .countOrders org employee, s => (countOrders s.orders org employee, s)
  | .createContract org draft, s =>
    commit s (fun t => { s.draw org with contracts := t })
      (createContract s.employees s.contracts now (newId org (s.drawn org)) org draft)
  | .listContracts org employee, s => (listContracts s.contracts org employee, s)
  | .createVacation org draft, s =>
    commit s (fun t => { s.draw org with vacations := t })
      (createVacation s.employees s.vacations now (newId org (s.drawn org)) org draft)
  | .listVacations org employee page, s => (listVacations s.vacations org employee page, s)
  | .countVacations org employee, s => (countVacations s.vacations org employee, s)
  | .writeMember w, s => ((), s.writeMember w)
  | .createUser user, s => ((), { s with users := s.users ++ [user] })

end HrTables

end CyberAccountant.Hr
