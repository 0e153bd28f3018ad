import CyberAccountant.Hr.Parts
import CyberAccountant.Ledger.KzIdentifiers
import CyberAccountant.Ledger.Money
import CyberAccountant.Tenancy.OrgPermissions

/-! `EmployeesController` and the records of `HrController`: what a request runs on the tables and what it is
answered. -/

namespace CyberAccountant.Hr

open CyberAccountant.Library CyberAccountant.Ledger CyberAccountant.Api CyberAccountant.Api.Validation
  CyberAccountant.Tenancy

abbrev HrM := Program HrCommand HrCommand.Reply

namespace HrM

def findMembership (org user : Uuid) : HrM (Option (OrgMember Uuid Uuid)) := .perform (HrCommand.findMembership org user)

def createEmployee (org : Uuid) (fields : EmployeeFields) (hiredOn : String) : HrM (Except StatementFault Employee) :=
  .perform (HrCommand.createEmployee org fields hiredOn)

def findEmployee (id org : Uuid) : HrM (Option Employee) := .perform (HrCommand.findEmployee id org)

def listEmployees (org : Uuid) (page : PageParams) : HrM (List Employee) := .perform (HrCommand.listEmployees org page)

def countEmployees (org : Uuid) : HrM Nat := .perform (HrCommand.countEmployees org)

def updateEmployee (org id : Uuid) (patch : EmployeeFields) : HrM (Except StatementFault (Option Employee)) :=
  .perform (HrCommand.updateEmployee org id patch)

def dismissEmployee (org id : Uuid) (date : String) : HrM (Except StatementFault (Option Employee)) :=
  .perform (HrCommand.dismissEmployee org id date)

def createOrder (org : Uuid) (draft : OrderDraft) : HrM (Except StatementFault HrOrder) :=
  .perform (HrCommand.createOrder org draft)

def listOrders (org : Uuid) (employee : Option Uuid) (page : PageParams) : HrM (List HrOrder) :=
  .perform (HrCommand.listOrders org employee page)

def countOrders (org : Uuid) (employee : Option Uuid) : HrM Nat := .perform (HrCommand.countOrders org employee)

def createContract (org : Uuid) (draft : ContractDraft) : HrM (Except StatementFault LaborContract) :=
  .perform (HrCommand.createContract org draft)

def listContracts (org employee : Uuid) : HrM (List LaborContract) := .perform (HrCommand.listContracts org employee)

def createVacation (org : Uuid) (draft : VacationDraft) : HrM (Except StatementFault Vacation) :=
  .perform (HrCommand.createVacation org draft)

def listVacations (org : Uuid) (employee : Option Uuid) (page : PageParams) : HrM (List Vacation) :=
  .perform (HrCommand.listVacations org employee page)

def countVacations (org : Uuid) (employee : Option Uuid) : HrM Nat := .perform (HrCommand.countVacations org employee)

end HrM

/-- What the access token says of the caller. -/
structure Principal where
  subject : Uuid
  /-- The claim `org`. -/
  org : Option Uuid
  deriving DecidableEq

structure OrgContext where
  orgId : Uuid
  role : OrgRole
  userId : Uuid

inductive HrReply where
  | employee (e : Employee)
  | employeeCreated (e : Employee)
  | employees (rows : List Employee) (total : Nat) (page : PageParams)
  | orderCreated (o : HrOrder)
  | orders (rows : List HrOrder) (total : Nat) (page : PageParams)
  | contractCreated (c : LaborContract)
  | contracts (rows : List LaborContract)
  | vacationCreated (v : Vacation)
  | vacations (rows : List Vacation) (total : Nat) (page : PageParams)
  | badRequest (code message : String)
  | refused (r : Refusal)
  | forbidden
  | roleDenied (message : String)
  | notFound (resource : String)
  | conflict (code message : String)

def roleText : OrgRole → String
  | .owner => "owner"
  | .accountant => "accountant"
  | .hr => "hr"
  | .viewer => "viewer"
  | .agent => "agent"

/-- `API_REQUIRE_ORG` and `API_REQUIRE_ORG_PERM`. -/
def requireOrg (p : Option Principal) (resource action : String) (handler : OrgContext → HrM HrReply) : HrM HrReply :=
  match p with
  | none | some ⟨_, none⟩ => return .forbidden
  | some ⟨user, some org⟩ => do
    match ← HrM.findMembership org user with
    | none => return .forbidden
    | some m =>
      if allows (roleText m.role) resource action then handler ⟨org, m.role, user⟩
      else return .roleDenied ("Your role in this organization is not allowed to " ++ action ++ " " ++ resource)

def orReply {α : Type} (x : Except HrReply α) (handler : α → HrM HrReply) : HrM HrReply :=
  match x with
  | .error reply => return reply
  | .ok a => handler a

def parseBody (body : Option Json) : Except HrReply Json := orFail (.badRequest "invalid_json" "Invalid JSON body") body

def readId (id message : String) : Except HrReply Uuid := orFail (.badRequest "invalid_id" message) (readUuid id)

/-! ### Fields -/

/-- The check of the type of a field that is there. -/
def typed (body : Json) (field : String) (admits : Json → Bool) (code message : String) : List FieldError :=
  match Json.member body.members field with
  | none => []
  | some v => if admits v then [] else [⟨field, code, message⟩]

def isText : Json → Bool
  | .str _ => true
  | _ => false

def isBool : Json → Bool
  | .bool _ => true
  | _ => false

def isInt : Json → Bool
  | .int _ => true
  | _ => false

def boolField (body : Json) (field : String) : Option Bool :=
  match Json.member body.members field with
  | some (.bool b) => some b
  | _ => none

/-- The field is there and not null. -/
def isGiven (body : Json) (field : String) : Bool := (Json.member body.members field).any (!·.isNull)

def unprocessable (field code message : String) : HrReply := .refused (.unprocessable [⟨field, code, message⟩])

def check (errors : List FieldError) : Except HrReply Unit := ensure (errors = []) (.refused (.badRequest errors))

def checkDate (field value : String) : Except HrReply Unit :=
  ensure (isValidDate value = true) (unprocessable field "invalid_date" "must be a calendar-valid YYYY-MM-DD date")

def text (body : Json) (field : String) : String := (stringField body field).getD ""

/-- A date that may be missing. -/
def optionalDate (body : Json) (field : String) : Except HrReply (Option String) :=
  match stringField body field with
  | none => .ok none
  | some value => do
    checkDate field value
    return some value

def isUuidText : Json → Bool
  | .str s => isValidUuid s
  | _ => false

/-! ### Employees -/

namespace EmployeesController

def checkCommonShape (body : Json) : List FieldError :=
  requireString body "iin" ++ requireString body "last_name" ++ requireString body "first_name" ++
    typed body "middle_name" (fun v => v.isNull || isText v) "not_string" "must be a string" ++
    requireString body "position" ++
    typed body "salary" isText "not_string" "must be a decimal string, e.g. \"300000.00\"" ++
    typed body "ipn_deduction_claimed" isBool "not_boolean" "must be a boolean" ++
    typed body "opvr_exempt" isBool "not_boolean" "must be a boolean" ++ requireString body "payout_iik"

def checkCommonSemantics (body : Json) : Except HrReply EmployeeFields := do
  ensure (isValidBinIin (text body "iin") = true) (unprocessable "iin" "invalid_iin" "IIN check digit is invalid")
  let salary := text body "salary"
  let salaryTiyn ← (parseTiyn salary).mapError fun fault => unprocessable "salary" "invalid_salary" (fault.what salary)
  return {
    iin := text body "iin"
    lastName := text body "last_name"
    firstName := text body "first_name"
    middleName := stringField body "middle_name"
    position := text body "position"
    salaryTiyn
    ipnDeductionClaimed := (boolField body "ipn_deduction_claimed").getD false
    opvrExempt := (boolField body "opvr_exempt").getD false
    payoutIik := text body "payout_iik" }

def requireCommon (body : Json) : List FieldError :=
  require body "iin" ++ require body "last_name" ++ require body "first_name" ++ require body "position" ++
    require body "salary"

def validateAndFillCreate (body : Json) : Except HrReply (EmployeeFields × String) := do
  check (requireCommon body ++ require body "hired_on" ++ checkCommonShape body ++ requireString body "hired_on")
  let fields ← checkCommonSemantics body
  checkDate "hired_on" (text body "hired_on")
  return (fields, text body "hired_on")

def validateAndFillUpdate (body : Json) : Except HrReply EmployeeFields := do
  ensure (isGiven body "hired_on" = false)
    (unprocessable "hired_on" "immutable_field" "hired_on is fixed at hire time and cannot be changed")
  ensure (isGiven body "status" = false)
    (unprocessable "status" "use_dismiss_endpoint" "status changes only through POST /employees/\x7bid\x7d/dismiss")
  ensure (isGiven body "dismissed_on" = false)
    (unprocessable "dismissed_on" "use_dismiss_endpoint"
      "dismissed_on changes only through POST /employees/\x7bid\x7d/dismiss")
  check (requireCommon body ++ checkCommonShape body)
  checkCommonSemantics body

def validateDismiss (body : Json) : Except HrReply String := do
  check (require body "dismissed_on" ++ requireString body "dismissed_on")
  checkDate "dismissed_on" (text body "dismissed_on")
  return text body "dismissed_on"

/-- `with_repo_errors` where the repository throws `DuplicateEmployeeIin`. -/
def fault : StatementFault → HrReply
  | .uniqueViolation =>
    .conflict "employee_iin_taken" "An employee with that IIN already exists in this organization"
  | .other => .refused .internalError

def found : Option Employee → HrReply
  | none => .notFound "employee"
  | some e => .employee e

def list (p : Option Principal) (limit offset : String) : HrM HrReply :=
  requireOrg p "employees" "read" fun ctx => do
    let page := parsePageParams limit offset 50 200
    let rows ← HrM.listEmployees ctx.orgId page
    let total ← HrM.countEmployees ctx.orgId
    return .employees rows total page

def create (p : Option Principal) (body : Option Json) : HrM HrReply :=
  requireOrg p "employees" "write" fun ctx =>
    orReply (parseBody body >>= validateAndFillCreate) fun draft => do
      match ← HrM.createEmployee ctx.orgId draft.1 draft.2 with
      | .error e => return fault e
      | .ok e => return .employeeCreated e

def get (p : Option Principal) (id : String) : HrM HrReply :=
  requireOrg p "employees" "read" fun ctx =>
    orReply (readId id "Malformed employee id") fun id => do
      return found (← HrM.findEmployee id ctx.orgId)

def patch (p : Option Principal) (id : String) (body : Option Json) : HrM HrReply :=
  requireOrg p "employees" "write" fun ctx =>
    orReply (readId id "Malformed employee id") fun id =>
      orReply (parseBody body >>= validateAndFillUpdate) fun draft => do
        match ← HrM.updateEmployee ctx.orgId id draft with
        | .error e => return fault e
        | .ok e => return found e

def dismiss (p : Option Principal) (id : String) (body : Option Json) : HrM HrReply :=
  requireOrg p "employees" "write" fun ctx =>
    orReply (readId id "Malformed employee id") fun id =>
      orReply (parseBody body >>= validateDismiss) fun date => do
        match ← HrM.dismissEmployee ctx.orgId id date with
        | .error _ => return .refused .internalError
        | .ok e => return found e

end EmployeesController

/-! ### Orders, contracts and vacations -/

namespace HrController

/-- A filter by employee that may be missing. -/
def filterEmployeeId (param : String) : Except HrReply (Option Uuid) :=
  if param = "" then .ok none
  else do return some (← orFail (.badRequest "invalid_employee_id" "employee_id must be a uuid") (readUuid param))

def requireUuid (body : Json) (field : String) : List FieldError :=
  typed body field isUuidText "bad_format" "must be a uuid"

def optionalText (body : Json) (field : String) : List FieldError :=
  typed body field (fun v => v.isNull || isText v) "not_string" "must be a string"

def optionalObject (body : Json) (field : String) : List FieldError :=
  typed body field (fun v => v.isNull || v.isObject) "not_object" "must be a JSON object"

def objectField (body : Json) (field : String) : Option Json :=
  (Json.member body.members field).filter (!·.isNull)

def employeeId (body : Json) : Uuid := ((stringField body "employee_id").bind readUuid).getD 0

def validateOrder (body : Json) : Except HrReply OrderDraft := do
  check (require body "employee_id" ++ require body "kind" ++ require body "number" ++ require body "issued_on" ++
    require body "effective_from" ++ requireUuid body "employee_id" ++ requireString body "kind" ++
    requireString body "number" ++ requireString body "issued_on" ++ requireString body "effective_from" ++
    optionalText body "effective_to" ++ optionalObject body "payload")
  ensure (text body "kind" ∈ OrderKind.all.map OrderKind.text)
    (unprocessable "kind" "not_allowed" "must be one of: hire, dismiss, vacation, business_trip, salary_change")
  checkDate "issued_on" (text body "issued_on")
  checkDate "effective_from" (text body "effective_from")
  let effectiveTo ← optionalDate body "effective_to"
  return ⟨employeeId body, text body "kind", text body "number", text body "issued_on", text body "effective_from",
    effectiveTo, objectField body "payload"⟩

def validateContract (body : Json) : Except HrReply ContractDraft := do
  check (require body "employee_id" ++ require body "number" ++ require body "signed_on" ++ require body "starts_on" ++
    requireUuid body "employee_id" ++ requireString body "number" ++ requireString body "signed_on" ++
    requireString body "starts_on" ++ optionalText body "ends_on" ++ optionalObject body "terms_json")
  checkDate "signed_on" (text body "signed_on")
  checkDate "starts_on" (text body "starts_on")
  let endsOn ← optionalDate body "ends_on"
  return ⟨employeeId body, text body "number", text body "signed_on", text body "starts_on", endsOn,
    objectField body "terms_json"⟩

/-- The conversion of an integer to `int`. -/
def wrap32 (n : Int) : Int := (n + 2147483648) % 4294967296 - 2147483648

def intField (body : Json) (field : String) : Int :=
  match Json.member body.members field with
  | some (.int n) => wrap32 n
  | _ => 0

def validateVacation (body : Json) : Except HrReply VacationDraft := do
  check (require body "employee_id" ++ require body "starts_on" ++ require body "ends_on" ++ require body "days" ++
    require body "kind" ++ requireUuid body "employee_id" ++ requireString body "starts_on" ++
    requireString body "ends_on" ++ typed body "days" isInt "not_integer" "must be an integer" ++
    requireString body "kind")
  checkDate "starts_on" (text body "starts_on")
  checkDate "ends_on" (text body "ends_on")
  -- The texts of two valid dates are in the order of the dates.
  ensure (¬text body "ends_on" < text body "starts_on")
    (unprocessable "ends_on" "before_starts_on" "ends_on must be on or after starts_on")
  ensure (0 < intField body "days") (unprocessable "days" "not_positive" "must be greater than 0")
  ensure (text body "kind" ∈ VacationKind.all.map VacationKind.text)
    (unprocessable "kind" "not_allowed" "must be one of: annual, unpaid, sick")
  return ⟨employeeId body, text body "starts_on", text body "ends_on", intField body "days", text body "kind"⟩

/-- `employee_belongs_to_org`. -/
def requireEmployee (ctx : OrgContext) (employee : Uuid) (handler : HrM HrReply) : HrM HrReply := do
  match ← HrM.findEmployee employee ctx.orgId with
  | none => return unprocessable "employee_id" "foreign_employee" "employee does not belong to this organization"
  | some _ => handler

/-- The reply to an insertion that none of the repository's own errors explains. -/
def inserted {ρ : Type} (reply : ρ → HrReply) : Except StatementFault ρ → HrReply
  | .error _ => .refused .internalError
  | .ok r => reply r

def listOrders (p : Option Principal) (employee limit offset : String) : HrM HrReply :=
  requireOrg p "hr_docs" "read" fun ctx =>
    orReply (filterEmployeeId employee) fun employee => do
      let page := parsePageParams limit offset 50 200
      let rows ← HrM.listOrders ctx.orgId employee page
      let total ← HrM.countOrders ctx.orgId employee
      return .orders rows total page

def createOrder (p : Option Principal) (body : Option Json) : HrM HrReply :=
  requireOrg p "hr_docs" "write" fun ctx =>
    orReply (parseBody body >>= validateOrder) fun draft =>
      requireEmployee ctx draft.employeeId do
        return inserted .orderCreated (← HrM.createOrder ctx.orgId draft)

def listContracts (p : Option Principal) (employee : String) : HrM HrReply :=
  requireOrg p "hr_docs" "read" fun ctx =>
    orReply (filterEmployeeId employee) fun employee =>
      match employee with
      | none => return .badRequest "missing_employee_id" "employee_id query parameter is required"
      | some employee => do return .contracts (← HrM.listContracts ctx.orgId employee)

def createContract (p : Option Principal) (body : Option Json) : HrM HrReply :=
  requireOrg p "hr_docs" "write" fun ctx =>
    orReply (parseBody body >>= validateContract) fun draft =>
      requireEmployee ctx draft.employeeId do
        return inserted .contractCreated (← HrM.createContract ctx.orgId draft)

def listVacations (p : Option Principal) (employee limit offset : String) : HrM HrReply :=
  requireOrg p "hr_docs" "read" fun ctx =>
    orReply (filterEmployeeId employee) fun employee => do
      let page := parsePageParams limit offset 50 200
      let rows ← HrM.listVacations ctx.orgId employee page
      let total ← HrM.countVacations ctx.orgId employee
      return .vacations rows total page

def createVacation (p : Option Principal) (body : Option Json) : HrM HrReply :=
  requireOrg p "hr_docs" "write" fun ctx =>
    orReply (parseBody body >>= validateVacation) fun draft =>
      requireEmployee ctx draft.employeeId do
        return inserted .vacationCreated (← HrM.createVacation ctx.orgId draft)

end HrController

/-! ### Routes -/

inductive HrRequest where
  | listEmployees (limit offset : String)
  | createEmployee (body : Option Json)
  | getEmployee (id : String)
  | patchEmployee (id : String) (body : Option Json)
  | dismissEmployee (id : String) (body : Option Json)
  | listOrders (employee limit offset : String)
  | createOrder (body : Option Json)
  | listContracts (employee : String)
  | createContract (body : Option Json)
  | listVacations (employee limit offset : String)
  | createVacation (body : Option Json)

def handle (p : Option Principal) : HrRequest → HrM HrReply
  | .listEmployees limit offset => EmployeesController.list p limit offset
  | .createEmployee body => EmployeesController.create p body
  | .getEmployee id => EmployeesController.get p id
  | .patchEmployee id body => EmployeesController.patch p id body
  | .dismissEmployee id body => EmployeesController.dismiss p id body
  | .listOrders employee limit offset => HrController.listOrders p employee limit offset
  | .createOrder body => HrController.createOrder p body
  | .listContracts employee => HrController.listContracts p employee
  | .createContract body => HrController.createContract p body
  | .listVacations employee limit offset => HrController.listVacations p employee limit offset
  | .createVacation body => HrController.createVacation p body

end CyberAccountant.Hr
