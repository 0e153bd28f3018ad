import CyberAccountant.Admin.Lockout
import CyberAccountant.Hr.Controllers
import CyberAccountant.Library.UniqueTable
import CyberAccountant.Security.Auth

/-! `OrganizationsController`: the organisations, their requisites and their members.  The requests about an
organisation are for an administrator of the platform or for an owner whose access token names it. -/

namespace CyberAccountant.Tenancy

open CyberAccountant.Library CyberAccountant.Ledger CyberAccountant.Api CyberAccountant.Api.Validation
  CyberAccountant.Security.Auth CyberAccountant.Security.Jwt
open CyberAccountant.Library.Program (orReply)
open CyberAccountant.Hr (StatementFault typed isText isBool isGiven text boolField roleText)

/-! ### Tables -/

/-- What is printed of an organisation in its documents. -/
structure Requisites where
  legalAddress : String
  directorName : String
  directorPosition : String
  vatCertificate : String
  deriving DecidableEq

structure Organization where
  id : Uuid
  bin : String
  name : String
  taxRegime : String
  vatPayer : Bool
  requisites : Requisites
  deriving DecidableEq

/-- `PRIMARY KEY (id)` and `UNIQUE (bin)`. -/
def organizationKeys : Constraints Organization Uuid where
  key o := o.id
  Clash a b := a.id = b.id ∨ a.bin = b.bin
  decidable _ _ := inferInstanceAs (Decidable (_ ∨ _))
  symm h := h.imp Eq.symm Eq.symm
  key_clash h := .inl h

/-- Two texts of the type `CITEXT` are one. -/
def sameEmail (a b : String) : Prop := a.toList.map Char.toLower = b.toList.map Char.toLower

instance (a b : String) : Decidable (sameEmail a b) := inferInstanceAs (Decidable (_ = _))

structure User where
  id : Uuid
  email : String
  deriving DecidableEq

/-- `PRIMARY KEY (id)` and `UNIQUE (email)`. -/
def userKeys : Constraints User Uuid where
  key u := u.id
  Clash a b := a.id = b.id ∨ sameEmail a.email b.email
  decidable _ _ := inferInstanceAs (Decidable (_ ∨ _))
  symm h := h.imp Eq.symm Eq.symm
  key_clash h := .inl h

structure TenancyTables where
  organizations : UniqueTable organizationKeys
  users : UniqueTable userKeys
  members : OrgMembers Uuid Uuid

structure MemberWithEmail where
  userId : Uuid
  email : String
  role : OrgRole
  deriving DecidableEq

/-- A call of a repository, in a transaction of its own.  The last three come from the account and the
administration pages. -/
inductive OrgCommand where
  | findMembership (org user : Uuid)
  | listMembers (org : Uuid)
  | listMembersWithEmail (org : Uuid)
  | listForUser (user : Uuid)
  | addMember (org user : Uuid) (role : OrgRole)
  | setRole (org user : Uuid) (role : OrgRole)
  | removeMember (org user : Uuid)
  | createOrganization (bin name taxRegime : String) (vatPayer : Bool)
  | findOrganization (id : Uuid)
  | listOrganizations (page : PageParams)
  | countOrganizations
  | updateRequisites (id : Uuid) (requisites : Requisites)
  | findByEmail (email : String)
  | createUser (user : Uuid) (email : String)
  | updateEmail (user : Uuid) (email : String)
  | deleteUser (user : Uuid)

def OrgCommand.Reply : OrgCommand → Type
  | findMembership _ _ => Option (OrgMember Uuid Uuid)
  | listMembers _ | listForUser _ => List (OrgMember Uuid Uuid)
  | listMembersWithEmail _ => List MemberWithEmail
  | addMember _ _ _ => Except StatementFault (OrgMember Uuid Uuid)
  | setRole _ _ _ | removeMember _ _ | updateRequisites _ _ => Bool
  | createOrganization _ _ _ _ => Except StatementFault Organization
  | findOrganization _ => Option Organization
  | listOrganizations _ => List Organization
  | countOrganizations => Nat
  | findByEmail _ => Option User
  | createUser _ _ | updateEmail _ _ | deleteUser _ => Unit

namespace TenancyTables

/-- The insertion of a membership, which refers to an organisation and a user. -/
def addMember (s : TenancyTables) (org user : Uuid) (role : OrgRole) :
    Except StatementFault (OrgMember Uuid Uuid) × TenancyTables :=
  if (s.members.findMembership org user).isSome then (.error .uniqueViolation, s)
  else if (s.organizations.row? org).isNone ∨ (s.users.row? user).isNone then (.error .other, s)
  else (.ok ⟨org, user, role⟩, { s with members := s.members.add org user role })

/-- The row gets its id from the database. -/
def createOrganization (s : TenancyTables) (id : Uuid) (bin name taxRegime : String) (vatPayer : Bool) :
    Except StatementFault Organization × TenancyTables :=
  let o : Organization := ⟨id, bin, name, taxRegime, vatPayer, ⟨"", "", "", ""⟩⟩
  match s.organizations.insert? o with
  | none => (.error .uniqueViolation, s)
  | some t => (.ok o, { s with organizations := t })

def updateRequisites (s : TenancyTables) (id : Uuid) (requisites : Requisites) : Bool × TenancyTables :=
  match s.organizations.row? id, s.organizations.change? id fun o => { o with requisites := requisites } with
  | some _, some t => (true, { s with organizations := t })
  | _, _ => (false, s)

/-- The rows of the join with `users`. -/
def listMembersWithEmail (s : TenancyTables) (org : Uuid) : List MemberWithEmail :=
  (s.members.listMembers org).filterMap fun m => (s.users.row? m.user).map fun u => ⟨m.user, u.email, m.role⟩

/-- What a call replies and leaves.  `drawn` is the id that the database draws then. -/
def exec (drawn : Uuid) : (c : OrgCommand) → TenancyTables → c.Reply × TenancyTables
  | .findMembership org user, s => (s.members.findMembership org user, s)
  | .listMembers org, s => (s.members.listMembers org, s)
  | .listMembersWithEmail org, s => (s.listMembersWithEmail org, s)
  | .listForUser user, s => (s.members.rows.filter (·.user = user), s)
  | .addMember org user role, s => s.addMember org user role
  | .setRole org user role, s =>
    ((s.members.findMembership org user).isSome, { s with members := s.members.setRole org user role })
  | .removeMember org user, s =>
    ((s.members.findMembership org user).isSome, { s with members := s.members.remove org user })
  | .createOrganization bin name taxRegime vatPayer, s => s.createOrganization drawn bin name taxRegime vatPayer
  | .findOrganization id, s => (s.organizations.row? id, s)
  | .listOrganizations page, s => (page.cut s.organizations.rows.reverse, s)
  | .countOrganizations, s => (s.organizations.rows.length, s)
  | .updateRequisites id requisites, s => s.updateRequisites id requisites
  | .findByEmail email, s => (s.users.rows.find? fun u => sameEmail u.email email, s)
  | .createUser user email, s => ((), { s with users := (s.users.insert? ⟨user, email⟩).getD s.users })
  | .updateEmail user email, s =>
    ((), { s with users := (s.users.change? user fun u => { u with email := email }).getD s.users })
  | .deleteUser user, s =>
    ((), { s with users := s.users.only (fun u => decide (u.id = user)) false, members := s.members.cascade user })

end TenancyTables

/-! ### Requests -/

abbrev OrgM := Program OrgCommand OrgCommand.Reply

namespace OrgM

def findMembership (org user : Uuid) : OrgM (Option (OrgMember Uuid Uuid)) :=
  .perform (OrgCommand.findMembership org user)

def listMembers (org : Uuid) : OrgM (List (OrgMember Uuid Uuid)) := .perform (OrgCommand.listMembers org)

def listMembersWithEmail (org : Uuid) : OrgM (List MemberWithEmail) :=
  .perform (OrgCommand.listMembersWithEmail org)

def listForUser (user : Uuid) : OrgM (List (OrgMember Uuid Uuid)) := .perform (OrgCommand.listForUser user)

def addMember (org user : Uuid) (role : OrgRole) : OrgM (Except StatementFault (OrgMember Uuid Uuid)) :=
  .perform (OrgCommand.addMember org user role)

def setRole (org user : Uuid) (role : OrgRole) : OrgM Bool := .perform (OrgCommand.setRole org user role)

def removeMember (org user : Uuid) : OrgM Bool := .perform (OrgCommand.removeMember org user)

def createOrganization (bin name taxRegime : String) (vatPayer : Bool) : OrgM (Except StatementFault Organization) :=
  .perform (OrgCommand.createOrganization bin name taxRegime vatPayer)

def findOrganization (id : Uuid) : OrgM (Option Organization) := .perform (OrgCommand.findOrganization id)

def listOrganizations (page : PageParams) : OrgM (List Organization) := .perform (OrgCommand.listOrganizations page)

def countOrganizations : OrgM Nat := .perform OrgCommand.countOrganizations

def updateRequisites (id : Uuid) (requisites : Requisites) : OrgM Bool :=
  .perform (OrgCommand.updateRequisites id requisites)

def findByEmail (email : String) : OrgM (Option User) := .perform (OrgCommand.findByEmail email)

end OrgM

inductive OrgReply where
  | organizationCreated (o : Organization)
  | organizations (rows : List Organization) (total : Nat) (page : PageParams)
  | mine (rows : List (Organization × OrgRole))
  | members (rows : List MemberWithEmail)
  | memberAdded (m : OrgMember Uuid Uuid)
  | memberUpdated (m : OrgMember Uuid Uuid)
  | memberRemoved
  | requisitesUpdated (o : Organization)
  | badRequest (code message : String)
  | refused (r : Refusal)
  | unauthorized
  | permissionRequired (perm : BitVec 32)
  | notFound (resource : String)
  | userNotFound
  | conflict (code message : String)
  /-- An exception that the handler does not catch. -/
  | thrown
  /-- The handler reads an optional that is empty. -/
  | undefined

/-! ### Guards -/

/-- `current_user_is_admin`. -/
def isAdmin (p : AuthPrincipal) : Bool :=
  match Json.member p.rawClaims.members "permissions" with
  | some (.int n) => Admin.permissionsOf n &&& Admin.administer = Admin.administer
  | _ => false

def requireAdmin (mode : AuthMode) (p : Option AuthPrincipal) (handler : OrgM OrgReply) : OrgM OrgReply :=
  if mode = .none ∨ p.any isAdmin = true then handler else return .permissionRequired Admin.administer

/-- The organisation that the access token names, and the caller's role in it. -/
structure OrgContext where
  orgId : String
  role : OrgRole

/-- `org_context_of`; the statement throws on a text that is no id. -/
def orgContextOf (p : Option AuthPrincipal) : OrgM (Except OrgReply (Option OrgContext)) :=
  match p with
  | none => return .ok none
  | some p =>
    if p.subject = "" ∨ p.org = "" then return .ok none
    else
      match readUuid p.org, readUuid p.subject with
      | some org, some user => do return .ok ((← OrgM.findMembership org user).map fun m => ⟨p.org, m.role⟩)
      | _, _ => return .error .thrown

def requireAdminOrOrgOwner (mode : AuthMode) (p : Option AuthPrincipal) (org : String) (handler : OrgM OrgReply) :
    OrgM OrgReply := do
  match ← orgContextOf p with
  | .error reply => return reply
  | .ok none => requireAdmin mode p handler
  | .ok (some ctx) =>
    if ctx.orgId = org ∧ ctx.role = .owner then handler else requireAdmin mode p handler

/-! ### Checks -/

def parseBody (body : Option Json) : Except OrgReply Json := orFail (.badRequest "invalid_json" "Invalid JSON body") body

def check (errors : List FieldError) : Except OrgReply Unit := ensure (errors = []) (.refused (.badRequest errors))

def readOrgId (id : String) : Except OrgReply Uuid :=
  orFail (.badRequest "invalid_id" "Malformed organization id") (readUuid id)

/-- The ids of an organisation and of a user. -/
def readIds (id userId : String) : Except OrgReply (Uuid × Uuid) := do
  let org ← orFail (.badRequest "invalid_id" "") (readUuid id)
  let user ← orFail (.badRequest "invalid_id" "") (readUuid userId)
  return (org, user)

def uuid (body : Json) (field : String) : List FieldError := regexMatch body field isValidUuid "uuid"

def oneOfField (body : Json) (field : String) (allowed : List String) : List FieldError :=
  match Json.member body.members field with
  | none | some .null => []
  | some (.str s) => oneOf field s allowed
  | some _ => [⟨field, "not_string", "must be a string"⟩]

/-- `is_valid_role`, with the role that the text names. -/
def readRole (s : String) : Option OrgRole :=
  [OrgRole.owner, .accountant, .hr, .viewer].find? fun role => roleText role = s

def roleField (body : Json) : Except OrgReply OrgRole :=
  orFail (.refused (.badRequest [⟨"role", "not_allowed", "must be one of: 'owner' 'accountant' 'hr' 'viewer'"⟩]))
    ((stringField body "role").bind readRole)

def isBinFormat (s : String) : Bool := s.toList.length = 12 && s.toList.all Char.isDigit

structure OrganizationDraft where
  bin : String
  /-- Missing where the field is no text. -/
  name : Option String
  taxRegime : String
  vatPayer : Bool

def validateOrganization (body : Json) : Except OrgReply OrganizationDraft := do
  check (require body "bin" ++ require body "name" ++ typed body "bin" isText "not_string" "must be a string" ++
    typed body "vat_payer" isBool "not_boolean" "must be a boolean" ++
    oneOfField body "tax_regime" ["snr_simplified", "standard"])
  ensure (isBinFormat (text body "bin") = true)
    (.refused (.unprocessable [⟨"bin", "invalid_bin", "BIN must be exactly 12 digits"⟩]))
  -- A null is there and is no text.
  let taxRegime ← (value body "tax_regime" "snr_simplified").mapError fun _ => .thrown
  return ⟨text body "bin", stringField body "name", taxRegime, (boolField body "vat_payer").getD false⟩

/-- How a request names the user to add. -/
inductive MemberSubject where
  | byId (user : Uuid)
  | byEmail (email : String)

def validateMember (body : Json) : Except OrgReply (MemberSubject × OrgRole) := do
  ensure (¬(isGiven body "user_id" = true ∧ isGiven body "email" = true))
    (.refused (.badRequest [⟨"email", "mutually_exclusive", "provide either user_id or email, not both"⟩]))
  if isGiven body "email" then
    check (require body "role" ++ email body "email")
    let role ← roleField body
    return (.byEmail (text body "email"), role)
  else
    check (require body "role" ++ (require body "user_id" ++ uuid body "user_id"))
    let role ← roleField body
    let user ← orFail .thrown (readUuid (text body "user_id"))
    return (.byId user, role)

def validateRole (body : Json) : Except OrgReply OrgRole := do
  check (require body "role")
  roleField body

def requisite (body : Json) (field : String) : List FieldError :=
  require body field ++ typed body field isText "not_string" "must be a string"

def validateRequisites (body : Json) : Except OrgReply Requisites := do
  check (requisite body "legal_address" ++ requisite body "director_name" ++ requisite body "director_position" ++
    typed body "vat_certificate" isText "not_string" "must be a string")
  return ⟨text body "legal_address", text body "director_name", text body "director_position",
    text body "vat_certificate"⟩

/-! ### Handlers -/

namespace OrganizationsController

/-- The creator becomes an owner, where that succeeds. -/
def bindCreator (p : Option AuthPrincipal) (o : Organization) : OrgM OrgReply :=
  match p.bind fun p => readUuid p.subject with
  | none => return .organizationCreated o
  | some user => do
    let _ ← OrgM.addMember o.id user .owner
    return .organizationCreated o

def createOrganization (mode : AuthMode) (p : Option AuthPrincipal) (body : Option Json) : OrgM OrgReply :=
  requireAdmin mode p do
    orReply (parseBody body >>= validateOrganization) fun draft =>
      orReply (orFail (.refused .internalError) draft.name) fun name => do
        match ← OrgM.createOrganization draft.bin name draft.taxRegime draft.vatPayer with
        | .error .uniqueViolation => return .conflict "bin_taken" "An organization with that BIN already exists"
        | .error .other => return .refused .internalError
        | .ok o => bindCreator p o

def listOrganizations (mode : AuthMode) (p : Option AuthPrincipal) (limit offset : String) : OrgM OrgReply :=
  requireAdmin mode p do
    let page := parsePageParams limit offset 50 200
    let rows ← OrgM.listOrganizations page
    let total ← OrgM.countOrganizations
    return .organizations rows total page

def mine (p : Option AuthPrincipal) : OrgM OrgReply :=
  orReply (orFail .unauthorized p) fun p =>
    orReply (orFail (.refused .internalError) (readUuid p.subject)) fun user => do
      let memberships ← OrgM.listForUser user
      let rows ← memberships.foldlM (fun rows m => do
        match ← OrgM.findOrganization m.org with
        | none => return rows
        | some o => return rows ++ [(o, m.role)]) []
      return .mine rows

def listMembers (mode : AuthMode) (p : Option AuthPrincipal) (id : String) : OrgM OrgReply :=
  requireAdminOrOrgOwner mode p id do
    orReply (readOrgId id) fun org => do
      return .members (← OrgM.listMembersWithEmail org)

/-- `add` under `with_repo_errors`. -/
def add (org user : Uuid) (role : OrgRole) : OrgM OrgReply := do
  match ← OrgM.addMember org user role with
  | .error .uniqueViolation =>
    return .conflict "membership_exists" "This user is already a member of the organization"
  | .error .other => return .refused .internalError
  | .ok m => return .memberAdded m

def addMember (mode : AuthMode) (p : Option AuthPrincipal) (id : String) (body : Option Json) : OrgM OrgReply :=
  requireAdminOrOrgOwner mode p id do
    orReply (readOrgId id) fun org =>
      orReply (parseBody body >>= validateMember) fun asked =>
        match asked.1 with
        | .byId user => add org user asked.2
        | .byEmail email => do
          match ← OrgM.findByEmail email with
          | none => return .userNotFound
          | some u => add org u.id asked.2

/-- `set_role` and what is found after it. -/
def changeRole (org user : Uuid) (role : OrgRole) : OrgM OrgReply := do
  let _ ← OrgM.setRole org user role
  match ← OrgM.findMembership org user with
  | none => return .undefined
  | some fresh => return .memberUpdated fresh

def countOwners (rows : List (OrgMember Uuid Uuid)) : Nat := (rows.filter (·.role = .owner)).length

/-- The last-owner protection of a change that `takes` the ownership of an owner. -/
def protectLastOwner (org user : Uuid) (takes : Bool) (message : String) (change : OrgM OrgReply) : OrgM OrgReply := do
  match ← OrgM.findMembership org user with
  | none => return .notFound "member"
  | some target =>
    if target.role = .owner ∧ takes = true then
      let rows ← OrgM.listMembers org
      if countOwners rows ≤ 1 then return .conflict "last_owner" message else change
    else change

def updateMemberRole (mode : AuthMode) (p : Option AuthPrincipal) (id userId : String) (body : Option Json) :
    OrgM OrgReply :=
  requireAdminOrOrgOwner mode p id do
    orReply (readIds id userId) fun ids =>
      orReply (parseBody body >>= validateRole) fun role =>
        protectLastOwner ids.1 ids.2 (role ≠ .owner) "Cannot demote the last owner of an organization"
          (changeRole ids.1 ids.2 role)

def removeMember (mode : AuthMode) (p : Option AuthPrincipal) (id userId : String) : OrgM OrgReply :=
  requireAdminOrOrgOwner mode p id do
    orReply (readIds id userId) fun ids =>
      protectLastOwner ids.1 ids.2 true "Cannot remove the last owner of an organization" do
        let _ ← OrgM.removeMember ids.1 ids.2
        return .memberRemoved

def updateRequisites (mode : AuthMode) (p : Option AuthPrincipal) (id : String) (body : Option Json) : OrgM OrgReply :=
  requireAdminOrOrgOwner mode p id do
    orReply (readOrgId id) fun org =>
      orReply (parseBody body >>= validateRequisites) fun requisites => do
        if ← OrgM.updateRequisites org requisites then
          match ← OrgM.findOrganization org with
          | none => return .notFound "organization"
          | some o => return .requisitesUpdated o
        else return .notFound "organization"

end OrganizationsController

inductive OrgRequest where
  | createOrganization (body : Option Json)
  | listOrganizations (limit offset : String)
  | mine
  | listMembers (id : String)
  | addMember (id : String) (body : Option Json)
  | updateMemberRole (id userId : String) (body : Option Json)
  | removeMember (id userId : String)
  | updateRequisites (id : String) (body : Option Json)

def handle (mode : AuthMode) (p : Option AuthPrincipal) : OrgRequest → OrgM OrgReply
  | .createOrganization body => OrganizationsController.createOrganization mode p body
  | .listOrganizations limit offset => OrganizationsController.listOrganizations mode p limit offset
  | .mine => OrganizationsController.mine p
  | .listMembers id => OrganizationsController.listMembers mode p id
  | .addMember id body => OrganizationsController.addMember mode p id body
  | .updateMemberRole id userId body => OrganizationsController.updateMemberRole mode p id userId body
  | .removeMember id userId => OrganizationsController.removeMember mode p id userId
  | .updateRequisites id body => OrganizationsController.updateRequisites mode p id body

end CyberAccountant.Tenancy
