import CyberAccountant.Hr.Controllers
import Mathlib.Data.Nat.Pairing

/-! The personnel records of one organisation do not depend on any other.  Requests of all organisations are
under way at once, each of them statement by statement, while members come and go; what the requests of one
organisation are answered, and what its tables become, is a matter of its own requests alone. -/

namespace CyberAccountant.Hr

open CyberAccountant.Library CyberAccountant.Ledger CyberAccountant.Tenancy

/-- The tenant of a request: the organisation of the access token. -/
def tenantOf (p : Option Principal) : Option Uuid := p.bind (·.org)

/-- The statements that a request makes beside reads: those of its body, when it passes the checks. -/
def HrRequest.Makes : HrRequest → HrCommand → Prop
  | _, .findMembership _ _ | _, .findEmployee _ _ | _, .listEmployees _ _ | _, .countEmployees _
  | _, .listEmployedDuring _ _ _ | _, .listOrders _ _ _ | _, .countOrders _ _ | _, .listContracts _ _
  | _, .listVacations _ _ _ | _, .countVacations _ _ => True
  | .createEmployee body, .createEmployee _ fields hiredOn =>
    parseBody body >>= EmployeesController.validateAndFillCreate = .ok (fields, hiredOn)
  | .patchEmployee _ body, .updateEmployee _ _ patch =>
    parseBody body >>= EmployeesController.validateAndFillUpdate = .ok patch
  | .dismissEmployee _ body, .dismissEmployee _ _ date =>
    parseBody body >>= EmployeesController.validateDismiss = .ok date
  | .createOrder body, .createOrder _ draft => parseBody body >>= HrController.validateOrder = .ok draft
  | .createContract body, .createContract _ draft => parseBody body >>= HrController.validateContract = .ok draft
  | .createVacation body, .createVacation _ draft => parseBody body >>= HrController.validateVacation = .ok draft
  | _, _ => False

/-- Only statements of the request, about the organisation. -/
def Within (t : Option Uuid) (r : HrRequest) (c : HrCommand) : Prop := HrTables.scope c = some t ∧ r.Makes c

section

variable {α : Type} {p : Option Principal} {r : HrRequest}

theorem calls_then {P : HrCommand → Prop} {c : HrCommand} {rest : c.Reply → HrM α} (hFirst : P c)
    (hRest : ∀ reply, (rest reply).Calls P) : ((Program.perform c : HrM c.Reply) >>= rest).Calls P :=
  ⟨hFirst, hRest⟩

theorem calls_done {P : HrCommand → Prop} (a : α) : (pure a : HrM α).Calls P := trivial

theorem calls_requireOrg {resource action : String} {handler : OrgContext → HrM HrReply}
    (h : ∀ ctx, some ctx.orgId = tenantOf p → (handler ctx).Calls (Within (some ctx.orgId) r)) :
    (requireOrg p resource action handler).Calls (Within (tenantOf p) r) := by
  match p with
  | none => exact calls_done _
  | some ⟨user, none⟩ => exact calls_done _
  | some ⟨user, some org⟩ =>
    refine calls_then (c := .findMembership org user) ⟨rfl, trivial⟩ fun found => ?_
    cases found with
    | none => exact calls_done _
    | some m =>
      show Program.Calls _ (if allows (roleText m.role) resource action then _ else _)
      split
      · exact h ⟨org, m.role, user⟩ rfl
      · exact calls_done _

theorem calls_orReply {P : HrCommand → Prop} {x : Except HrReply α} {handler : α → HrM HrReply}
    (h : ∀ a, x = .ok a → (handler a).Calls P) : (orReply x handler).Calls P := by
  cases x with
  | error reply => exact calls_done _
  | ok a => exact h a rfl

theorem calls_requireEmployee {ctx : OrgContext} {employee : Uuid} {handler : HrM HrReply}
    (h : handler.Calls (Within (some ctx.orgId) r)) :
    (HrController.requireEmployee ctx employee handler).Calls (Within (some ctx.orgId) r) := by
  refine calls_then (c := .findEmployee employee ctx.orgId) ⟨rfl, trivial⟩ fun found => ?_
  cases found with
  | none => exact calls_done _
  | some e => exact h

end

/-- A request runs its own statements about the organisation of its token and no others. -/
theorem handle_calls (p : Option Principal) (r : HrRequest) : (handle p r).Calls (Within (tenantOf p) r) := by
  cases r with
  | listEmployees limit offset =>
    simp only [handle, EmployeesController.list]
    exact calls_requireOrg fun ctx _ => calls_then (c := .listEmployees ctx.orgId _) ⟨rfl, trivial⟩ fun _ =>
      calls_then (c := .countEmployees ctx.orgId) ⟨rfl, trivial⟩ fun _ => calls_done _
  | createEmployee body =>
    simp only [handle, EmployeesController.create]
    refine calls_requireOrg fun ctx _ => calls_orReply fun draft hDraft => ?_
    refine calls_then (c := .createEmployee ctx.orgId _ _) ⟨rfl, hDraft⟩ fun made => ?_
    cases made <;> exact calls_done _
  | getEmployee id =>
    simp only [handle, EmployeesController.get]
    exact calls_requireOrg fun ctx _ => calls_orReply fun id _ =>
      calls_then (c := .findEmployee id ctx.orgId) ⟨rfl, trivial⟩ fun _ => calls_done _
  | patchEmployee id body =>
    simp only [handle, EmployeesController.patch]
    refine calls_requireOrg fun ctx _ => calls_orReply fun id _ => calls_orReply fun draft hDraft => ?_
    refine calls_then (c := .updateEmployee ctx.orgId _ _) ⟨rfl, hDraft⟩ fun made => ?_
    cases made <;> exact calls_done _
  | dismissEmployee id body =>
    simp only [handle, EmployeesController.dismiss]
    refine calls_requireOrg fun ctx _ => calls_orReply fun id _ => calls_orReply fun date hDraft => ?_
    refine calls_then (c := .dismissEmployee ctx.orgId _ _) ⟨rfl, hDraft⟩ fun made => ?_
    cases made <;> exact calls_done _
  | listOrders employee limit offset =>
    simp only [handle, HrController.listOrders]
    exact calls_requireOrg fun ctx _ => calls_orReply fun employee _ =>
      calls_then (c := .listOrders ctx.orgId _ _) ⟨rfl, trivial⟩ fun _ =>
        calls_then (c := .countOrders ctx.orgId _) ⟨rfl, trivial⟩ fun _ => calls_done _
  | createOrder body =>
    simp only [handle, HrController.createOrder]
    exact calls_requireOrg fun ctx _ => calls_orReply fun draft hDraft => calls_requireEmployee
      (calls_then (c := .createOrder ctx.orgId _) ⟨rfl, hDraft⟩ fun _ => calls_done _)
  | listContracts employee =>
    simp only [handle, HrController.listContracts]
    refine calls_requireOrg fun ctx _ => calls_orReply fun employee _ => ?_
    cases employee with
    | none => exact calls_done _
    | some employee =>
      exact calls_then (c := .listContracts ctx.orgId _) ⟨rfl, trivial⟩ fun _ => calls_done _
  | createContract body =>
    simp only [handle, HrController.createContract]
    exact calls_requireOrg fun ctx _ => calls_orReply fun draft hDraft => calls_requireEmployee
      (calls_then (c := .createContract ctx.orgId _) ⟨rfl, hDraft⟩ fun _ => calls_done _)
  | listVacations employee limit offset =>
    simp only [handle, HrController.listVacations]
    exact calls_requireOrg fun ctx _ => calls_orReply fun employee _ =>
      calls_then (c := .listVacations ctx.orgId _ _) ⟨rfl, trivial⟩ fun _ =>
        calls_then (c := .countVacations ctx.orgId _) ⟨rfl, trivial⟩ fun _ => calls_done _
  | createVacation body =>
    simp only [handle, HrController.createVacation]
    exact calls_requireOrg fun ctx _ => calls_orReply fun draft hDraft => calls_requireEmployee
      (calls_then (c := .createVacation ctx.orgId _) ⟨rfl, hDraft⟩ fun _ => calls_done _)

/-! ### Runs -/

inductive ServiceReply where
  | hr (reply : HrReply)
  /-- The reply to a request about a membership. -/
  | memberWritten

/-- What happens to the tables: requests arrive and go on, and users come and go. -/
inductive HrEvent where
  | request (n : Nat) (p : Option Principal) (r : HrRequest)
  | addMember (n : Nat) (org user : Uuid) (role : OrgRole)
  | setRole (n : Nat) (org user : Uuid) (role : OrgRole)
  | removeMember (n : Nat) (org user : Uuid)
  | next (t : Option Uuid) (n : Nat) (now : Timestamp)
  | createUser (user : Uuid) (now : Timestamp)
  | deleteUser (user : Uuid) (now : Timestamp)

namespace HrEvent

abbrev OnTables := ServiceEvent (Option Uuid) Timestamp HrCommand HrCommand.Reply ServiceReply

def writeMember (w : MemberWrite Uuid Uuid) : Program HrCommand HrCommand.Reply ServiceReply :=
  .call (.writeMember w) fun _ => .done .memberWritten

def onTables : HrEvent → OnTables
  | request n p r => .arrive (tenantOf p) n (ServiceReply.hr <$> handle p r)
  | addMember n org user role => .arrive (some org) n (writeMember (.add org user role))
  | setRole n org user role => .arrive (some org) n (writeMember (.setRole org user role))
  | removeMember n org user => .arrive (some org) n (writeMember (.remove org user))
  | next t n now => .next t n now
  | createUser user now => .outside (.createUser user) now
  | deleteUser user now => .outside (.writeMember (.deleteUser user)) now

/-- The events that are the organisation's, or everybody's. -/
def concerns (org : Uuid) (e : HrEvent) : Bool := e.onTables.concerns (some org)

theorem calls_own (e : HrEvent) : e.onTables.Scoped HrTables.scope := by
  cases e with
  | request n p r => exact ((handle_calls p r).mono fun c h => h.1).map _
  | addMember | setRole | removeMember => exact ⟨rfl, fun _ => trivial⟩
  | next => trivial
  | createUser | deleteUser => rfl

end HrEvent

/-- The service after these events. -/
def serve (newId : Uuid → Nat → Uuid) (s : HrTables) (events : List HrEvent) :
    Service (Option Uuid) HrCommand HrCommand.Reply HrTables ServiceReply :=
  (Service.idle s).run (HrTables.exec newId) (events.map HrEvent.onTables)

/-- Two services in which the organisation has the same rows at the start and sends the same requests answer it the
same, and its rows are the same at the end, whatever the other organisations have and send. -/
theorem serve_isolated {newId : Uuid → Nat → Uuid} (hApart : DrawsApart newId) {s s' : HrTables}
    (hIds : IdsDrawn newId s) (hIds' : IdsDrawn newId s') {org : Uuid} (hPart : s.part (some org) = s'.part (some org))
    {events events' : List HrEvent} (hSame : events.filter (·.concerns org) = events'.filter (·.concerns org)) :
    (serve newId s events).repliesTo (some org) = (serve newId s' events').repliesTo (some org) ∧
      (serve newId s events).state.part (some org) = (serve newId s' events').state.part (some org) := by
  have hScoped : ∀ events : List HrEvent, ∀ e ∈ events.map HrEvent.onTables, e.Scoped HrTables.scope := by
    intro events e he
    obtain ⟨e', -, rfl⟩ := List.mem_map.mp he
    exact e'.calls_own
  have hFilter : ∀ events : List HrEvent, (events.map HrEvent.onTables).filter (·.concerns (some org)) =
      (events.filter (·.concerns org)).map HrEvent.onTables := fun events => List.filter_map
  have hMine := (HrTables.isolated hApart).alone hIds hIds' hPart (hScoped events)
  have hTheirs := (HrTables.isolated hApart).alone hIds' hIds' (Eq.refl (s'.part (some org))) (hScoped events')
  rw [hFilter, hSame] at hMine
  rw [hFilter] at hTheirs
  exact ⟨hMine.replies.trans hTheirs.replies.symm, hMine.state.trans hTheirs.state.symm⟩

/-! ### A run -/

theorem drawsApart_pair : DrawsApart Nat.pair := fun _ _ _ _ h => Nat.pair_eq_pair.mp h

/-- Two organisations with an owner each. -/
def twoOwners : HrTables where
  users := [1, 2]
  members := ⟨[⟨7, 1, .owner⟩, ⟨9, 2, .owner⟩], by decide⟩
  employees := .empty
  orders := .empty
  contracts := .empty
  vacations := .empty
  drawn _ := 0

theorem idsDrawn_twoOwners : IdsDrawn Nat.pair twoOwners :=
  ⟨fun _ h => (by cases h), fun _ h => (by cases h), fun _ h => (by cases h), fun _ h => (by cases h)⟩

/-- The first organisation lists its employees, with and without a request of the second under way. -/
theorem serve_isolated_twoOwners :
    (serve Nat.pair twoOwners [.request 0 (some ⟨1, some 7⟩) (.listEmployees "" ""),
        .request 0 (some ⟨2, some 9⟩) (.listEmployees "" ""), .next (some 9) 0 5, .next (some 7) 0 6]).repliesTo (some 7) =
      (serve Nat.pair twoOwners [.request 0 (some ⟨1, some 7⟩) (.listEmployees "" ""), .next (some 7) 0 6]).repliesTo
        (some 7) :=
  (serve_isolated drawsApart_pair idsDrawn_twoOwners idsDrawn_twoOwners rfl rfl).1

end CyberAccountant.Hr
