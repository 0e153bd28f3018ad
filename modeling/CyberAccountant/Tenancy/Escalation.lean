import CyberAccountant.Library.Isolation
import CyberAccountant.Tenancy.Organizations

/-! Who can become a member of an organisation, and who can stop being one.  Every membership goes back, over
the owners who gave it, to one that was there before or to an administrator of the platform; so users none of
whom owns an organisation get no further in it, whatever they request and in whatever order. -/

namespace CyberAccountant.Tenancy

open CyberAccountant.Library CyberAccountant.Ledger CyberAccountant.Api CyberAccountant.Security.Auth
open CyberAccountant.Library.Program (orReply)

/-! ### Runs -/

/-- What happens to the tables: requests arrive and go on, and users come, change and go. -/
inductive OrgEvent where
  | request (n : Nat) (p : Option AuthPrincipal) (r : OrgRequest)
  | next (n : Nat) (drawn : Uuid)
  | createUser (user : Uuid) (email : String)
  | changeEmail (user : Uuid) (email : String)
  | deleteUser (user : Uuid)

def OrgEvent.onTables (mode : AuthMode) : OrgEvent → ServiceEvent Unit Uuid OrgCommand OrgCommand.Reply OrgReply
  | request n p r => .arrive () n (handle mode p r)
  | next n drawn => .next () n drawn
  | createUser user email => .outside (.createUser user email) 0
  | changeEmail user email => .outside (.updateEmail user email) 0
  | deleteUser user => .outside (.deleteUser user) 0

/-- The service after these events. -/
def serveOrgs (mode : AuthMode) (s : TenancyTables) (events : List OrgEvent) :
    Service Unit OrgCommand OrgCommand.Reply TenancyTables OrgReply :=
  (Service.idle s).run TenancyTables.exec (events.map (OrgEvent.onTables mode))

/-! ### Where memberships come from -/

section

variable (start : TenancyTables) (events : List OrgEvent)

/-- The user is there at the start, or comes or changes in the run. -/
def Known (u : User) : Prop :=
  u ∈ start.users.rows ∨ .createUser u.id u.email ∈ events ∨ .changeEmail u.id u.email ∈ events

/-- The user has the address at some time. -/
def Holds (email : String) (user : Uuid) : Prop :=
  ∃ u, Known start events u ∧ u.id = user ∧ sameEmail u.email email

/-- The request is to make the user a member of that role, or no member. -/
inductive Asks : OrgRequest → Uuid → Uuid → Option OrgRole → Prop where
  | addById {id body org user role} (hOrg : readUuid id = some org)
      (hBody : (parseBody body >>= validateMember) = .ok (.byId user, role)) :
      Asks (.addMember id body) org user (some role)
  | addByEmail {id body org user email role} (hOrg : readUuid id = some org)
      (hBody : (parseBody body >>= validateMember) = .ok (.byEmail email, role)) (hHolds : Holds start events email user) :
      Asks (.addMember id body) org user (some role)
  | setRole {id userId body org user role} (hIds : readIds id userId = .ok (org, user))
      (hBody : (parseBody body >>= validateRole) = .ok role) :
      Asks (.updateMemberRole id userId body) org user (some role)
  | remove {id userId org user} (hIds : readIds id userId = .ok (org, user)) :
      Asks (.removeMember id userId) org user none

/-- The membership was there at the start, or an administrator or an owner, himself one by such steps, has asked
for it. -/
inductive Granted : OrgMember Uuid Uuid → Prop where
  | initial {m} (hThere : m ∈ start.members.rows) : Granted m
  | created {n p body org user} (hRequest : .request n (some p) (.createOrganization body) ∈ events)
      (hAdmin : isAdmin p = true) (hSubject : readUuid p.subject = some user)
      (hNew : start.organizations.row? org = none) : Granted ⟨org, user, .owner⟩
  | byAdmin {n p r org user role} (hRequest : .request n (some p) r ∈ events) (hAdmin : isAdmin p = true)
      (hAsks : Asks start events r org user (some role)) : Granted ⟨org, user, role⟩
  | byOwner {n p r org user role owner} (hRequest : .request n (some p) r ∈ events)
      (hSubject : readUuid p.subject = some owner) (hOwner : Granted ⟨org, owner, .owner⟩)
      (hAsks : Asks start events r org user (some role)) : Granted ⟨org, user, role⟩

/-- The caller may manage the organisation. -/
def Authorized (p : AuthPrincipal) (org : Uuid) : Prop :=
  isAdmin p = true ∨ ∃ owner, readUuid p.subject = some owner ∧ Granted start events ⟨org, owner, .owner⟩

/-- Someone who may has asked for a change of the membership, or the user goes. -/
def Touched (org user : Uuid) : Prop :=
  .deleteUser user ∈ events ∨ ∃ n p r change, .request n (some p) r ∈ events ∧ Authorized start events p org ∧
    Asks start events r org user change

/-- All that the tables hold comes from the start or the events. -/
structure Accounted (s : TenancyTables) : Prop where
  members : ∀ m ∈ s.members.rows, Granted start events m
  users : ∀ u ∈ s.users.rows, Known start events u
  organizations : ∀ org, s.organizations.row? org = none → start.organizations.row? org = none

/-- No membership goes that nobody has touched. -/
def Loses (s s' : TenancyTables) : Prop :=
  ∀ m ∈ s.members.rows, m ∈ s'.members.rows ∨ Touched start events m.org m.user

/-- The calls that the events account for. -/
def Allowed : OrgCommand → Prop
  | .addMember org user role => Granted start events ⟨org, user, role⟩
  | .setRole org user role => Granted start events ⟨org, user, role⟩ ∧ Touched start events org user
  | .removeMember org user => Touched start events org user
  | .createUser user email => .createUser user email ∈ events
  | .updateEmail user email => .changeEmail user email ∈ events
  | .deleteUser user => .deleteUser user ∈ events
  | _ => True

variable {start events}

theorem Granted.of_authorized {n p r org user role} (hRequest : .request n (some p) r ∈ events)
    (hMay : Authorized start events p org) (hAsks : Asks start events r org user (some role)) :
    Granted start events ⟨org, user, role⟩ := by
  rcases hMay with hAdmin | ⟨owner, hSubject, hOwner⟩
  · exact .byAdmin hRequest hAdmin hAsks
  · exact .byOwner hRequest hSubject hOwner hAsks

theorem Loses.refl (s : TenancyTables) : Loses start events s s := fun _ hm => .inl hm

theorem Loses.trans (s₁ s₂ s₃ : TenancyTables) (h : Loses start events s₁ s₂) (h' : Loses start events s₂ s₃) :
    Loses start events s₁ s₃ := by
  intro m hm
  rcases h m hm with hKept | hTouched
  · exact h' m hKept
  · exact .inr hTouched

/-! ### One call -/

variable {s : TenancyTables} {org user : Uuid} {role : OrgRole} {m : OrgMember Uuid Uuid}

theorem mem_members_add (h : m ∈ (s.members.add org user role).rows) : m ∈ s.members.rows ∨ m = ⟨org, user, role⟩ := by
  unfold OrgMembers.add at h
  split at h
  · simpa using h
  · exact .inl h

theorem members_add_mem (h : m ∈ s.members.rows) : m ∈ (s.members.add org user role).rows := by
  unfold OrgMembers.add
  split
  · exact List.mem_append_left _ h
  · exact h

theorem addMember_tables (s : TenancyTables) (org user : Uuid) (role : OrgRole) :
    (s.addMember org user role).2 = s ∨
      (s.addMember org user role).2 = { s with members := s.members.add org user role } := by
  unfold TenancyTables.addMember
  split_ifs <;> simp

/-- The organisation of an insertion was not there before; the others still are. -/
theorem createOrganization_tables (s : TenancyTables) (id : Uuid) (bin name taxRegime : String) (vatPayer : Bool) :
    let result := s.createOrganization id bin name taxRegime vatPayer
    result.2.members = s.members ∧ result.2.users = s.users ∧
      (∀ org, result.2.organizations.row? org = none → s.organizations.row? org = none) ∧
      ∀ o, result.1 = .ok o → s.organizations.row? o.id = none := by
  intro result
  cases hInsert : s.organizations.insert? ⟨id, bin, name, taxRegime, vatPayer, ⟨"", "", "", ""⟩⟩ with
  | none =>
    have hResult : result = (.error .uniqueViolation, s) := by
      simp only [result, TenancyTables.createOrganization, hInsert]
    rw [hResult]
    exact ⟨rfl, rfl, fun _ h => h, fun _ h => by cases h⟩
  | some t =>
    have hResult : result = (.ok ⟨id, bin, name, taxRegime, vatPayer, ⟨"", "", "", ""⟩⟩,
        { s with organizations := t }) := by
      simp only [result, TenancyTables.createOrganization, hInsert]
    rw [hResult]
    obtain ⟨hNew, hRows⟩ := UniqueTable.insert?_eq_some hInsert
    refine ⟨rfl, rfl, fun org hNone => ?_, fun o' hOk => ?_⟩
    · refine rowOf_eq_none.mpr fun r hr => rowOf_eq_none.mp hNone r ?_
      show r ∈ t.rows
      rw [hRows]
      exact List.mem_append_left _ hr
    · cases hOk
      exact rowOf_eq_none.mpr fun r hr hKey => hNew r hr (.inl hKey)

theorem updateRequisites_tables (s : TenancyTables) (id : Uuid) (requisites : Requisites) :
    (s.updateRequisites id requisites).2.members = s.members ∧ (s.updateRequisites id requisites).2.users = s.users ∧
      ∀ org, (s.updateRequisites id requisites).2.organizations.row? org = none → s.organizations.row? org = none := by
  unfold TenancyTables.updateRequisites
  split
  · rename_i o t hRow hChange
    refine ⟨rfl, rfl, fun org hNone => rowOf_eq_none.mpr fun r hr hKey => ?_⟩
    have hIn : (if r.id = id then { r with requisites := requisites } else r) ∈ t.rows := by
      rw [UniqueTable.change?_eq_some hChange]
      exact mem_changeRow.mpr ⟨r, hr, rfl⟩
    refine rowOf_eq_none.mp hNone _ hIn ?_
    show (if r.id = id then { r with requisites := requisites } else r : Organization).id = org
    split
    · exact hKey
    · exact hKey
  · exact ⟨rfl, rfl, fun _ h => h⟩

/-- A call that the events account for leaves tables that they account for. -/
theorem exec_accounted (drawn : Uuid) {c : OrgCommand} (hAllowed : Allowed start events c)
    (hs : Accounted start events s) :
    Accounted start events (s.exec drawn c).2 ∧ Loses start events s (s.exec drawn c).2 := by
  cases c with
  | addMember org user role =>
    simp only [TenancyTables.exec]
    rcases addMember_tables s org user role with hSame | hAdded
    · rw [hSame]
      exact ⟨hs, .refl s⟩
    · rw [hAdded]
      refine ⟨⟨fun m hm => ?_, hs.users, hs.organizations⟩, fun m hm => .inl (members_add_mem hm)⟩
      rcases mem_members_add hm with hOld | rfl
      · exact hs.members m hOld
      · exact hAllowed
  | setRole org user role =>
    obtain ⟨hGranted, hTouched⟩ := hAllowed
    refine ⟨⟨fun m hm => ?_, hs.users, hs.organizations⟩, fun m hm => ?_⟩
    · obtain ⟨m', hm', rfl⟩ := mem_changeRow.mp hm
      by_cases hHere : m'.key = (org, user)
      · rw [if_pos hHere]
        obtain ⟨rfl, rfl⟩ := Prod.mk.inj hHere
        exact hGranted
      · rw [if_neg hHere]
        exact hs.members m' hm'
    · by_cases hHere : m.key = (org, user)
      · obtain ⟨rfl, rfl⟩ := Prod.mk.inj hHere
        exact .inr hTouched
      · exact .inl (OrgMembers.mem_setRole_of_ne hm hHere)
  | removeMember org user =>
    refine ⟨⟨fun m hm => hs.members m (List.mem_filter.mp hm).1, hs.users, hs.organizations⟩, fun m hm => ?_⟩
    by_cases hHere : m.key = (org, user)
    · obtain ⟨rfl, rfl⟩ := Prod.mk.inj hHere
      exact .inr hAllowed
    · exact .inl (List.mem_filter.mpr ⟨hm, by simpa using hHere⟩)
  | createOrganization bin name taxRegime vatPayer =>
    obtain ⟨hMembers, hUsers, hOrganizations, -⟩ := createOrganization_tables s drawn bin name taxRegime vatPayer
    refine ⟨⟨?_, ?_, fun org hNone => hs.organizations org (hOrganizations org hNone)⟩, fun m hm => .inl ?_⟩
    · exact fun m hm => hs.members m (hMembers ▸ hm)
    · exact fun u hu => hs.users u (hUsers ▸ hu)
    · exact hMembers ▸ hm
  | updateRequisites id requisites =>
    obtain ⟨hMembers, hUsers, hOrganizations⟩ := updateRequisites_tables s id requisites
    refine ⟨⟨?_, ?_, fun org hNone => hs.organizations org (hOrganizations org hNone)⟩, fun m hm => .inl ?_⟩
    · exact fun m hm => hs.members m (hMembers ▸ hm)
    · exact fun u hu => hs.users u (hUsers ▸ hu)
    · exact hMembers ▸ hm
  | createUser user email =>
    refine ⟨⟨hs.members, fun u hu => ?_, hs.organizations⟩, .refl s⟩
    cases hInsert : s.users.insert? ⟨user, email⟩ with
    | none => exact hs.users u (by simpa [TenancyTables.exec, hInsert] using hu)
    | some t =>
      have hRow : u ∈ t.rows := by simpa [TenancyTables.exec, hInsert] using hu
      rw [(UniqueTable.insert?_eq_some hInsert).2] at hRow
      rcases List.mem_append.mp hRow with hOld | hNew
      · exact hs.users u hOld
      · rw [List.mem_singleton.mp hNew]
        exact .inr (.inl hAllowed)
  | updateEmail user email =>
    refine ⟨⟨hs.members, fun u hu => ?_, hs.organizations⟩, .refl s⟩
    cases hChange : s.users.change? user fun u => { u with email := email } with
    | none => exact hs.users u (by simpa [TenancyTables.exec, hChange] using hu)
    | some t =>
      have hRow : u ∈ t.rows := by simpa [TenancyTables.exec, hChange] using hu
      rw [UniqueTable.change?_eq_some hChange] at hRow
      obtain ⟨u', hu', rfl⟩ := mem_changeRow.mp hRow
      by_cases hHere : u'.id = user
      · rw [if_pos (show userKeys.key u' = user from hHere)]
        subst hHere
        exact .inr (.inr hAllowed)
      · rw [if_neg (show ¬userKeys.key u' = user from hHere)]
        exact hs.users u' hu'
  | deleteUser user =>
    refine ⟨⟨fun m hm => hs.members m (List.mem_filter.mp hm).1, fun u hu => ?_, hs.organizations⟩, fun m hm => ?_⟩
    · exact hs.users u (mem_rowsOf.mp hu).1
    · by_cases hHere : m.user = user
      · subst hHere
        exact .inr (.inl hAllowed)
      · exact .inl (List.mem_filter.mpr ⟨hm, by simpa using hHere⟩)
  | findMembership | listMembers | listMembersWithEmail | listForUser | findOrganization | listOrganizations
  | countOrganizations | findByEmail => exact ⟨hs, .refl s⟩

/-! ### One request -/

variable (start events) in
/-- The request makes only calls that the events account for. -/
def Keeps (program : OrgM OrgReply) : Prop :=
  ∀ s, Ensures TenancyTables.exec (Accounted start events) (Loses start events) (fun _ => True) program s

theorem keeps_done (reply : OrgReply) : Keeps start events (pure reply) := fun _ => trivial

theorem keeps_then {c : OrgCommand} {rest : c.Reply → OrgM OrgReply} (hFirst : Allowed start events c)
    (hRest : ∀ drawn s, Accounted start events s → Keeps start events (rest (s.exec drawn c).1)) :
    Keeps start events ((Program.perform c : OrgM c.Reply) >>= rest) := by
  intro _ drawn s _ hs
  obtain ⟨hNext, hLoses⟩ := exec_accounted drawn hFirst hs
  exact ⟨hNext, hLoses, hRest drawn s hs _⟩

theorem keeps_orReply {α : Type} {x : Except OrgReply α} {handler : α → OrgM OrgReply}
    (h : ∀ a, x = .ok a → Keeps start events (handler a)) : Keeps start events (orReply x handler) := by
  cases x with
  | error reply => exact keeps_done reply
  | ok a => exact h a rfl

variable {mode : AuthMode} {p : Option AuthPrincipal} {n : Nat}

theorem keeps_requireAdmin {handler : OrgM OrgReply} (hMode : mode ≠ .none)
    (h : ∀ admin, p = some admin → isAdmin admin = true → Keeps start events handler) :
    Keeps start events (requireAdmin mode p handler) := by
  unfold requireAdmin
  split
  · rename_i hPasses
    obtain ⟨admin, rfl, hAdmin⟩ := Option.any_eq_true _ _ |>.mp (hPasses.resolve_left hMode)
    exact h admin rfl hAdmin
  · exact keeps_done _

/-- The guard lets pass only those who may manage the organisation. -/
theorem keeps_requireAdminOrOrgOwner {id : String} {handler : OrgM OrgReply} (hMode : mode ≠ .none)
    (h : ∀ caller, p = some caller → (∀ org, readUuid id = some org → Authorized start events caller org) →
      Keeps start events handler) : Keeps start events (requireAdminOrOrgOwner mode p id handler) := by
  have hAdmin : Keeps start events (requireAdmin mode p handler) :=
    keeps_requireAdmin hMode fun admin hCaller hIs => h admin hCaller fun _ _ => .inl hIs
  unfold requireAdminOrOrgOwner orgContextOf
  match p with
  | none => exact hAdmin
  | some caller =>
    by_cases hEmpty : caller.subject = "" ∨ caller.org = ""
    · simp only [hEmpty, if_true]
      exact hAdmin
    · simp only [hEmpty, if_false]
      cases hOrg : readUuid caller.org with
      | none => exact keeps_done _
      | some org =>
        cases hUser : readUuid caller.subject with
        | none => exact keeps_done _
        | some user =>
          refine keeps_then (c := .findMembership org user) trivial fun drawn s hs => ?_
          cases hFound : s.members.findMembership org user with
          | none => simpa [TenancyTables.exec, hFound] using hAdmin
          | some m =>
            simp only [TenancyTables.exec, hFound]
            show Keeps start events (if caller.org = id ∧ m.role = .owner then handler else _)
            split
            · rename_i hOwns
              refine h caller rfl fun org' hId => .inr ⟨user, hUser, ?_⟩
              obtain rfl : org = org' := by simpa [hOwns.1, hId] using hOrg.symm
              have hGranted := hs.members m (rowOf_mem hFound)
              have hKey := rowOf_key hFound
              obtain ⟨rfl, rfl⟩ := Prod.mk.inj hKey
              exact hOwns.2 ▸ hGranted
            · exact hAdmin

theorem keeps_mine : Keeps start events (OrganizationsController.mine p) := by
  unfold OrganizationsController.mine
  refine keeps_orReply fun caller _ => keeps_orReply fun user _ => ?_
  refine keeps_then (c := .listForUser user) trivial fun drawn s _ => ?_
  generalize (s.exec drawn (.listForUser user)).1 = memberships
  refine Ensures.of_calls (P := Allowed start events) ?_ fun drawn c s hAllowed hs => exec_accounted drawn hAllowed hs
  refine Program.Calls.bind (Program.Calls.foldlM fun rows m _ => ?_) fun _ => trivial
  refine ⟨trivial, fun found => ?_⟩
  cases found <;> trivial

theorem readIds_org {id userId : String} {ids : Uuid × Uuid} (h : readIds id userId = .ok ids) :
    readUuid id = some ids.1 := by
  simp only [readIds, bind_eq_ok, orFail_eq_ok, pure_eq_ok] at h
  obtain ⟨org, hOrg, user, -, rfl⟩ := h
  exact hOrg

theorem keeps_add (hGranted : Granted start events ⟨org, user, role⟩) :
    Keeps start events (OrganizationsController.add org user role) := by
  unfold OrganizationsController.add
  refine keeps_then (c := .addMember org user role) hGranted fun drawn s _ => ?_
  generalize (s.exec drawn (.addMember org user role)).1 = made
  match made with
  | .error .uniqueViolation => exact keeps_done _
  | .error .other => exact keeps_done _
  | .ok m => exact keeps_done _

theorem keeps_changeRole (hGranted : Granted start events ⟨org, user, role⟩) (hTouched : Touched start events org user) :
    Keeps start events (OrganizationsController.changeRole org user role) := by
  unfold OrganizationsController.changeRole
  refine keeps_then (c := .setRole org user role) ⟨hGranted, hTouched⟩ fun drawn s _ => ?_
  refine keeps_then (c := .findMembership org user) trivial fun drawn s _ => ?_
  generalize (s.exec drawn (.findMembership org user)).1 = found
  match found with
  | none => exact keeps_done _
  | some m => exact keeps_done _

theorem keeps_protectLastOwner {takes : Bool} {message : String} {change : OrgM OrgReply}
    (h : Keeps start events change) :
    Keeps start events (OrganizationsController.protectLastOwner org user takes message change) := by
  unfold OrganizationsController.protectLastOwner
  refine keeps_then (c := .findMembership org user) trivial fun drawn s _ => ?_
  generalize (s.exec drawn (.findMembership org user)).1 = found
  match found with
  | none => exact keeps_done _
  | some target =>
    show Keeps start events (if target.role = .owner ∧ takes = true then _ else change)
    split
    · refine keeps_then (c := .listMembers org) trivial fun drawn s _ => ?_
      split
      · exact keeps_done _
      · exact h
    · exact h

/-- A request of the run makes only calls that the run accounts for. -/
theorem handle_keeps (hMode : mode ≠ .none) {r : OrgRequest} (hRequest : .request n p r ∈ events) :
    Keeps start events (handle mode p r) := by
  cases r with
  | createOrganization body =>
    simp only [handle, OrganizationsController.createOrganization]
    refine keeps_requireAdmin hMode fun admin hCaller hAdmin => ?_
    refine keeps_orReply fun draft _ => keeps_orReply fun name _ => ?_
    refine keeps_then (c := .createOrganization draft.bin name draft.taxRegime draft.vatPayer) trivial
      fun drawn s hs => ?_
    obtain ⟨-, -, -, hNew⟩ := createOrganization_tables s drawn draft.bin name draft.taxRegime draft.vatPayer
    change ∀ o, (s.exec drawn (.createOrganization draft.bin name draft.taxRegime draft.vatPayer)).1 = .ok o → _
      at hNew
    generalize (s.exec drawn (.createOrganization draft.bin name draft.taxRegime draft.vatPayer)).1 = made at hNew ⊢
    match made with
    | .error .uniqueViolation => exact keeps_done _
    | .error .other => exact keeps_done _
    | .ok o =>
      show Keeps start events (OrganizationsController.bindCreator p o)
      unfold OrganizationsController.bindCreator
      subst hCaller
      cases hSubject : (some admin).bind fun p => readUuid p.subject with
      | none => exact keeps_done _
      | some user =>
        refine keeps_then (c := .addMember o.id user .owner) ?_ fun _ _ _ => keeps_done _
        exact .created hRequest hAdmin hSubject (hs.organizations o.id (hNew o rfl))
  | listOrganizations limit offset =>
    simp only [handle, OrganizationsController.listOrganizations]
    exact keeps_requireAdmin hMode fun _ _ _ =>
      keeps_then (c := .listOrganizations _) trivial fun _ _ _ =>
        keeps_then (c := .countOrganizations) trivial fun _ _ _ => keeps_done _
  | mine => exact keeps_mine
  | listMembers id =>
    simp only [handle, OrganizationsController.listMembers]
    exact keeps_requireAdminOrOrgOwner hMode fun _ _ _ => keeps_orReply fun org _ =>
      keeps_then (c := .listMembersWithEmail org) trivial fun _ _ _ => keeps_done _
  | addMember id body =>
    simp only [handle, OrganizationsController.addMember]
    refine keeps_requireAdminOrOrgOwner hMode fun caller hCaller hMay => ?_
    subst hCaller
    refine keeps_orReply fun org hOrg => keeps_orReply fun asked hAsked => ?_
    have hId : readUuid id = some org := orFail_eq_ok.mp hOrg
    obtain ⟨subject, role⟩ := asked
    cases subject with
    | byId user => exact keeps_add (.of_authorized hRequest (hMay org hId) (.addById hId hAsked))
    | byEmail email =>
      refine keeps_then (c := .findByEmail email) trivial fun drawn s hs => ?_
      cases hFound : (s.exec drawn (.findByEmail email)).1 with
      | none => exact keeps_done _
      | some u =>
        have hKnown : Known start events u := hs.users u (List.mem_of_find?_eq_some hFound)
        have hSame : sameEmail u.email email := by simpa using List.find?_some hFound
        exact keeps_add (.of_authorized hRequest (hMay org hId) (.addByEmail hId hAsked ⟨u, hKnown, rfl, hSame⟩))
  | updateMemberRole id userId body =>
    simp only [handle, OrganizationsController.updateMemberRole]
    refine keeps_requireAdminOrOrgOwner hMode fun caller hCaller hMay => ?_
    subst hCaller
    refine keeps_orReply fun ids hIds => keeps_orReply fun role hRole => ?_
    have hAsks : Asks start events (.updateMemberRole id userId body) ids.1 ids.2 (some role) := .setRole hIds hRole
    have hId : readUuid id = some ids.1 := readIds_org hIds
    exact keeps_protectLastOwner (keeps_changeRole (.of_authorized hRequest (hMay _ hId) hAsks)
      (.inr ⟨n, caller, _, _, hRequest, hMay _ hId, hAsks⟩))
  | removeMember id userId =>
    simp only [handle, OrganizationsController.removeMember]
    refine keeps_requireAdminOrOrgOwner hMode fun caller hCaller hMay => ?_
    subst hCaller
    refine keeps_orReply fun ids hIds => ?_
    have hAsks : Asks start events (.removeMember id userId) ids.1 ids.2 none := .remove hIds
    have hId : readUuid id = some ids.1 := readIds_org hIds
    exact keeps_protectLastOwner (keeps_then (c := .removeMember ids.1 ids.2)
      (.inr ⟨n, caller, _, _, hRequest, hMay _ hId, hAsks⟩) fun _ _ _ => keeps_done _)
  | updateRequisites id body =>
    simp only [handle, OrganizationsController.updateRequisites]
    refine keeps_requireAdminOrOrgOwner hMode fun _ _ _ => keeps_orReply fun org _ => keeps_orReply fun requisites _ => ?_
    refine keeps_then (c := .updateRequisites org requisites) trivial fun drawn s _ => ?_
    generalize (s.exec drawn (.updateRequisites org requisites)).1 = made
    match made with
    | false => exact keeps_done _
    | true =>
      refine keeps_then (c := .findOrganization org) trivial fun drawn s _ => ?_
      generalize (s.exec drawn (.findOrganization org)).1 = found
      match found with
      | none => exact keeps_done _
      | some o => exact keeps_done _

/-! ### Runs -/

theorem accounted_start : Accounted start events start :=
  ⟨fun _ hm => .initial hm, fun _ hu => .inl hu, fun _ h => h⟩

/-- Every membership was granted and every one that is gone was touched. -/
theorem serveOrgs_accounted (hMode : mode ≠ .none) (start : TenancyTables) (events : List OrgEvent) :
    Accounted start events (serveOrgs mode start events).state ∧
      Loses start events start (serveOrgs mode start events).state := by
  have hStart : AnswersOk TenancyTables.exec (Accounted start events) (Loses start events) (fun _ => True)
      (Service.idle start : Service Unit OrgCommand OrgCommand.Reply TenancyTables OrgReply) := .idle accounted_start
  suffices hRun : AnswersOk TenancyTables.exec (Accounted start events) (Loses start events) (fun _ => True)
      (serveOrgs mode start events) ∧ Loses start events start (serveOrgs mode start events).state from
    ⟨hRun.1.inv, hRun.2⟩
  refine hStart.run Loses.refl Loses.trans (fun t n program hIn s _ => ?_) (fun c now hIn s hs => ?_)
  · obtain ⟨e, he, hEq⟩ := List.mem_map.mp hIn
    cases e with
    | request n p r =>
      cases hEq
      exact handle_keeps hMode he s
    | next | createUser | changeEmail | deleteUser => cases hEq
  · obtain ⟨e, he, hEq⟩ := List.mem_map.mp hIn
    cases e with
    | request | next => cases hEq
    | createUser user email =>
      cases hEq
      exact exec_accounted _ he hs
    | changeEmail user email =>
      cases hEq
      exact exec_accounted _ he hs
    | deleteUser user =>
      cases hEq
      exact exec_accounted _ he hs

/-- The caller is an administrator of the platform, or not of the group. -/
def Outside (group : Uuid → Prop) (p : AuthPrincipal) : Prop :=
  isAdmin p = true ∨ ∃ user, readUuid p.subject = some user ∧ ¬group user

/-- A group none of whom owns an organisation at the start, and none of whom others make a member of it, gains no
membership and no role in it, and takes no membership in it from anybody. -/
theorem no_escalation (hMode : mode ≠ .none) (start : TenancyTables) (events : List OrgEvent) (group : Uuid → Prop)
    (org : Uuid) (hOrg : (start.organizations.row? org).isSome = true)
    (hNone : ∀ m ∈ start.members.rows, m.org = org → group m.user → m.role ≠ .owner)
    (hOthers : ∀ n p r, .request n (some p) r ∈ events → Outside group p → ∀ user role, group user →
      ¬Asks start events r org user (some role)) :
    (∀ m ∈ (serveOrgs mode start events).state.members.rows, m.org = org → group m.user → m ∈ start.members.rows) ∧
      ∀ m ∈ start.members.rows, m.org = org → .deleteUser m.user ∉ events →
        (∀ n p r, .request n (some p) r ∈ events → Outside group p → ∀ change, ¬Asks start events r org m.user change) →
        m ∈ (serveOrgs mode start events).state.members.rows := by
  obtain ⟨hAccounted, hLoses⟩ := serveOrgs_accounted hMode start events
  have hGroup : ∀ m, Granted start events m → m.org = org → group m.user → m ∈ start.members.rows := by
    intro m hGranted
    induction hGranted with
    | initial hThere => exact fun _ _ => hThere
    | created _ _ _ hNew =>
      rintro rfl -
      simp [hNew] at hOrg
    | byAdmin hRequest hAdmin hAsks =>
      rintro rfl hIn
      exact absurd hAsks (hOthers _ _ _ hRequest (.inl hAdmin) _ _ hIn)
    | @byOwner _ _ _ _ _ _ owner hRequest hSubject _ hAsks ih =>
      rintro rfl hIn
      -- An owner of the group would have been one at the start.
      have hNot : ¬group owner := fun hOwner => hNone _ (ih rfl hOwner) rfl hOwner rfl
      exact absurd hAsks (hOthers _ _ _ hRequest (.inr ⟨owner, hSubject, hNot⟩) _ _ hIn)
  refine ⟨fun m hm => hGroup m (hAccounted.members m hm), fun m hm hHere hStays hUnasked => ?_⟩
  rcases hLoses m hm with hKept | hGone | ⟨n, p, r, change, hRequest, hMay, hAsks⟩
  · exact hKept
  · exact absurd hGone hStays
  · have hOutside : Outside group p := by
      rcases hMay with hAdmin | ⟨owner, hSubject, hOwner⟩
      · exact .inl hAdmin
      · refine .inr ⟨owner, hSubject, fun hIn => ?_⟩
        exact hNone _ (hGroup _ hOwner hHere hIn) hHere hIn rfl
    exact absurd (hHere ▸ hAsks) (hUnasked n p r hRequest hOutside change)

end

/-! ### A run -/

/-- An organisation with its owner and a viewer, and a third user. -/
def threeUsers : TenancyTables where
  organizations := ⟨[⟨7, "123456789012", "", "standard", false, ⟨"", "", "", ""⟩⟩], by simp⟩
  users := ⟨[⟨1, "a@b.kz"⟩, ⟨2, "c@b.kz"⟩, ⟨3, "d@b.kz"⟩], by decide⟩
  members := ⟨[⟨7, 1, .owner⟩, ⟨7, 2, .viewer⟩], by decide⟩

def viewer : AuthPrincipal where
  subject := "00000000-0000-0000-0000-000000000002"
  roles := []
  scopes := []
  org := "00000000-0000-0000-0000-000000000007"
  rawClaims := .obj [("permissions", .int 1)]

/-- The viewer asks that the third user be an owner. -/
def viewerAsks : List OrgEvent :=
  [.request 0 (some viewer) (.addMember "00000000-0000-0000-0000-000000000007" (some (.obj
    [("user_id", .str "00000000-0000-0000-0000-000000000003"), ("role", .str "owner")]))), .next 0 0, .next 0 0]

theorem no_escalation_viewer :
    ¬∃ m ∈ (serveOrgs .jwt threeUsers viewerAsks).state.members.rows, m.org = 7 ∧ m.user = 3 := by
  rintro ⟨m, hm, hOrg, hUser⟩
  have hOthers : ∀ n p r, .request n (some p) r ∈ viewerAsks → Outside (· ≠ 1) p → ∀ user role, user ≠ 1 →
      ¬Asks threeUsers viewerAsks r 7 user (some role) := by
    intro n p r hIn hOutside
    obtain ⟨rfl, rfl, rfl⟩ : n = 0 ∧ p = viewer ∧ _ := by simpa [viewerAsks] using hIn
    rcases hOutside with hAdmin | ⟨user, hSubject, hNot⟩
    · exact absurd hAdmin (by decide)
    · have hId : readUuid viewer.subject = some 2 := by decide +kernel
      rw [hId] at hSubject
      cases hSubject
      simp at hNot
  have hThere := (no_escalation (by decide) threeUsers viewerAsks (· ≠ 1) 7 (by decide) (by decide) hOthers).1 m hm hOrg
    (by simp [hUser])
  simp [threeUsers] at hThere
  rcases hThere with rfl | rfl <;> cases hUser

end CyberAccountant.Tenancy
